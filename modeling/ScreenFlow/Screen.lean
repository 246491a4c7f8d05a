import ScreenFlow.DataSource
import ScreenFlow.Handler.Basic
import ScreenFlow.Json.Reader

/-!
# Screens

A screen has its own data sources, named handlers and initial state.
-/

namespace ScreenFlow

structure Screen where
  id : Option String := none
  dataSources : List DataSource := []
  handlers : List (String × EventHandler) := []
  initialState : Json := .null
  /-- Whether the screen is only reachable with a session. -/
  requiresAuth : Bool := false
deriving Repr, Inhabited

namespace Screen

def handler? (s : Screen) (name : String) : Option EventHandler :=
  (s.handlers.find? (·.1 == name)).map (·.2)

def decode : Decoder Screen := .record do
  return {
    id := ← .optional "id" .string
    dataSources := ← .withDefault ["dataSources"] [] (.list DataSource.decode)
    handlers := ← .withDefault ["handlers"] [] (.map EventHandler.decode)
    initialState := ← .withDefault ["initialState"] .null .value
    requiresAuth := ← .withDefault ["requiresAuth"] false .bool }

def toJson (s : Screen) : Json :=
  .obj [("id", .ofOption .str s.id), ("dataSources", .arr (s.dataSources.map DataSource.toJson)),
    ("handlers", .obj (s.handlers.map fun h => (h.1, h.2.toJson))),
    ("initialState", s.initialState), ("requiresAuth", .bool s.requiresAuth)]

/-- Reads a screen from its text. -/
def ofText (text : String) : Except Json.ReadError Screen := Json.decodeText decode text

end Screen

end ScreenFlow
