import ScreenFlow.Handler.Kind
import ScreenFlow.Resolve.Basic

/-!
# What a dispatch knows

The parts of a dispatcher that do not change, the facts of one dispatch, and the scope in which its
templates are filled in: the state, with the event, result and error of the handler laid over it.
-/

namespace ScreenFlow

structure DispatchSettings where
  /-- The deepest nesting of handlers that is executed, the top-level handler counting as one. -/
  maxDepth : Nat := 8
  postLoginRedirect : Option String := none
  postLogoutRedirect : Option String := none
  /-- Whether every failed action is shown to the user. -/
  errorToast : Bool := true
deriving DecidableEq, Repr, Inhabited

structure Dispatcher where
  settings : DispatchSettings := {}
  registry : Registry := {}
  defaults : Defaults := {}
  translate : Template.Translator := Template.noTranslations
  /-- Whether there is a session that logins and logouts act on. -/
  hasSession : Bool := false
  /-- Whether streams can be opened. -/
  streaming : Bool := true

/-- One dispatch. -/
structure Invocation where
  id : String
  /-- Data sources of the screen, which come before the registered ones. -/
  own : List DataSource := []
  requiresAuth : Bool := false
deriving Repr, Inhabited

/-- Values laid over the state, with ascending names. -/
abbrev Context := List (String × Json)

namespace Context

def ofEvent (payload : Json) : Context := [("event", payload)]

def set (c : Context) (name : String) (value : Json) : Context := Json.insert c name value

def event? (c : Context) : Option Json := Json.lookup c "event"

/-- The scope over a state. A state that is no object stands under a name of its own. -/
def scope (c : Context) (state : Json) : Json :=
  let base := match state with
    | .obj fields => fields
    | .null => []
    | other => [("state", other)]
  .obj (Json.extend base c)

end Context

namespace Dispatcher

def fill (d : Dispatcher) (scope : Json) : Json → Json := Template.resolve scope d.translate

def fillText (d : Dispatcher) (scope : Json) : String → String :=
  Template.resolveText scope d.translate

end Dispatcher

namespace DataSource

/-- The source with what a kind of action adds to it where it says nothing itself. -/
def forAction (d : DataSource) (k : ActionKind) : DataSource :=
  let d := { d with method := d.method.or k.crudMethod? }
  match k with
  | .graphqlMutation => { d with operation := d.operation.or (some .mutation) }
  | .graphqlSubscription => { d with operation := d.operation.or (some .subscription) }
  | .aiGenerate => if d.query.isNone then { d with method := d.method.or (some .post) } else d
  | _ => d

end DataSource

end ScreenFlow
