import ScreenFlow.Json.Record

/-!
# Patches, transitions and response handling

What a handler declares to happen to state and screen around its main action.
-/

namespace ScreenFlow

/-- One write to state; path and value are templates. -/
structure StatePatch where
  path : String
  value : Json := .null
deriving DecidableEq, Repr, Inhabited

namespace StatePatch

def decode : Decoder StatePatch := .record do
  return { path := ← .required "path" .string, value := ← .withDefault ["value"] .null .value }

def toJson (p : StatePatch) : Json := .obj [("path", .str p.path), ("value", p.value)]

end StatePatch

structure NavigateSpec where
  href : String
  replace : Bool := false
deriving DecidableEq, Repr, Inhabited

namespace NavigateSpec

def decode : Decoder NavigateSpec := .record do
  return { href := ← .required "href" .string, replace := ← .withDefault ["replace"] false .bool }

def toJson (n : NavigateSpec) : Json := .obj [("href", .str n.href), ("replace", .bool n.replace)]

end NavigateSpec

/-- What follows the success branch or the error branch. -/
structure Transition where
  navigate : Option NavigateSpec := none
  openModal : Option String := none
  closeModal : Option String := none
  setState : List StatePatch := []
deriving DecidableEq, Repr, Inhabited

namespace Transition

def decode : Decoder Transition := .record do
  return {
    navigate := ← .optional "navigate" NavigateSpec.decode
    openModal := ← .optional "openModal" .string
    closeModal := ← .optional "closeModal" .string
    setState := ← .withDefault ["setState"] [] (.oneOrMany StatePatch.decode) }

def toJson (t : Transition) : Json :=
  .obj [("navigate", .ofOption NavigateSpec.toJson t.navigate),
    ("openModal", .ofOption .str t.openModal), ("closeModal", .ofOption .str t.closeModal),
    ("setState", .arr (t.setState.map StatePatch.toJson))]

end Transition

/-- The shape in which a response body is wanted. -/
inductive ResponseType where
  | json
  | text
  | blob
deriving DecidableEq, Repr, Inhabited

namespace ResponseType

def all : List ResponseType := [json, text, blob]

def name : ResponseType → String
  | json => "json"
  | text => "text"
  | blob => "blob"

def decode : Decoder ResponseType := .oneOf all name

def toJson (t : ResponseType) : Json := .str t.name

end ResponseType

/-- How a result is turned into what is stored: by a script of the host, or by picking paths. -/
inductive ResultMapping where
  | script (source : String)
  | paths (picks : List (String × String))
deriving DecidableEq, Repr, Inhabited

namespace ResultMapping

def decode : Decoder ResultMapping
  | .str s => some (.script s)
  | v => (Decoder.whole (.map .string) v).map .paths

def toJson : ResultMapping → Json
  | script s => .str s
  | paths ps => .obj (ps.map fun p => (p.1, .str p.2))

end ResultMapping

structure ResponseHandling where
  responseType : Option ResponseType := none
  /-- Where the result goes; a template that may also hold the placeholder for an item's id. -/
  statePath : Option String := none
  mapping : Option ResultMapping := none
deriving DecidableEq, Repr, Inhabited

namespace ResponseHandling

def decode : Decoder ResponseHandling := .record do
  return {
    responseType := ← .optional "responseType" ResponseType.decode
    statePath := ← .optional "statePath" .string
    mapping := ← .optional "resultMapping" ResultMapping.decode }

def toJson (r : ResponseHandling) : Json :=
  .obj [("responseType", .ofOption ResponseType.toJson r.responseType),
    ("statePath", .ofOption .str r.statePath),
    ("resultMapping", .ofOption ResultMapping.toJson r.mapping)]

end ResponseHandling

end ScreenFlow
