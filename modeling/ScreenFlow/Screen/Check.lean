import ScreenFlow.Resolve.Registry
import ScreenFlow.Screen

/-!
# Checking a screen before it runs

Every handler of the tree needs a data source that exists if its kind calls one, and the parameter
that its kind cannot do without; nesting has a limit.
-/

namespace ScreenFlow

/-- A problem, under the name of the top-level handler in which it was found. -/
structure Finding where
  handler : String
  message : String
deriving DecidableEq, Repr, Inhabited

namespace Finding

def toJson (f : Finding) : Json := .obj [("handler", .str f.handler), ("message", .str f.message)]

end Finding

namespace ActionSpec

def sourceProblem? (s : ActionSpec) (screen : Screen) (registry : Registry) : Option String :=
  match s.dataSourceId with
  | none => if s.action.needsDataSource then some s!"{s.action.name} requires a dataSourceId" else none
  | some id =>
    match registry.find screen.dataSources id with
    | .ok _ => none
    | .error _ => some s!"{s.action.name} references unknown data source '{id}'"

/-- The parameters of which a kind needs one, and what is said when none is there. -/
def targetKeys? (k : ActionKind) : Option (List String × String) :=
  match k with
  | .navigation => some (["href", "path", "url", "to"], "navigation requires an href")
  | .openModal | .closeModal => some (["modalId", "modal", "id"], k.name ++ " requires a modalId")
  | .updateState => some (["path", "statePath", "key"], "update_state requires a path")
  | .runScript => some (["script", "code"], "run_script requires a script")
  | _ => none

def targetProblem? (s : ActionSpec) : Option String :=
  (targetKeys? s.action).bind fun (keys, message) =>
    if keys.all fun k => (s.param? k).isNone then some message else none

def problems (s : ActionSpec) (screen : Screen) (registry : Registry) : List String :=
  (s.sourceProblem? screen registry).toList ++ s.targetProblem?.toList

end ActionSpec

namespace EventHandler

mutual

/-- The problems of a handler and then of those below it. -/
def problems (screen : Screen) (registry : Registry) : EventHandler → List String
  | node s bs ss es fs =>
    s.problems screen registry ++ problemsAll screen registry bs ++
      problemsAll screen registry ss ++ problemsAll screen registry es ++
      problemsAll screen registry fs

def problemsAll (screen : Screen) (registry : Registry) : List EventHandler → List String
  | [] => []
  | h :: rest => problems screen registry h ++ problemsAll screen registry rest

end

def nestingProblem? (h : EventHandler) (maxDepth : Nat) : Option String :=
  if maxDepth < h.depth then
    some s!"nesting depth {h.depth} exceeds the limit of {maxDepth}"
  else none

end EventHandler

namespace Screen

def check (s : Screen) (registry : Registry) (maxDepth : Nat) : List Finding :=
  s.handlers.flatMap fun (name, h) =>
    ((h.nestingProblem? maxDepth).toList ++ h.problems s registry).map (Finding.mk name)

end Screen

end ScreenFlow
