import ScreenFlow.Fault

/-!
# Reports of a dispatch

Which phases the top-level handler went through, and how it ended.
-/

namespace ScreenFlow

inductive Phase where
  | idle
  | before
  | executing
  | success
  | error
  | finally_
  | done
deriving DecidableEq, Repr, Inhabited

namespace Phase

def name : Phase → String
  | idle => "idle"
  | before => "before"
  | executing => "executing"
  | success => "success"
  | error => "error"
  | finally_ => "finally"
  | done => "done"

/-- The phase as a heading. -/
def title : Phase → String
  | idle => "Idle"
  | before => "Before"
  | executing => "Executing"
  | success => "Success"
  | error => "Error"
  | finally_ => "Finally"
  | done => "Done"

end Phase

inductive Outcome where
  | succeeded (value : Json)
  | failed (info : FaultInfo)
  | cancelled
deriving DecidableEq, Repr

namespace Outcome

def ofResult : Except Fault Json → Outcome
  | .ok v => succeeded v
  | .error .cancelled => cancelled
  | .error f => failed (FaultInfo.ofFault f)

def name : Outcome → String
  | succeeded _ => "succeeded"
  | failed _ => "failed"
  | cancelled => "cancelled"

def fields : Outcome → List (String × Json)
  | succeeded v => [("outcome", .str "succeeded"), ("value", v)]
  | failed info => [("outcome", .str "failed"), ("value", info.toJson)]
  | cancelled => [("outcome", .str "cancelled")]

def toJson (o : Outcome) : Json := .obj o.fields

end Outcome

structure Report where
  invocation : String
  phases : List Phase
  outcome : Outcome
deriving DecidableEq, Repr

namespace Report

def toJson (r : Report) : Json :=
  .obj ([("invocationId", .str r.invocation),
    ("phases", .arr (r.phases.map fun p => .str p.name))] ++ r.outcome.fields)

end Report

end ScreenFlow
