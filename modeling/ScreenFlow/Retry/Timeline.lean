import ScreenFlow.Retry.Run

/-!
# Retries on a timeline

A run against prepared outcomes, each of which takes its time, with at most one moment of
cancellation. At that moment whatever is going on ends.
-/

namespace ScreenFlow.Retry

structure Outcome (α : Type) where
  takes : Duration := 0
  result : Except Fault α

structure Timeline (α : Type) where
  /-- The outcome of each attempt by its number. -/
  outcome : Nat → Outcome α
  cancelAt : Option Nat := none
  /-- The random number that is drawn after each attempt by its number. -/
  draw : Nat → Nat := fun _ => 0

/-- What has happened so far: the time, the attempts with their starts, and the announcements. -/
structure History where
  time : Nat := 0
  attempts : List (Nat × Nat) := []
  exhausted : List Nat := []
deriving DecidableEq, Repr

namespace Timeline

variable {α : Type}

def isCancelled (t : Timeline α) (time : Nat) : Bool := t.cancelAt.any (· ≤ time)

/-- Lets time pass until `d` is over or the cancellation comes; the answer tells whether `d` is over. -/
def elapse (t : Timeline α) (d : Duration) : StateM History Bool := fun h =>
  match t.cancelAt with
  | some at_ => if at_ ≤ h.time + d then (false, { h with time := max h.time at_ })
    else (true, { h with time := h.time + d })
  | none => (true, { h with time := h.time + d })

def answer (t : Timeline α) : (q : Ask) → StateM History (Answer α q)
  | .cancelled => fun h => (t.isCancelled h.time, h)
  | .attempt n => do
    modify fun h => { h with attempts := h.attempts ++ [(n, h.time)] }
    if (t.outcome n).takes = 0 then return some (t.outcome n).result
    if ← t.elapse (t.outcome n).takes then return some (t.outcome n).result
    return none
  | .draw => fun h => (t.draw (h.attempts.length - 1), h)
  | .pause d => t.elapse d
  | .giveUp n => modify fun h => { h with exhausted := h.exhausted ++ [n] }

/-- The result of a run that starts at time zero, and what happened in it. -/
def run (t : Timeline α) (p : RetryPolicy) : Except Fault α × History :=
  ((Retry.run p).runIn t.answer).run {}

end Timeline

end ScreenFlow.Retry
