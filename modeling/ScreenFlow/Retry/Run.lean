import ScreenFlow.Fault
import ScreenFlow.Process.Basic
import ScreenFlow.Retry

/-!
# Repeating an attempt

Attempts are numbered from zero and follow a policy. A run ends at the first success, at the first
fault that another attempt cannot mend, when it is cancelled, or when the attempts are used up, which
is announced once.
-/

namespace ScreenFlow.Retry

inductive Ask where
  /-- Whether the run has been cancelled. -/
  | cancelled
  | attempt (n : Nat)
  /-- A random number for a jittered wait. -/
  | draw
  | pause (d : Duration)
  /-- Announces that all of so many attempts have failed. -/
  | giveUp (attempts : Nat)

/-- An attempt has no result if it was cancelled; a pause tells whether it was slept through. -/
@[reducible] def Answer (α : Type) : Ask → Type
  | .cancelled => Bool
  | .attempt _ => Option (Except Fault α)
  | .draw => Nat
  | .pause _ => Bool
  | .giveUp _ => Unit

@[reducible] def interface (α : Type) : Interface := ⟨Ask, Answer α⟩

variable {α : Type}

def ask (q : Ask) : Process (interface α) (Answer α q) := Process.call (I := interface α) q

/-- Makes up to `left` attempts, the next one being number `n`. -/
def loop (p : RetryPolicy) : Nat → Nat → Process (interface α) (Except Fault α)
  | 0, _ => return .error (.validation "retry policy allows no attempts")
  | left + 1, n => do
    if ← ask .cancelled then return .error .cancelled
    match ← ask (.attempt n) with
    | none => return .error .cancelled
    | some (.ok a) => return .ok a
    | some (.error e) =>
      if !e.isRetryable then return .error e
      if left = 0 then
        ask (.giveUp p.maxAttempts)
        return .error e
      let draw ← if p.strategy == .jitter then ask .draw else pure 0
      if ← ask (.pause (p.delayWith n draw)) then loop p left (n + 1)
      else return .error .cancelled

def run (p : RetryPolicy) : Process (interface α) (Except Fault α) := loop p p.maxAttempts 0

def exhaustedMessage (attempts : Nat) : String := s!"Failed after {attempts} attempts"

end ScreenFlow.Retry
