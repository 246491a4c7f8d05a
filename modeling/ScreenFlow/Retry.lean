import ScreenFlow.Bits
import ScreenFlow.Json.Record
import ScreenFlow.Duration

/-!
# Retry policies

How often an attempt is repeated, and how long to wait before each repetition.
-/

namespace ScreenFlow

inductive Backoff where
  | exponential
  | linear
  | jitter
deriving DecidableEq, Repr, Inhabited

namespace Backoff

def all : List Backoff := [exponential, linear, jitter]

def name : Backoff → String
  | exponential => "exponential"
  | linear => "linear"
  | jitter => "jitter"

def decode : Decoder Backoff := .oneOf all name

def toJson (b : Backoff) : Json := .str b.name

end Backoff

structure RetryPolicy where
  attempts : Nat := 3
  delayMs : Nat := 1000
  strategy : Backoff := .exponential
deriving DecidableEq, Repr, Inhabited

namespace RetryPolicy

/-- At least one attempt is made. -/
def maxAttempts (p : RetryPolicy) : Nat := max p.attempts 1

theorem maxAttempts_pos (p : RetryPolicy) : 0 < p.maxAttempts := by
  simp only [maxAttempts]
  omega

/-- The factor by which attempt number `n` stretches the base delay when delays double. -/
def doubling (n : Nat) : Nat := min (Bits.values (min n 31)) (Bits.values 32 - 1)

def base (p : RetryPolicy) : Span := .ofMillis p.delayMs

/-- The wait after attempt number `n`, apart from the random share of a jittered policy. -/
def wait (p : RetryPolicy) (n : Nat) : Span :=
  match p.strategy with
  | .exponential | .jitter => p.base.stretch (doubling n)
  | .linear => p.base.stretch (min (n + 1) (Bits.values 32 - 1))

/-- The random share of a wait, less than the base delay. -/
def share (p : RetryPolicy) (draw : Nat) : Duration :=
  if p.delayMs = 0 then 0 else draw % p.delayMs

/-- The wait with `draw`, a random number, spread over one base delay. -/
def waitWith (p : RetryPolicy) (n draw : Nat) : Span :=
  match p.strategy with
  | .jitter => (p.wait n).lengthen (.ofMillis (p.share draw))
  | _ => p.wait n

def delay (p : RetryPolicy) (n : Nat) : Duration := (p.wait n).millis

def delayWith (p : RetryPolicy) (n draw : Nat) : Duration := (p.waitWith n draw).millis

theorem delayWith_eq (p : RetryPolicy) {n : Nat} (other : p.strategy ≠ .jitter) (draw : Nat) :
    p.delayWith n draw = p.delayWith n 0 := by
  cases h : p.strategy with
  | jitter => exact absurd h other
  | exponential | linear => simp [delayWith, waitWith, h]

def decode : Decoder RetryPolicy := .record do
  return {
    attempts := ← .withDefault ["attempts"] 3 (.natBelow 32)
    delayMs := ← .withDefault ["delayMs", "delay"] 1000 (.natBelow 64)
    strategy := ← .withDefault ["strategy"] .exponential Backoff.decode }

def toJson (p : RetryPolicy) : Json :=
  .obj [("attempts", .nat p.attempts), ("delayMs", .nat p.delayMs),
    ("strategy", p.strategy.toJson)]

end RetryPolicy

end ScreenFlow
