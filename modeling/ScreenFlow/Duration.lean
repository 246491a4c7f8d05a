import ScreenFlow.Bits

/-!
# Durations

Times are told in whole milliseconds. Arithmetic on them stops at `Duration.max`, the longest time
that is told apart.

Where they are multiplied and added they are spans: whole seconds, in 64 bits, and the nanoseconds
that are left. Arithmetic carries from the nanoseconds to the seconds. A result whose seconds do not
fit is refused, or replaced by the longest span.
-/

namespace ScreenFlow

abbrev Duration := Nat

namespace Duration

/-- 2^64 - 1 seconds and 999 milliseconds. -/
def max : Duration := (Bits.values 64 - 1) * 1000 + 999

def cap (d : Nat) : Duration := min d Duration.max

/-- The time in its largest whole unit: seconds with the fraction that is left, or milliseconds. -/
def text (d : Duration) : String :=
  if d = 0 then "0ns"
  else if d < 1000 then s!"{d}ms"
  else
    let frac := (toString (1000 + d % 1000)).toList.drop 1
    let frac := (frac.reverse.dropWhile (· == '0')).reverse
    if frac.isEmpty then s!"{d / 1000}s" else s!"{d / 1000}.{String.ofList frac}s"

end Duration

structure Span where
  seconds : Nat
  nanos : Nat
  seconds_lt : seconds < Bits.values 64
  nanos_lt : nanos < 1000000000
deriving DecidableEq, Repr

namespace Span

def nanosPerSecond : Nat := 1000000000

def nanosPerMilli : Nat := 1000000

/-- The longest span. -/
def max : Span := ⟨Bits.values 64 - 1, nanosPerSecond - 1, by decide, by decide⟩

/-- So many seconds and nanoseconds, of which whole seconds are carried over. -/
def ofParts? (seconds nanos : Nat) : Option Span :=
  let whole := seconds + nanos / nanosPerSecond
  if fits : whole < Bits.values 64 then
    some ⟨whole, nanos % nanosPerSecond, fits, Nat.mod_lt _ (by decide)⟩
  else none

def ofMillis (ms : Duration) : Span :=
  (ofParts? (ms / 1000) (nanosPerMilli * (ms % 1000))).getD max

def times? (s : Span) (factor : Nat) : Option Span := do
  let seconds ← Bits.fit? 64 (factor * s.seconds)
  ofParts? seconds (factor * s.nanos)

def plus? (s t : Span) : Option Span := do
  let seconds ← Bits.fit? 64 (s.seconds + t.seconds)
  ofParts? seconds (s.nanos + t.nanos)

/-- So many times the span, or the longest one. -/
def stretch (s : Span) (factor : Nat) : Span := (s.times? factor).getD max

/-- Both spans one after the other, or the longest one. -/
def lengthen (s t : Span) : Span := (s.plus? t).getD max

/-- The whole milliseconds in it. -/
def millis (s : Span) : Duration := 1000 * s.seconds + s.nanos / nanosPerMilli

/-- The nanoseconds count between spans of as many seconds. -/
instance : LE Span where
  le s t := s.seconds < t.seconds ∨ s.seconds = t.seconds ∧ s.nanos ≤ t.nanos

instance (s t : Span) : Decidable (s ≤ t) :=
  inferInstanceAs (Decidable (s.seconds < t.seconds ∨ s.seconds = t.seconds ∧ s.nanos ≤ t.nanos))

instance : Min Span := minOfLe

end Span

end ScreenFlow
