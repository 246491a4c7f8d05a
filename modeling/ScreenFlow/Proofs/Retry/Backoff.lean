import Mathlib.Algebra.Group.Nat.Defs
import ScreenFlow.Execute.Settings

/-!
# How long to wait

Waits are computed with seconds and nanoseconds of fixed width, and with a factor whose exponent
stops at 31. They come out as whole numbers without bounds would give them, cut at the longest span.

* `Span.total`: a span as one number; `total_times?`, `total_plus?`: arithmetic on spans is that on
  numbers as long as there is a span for the result;
* `total_stretch`, `total_lengthen`: what is too long becomes the longest span;
* `RetryPolicy.total_wait`, `RetryPolicy.delay_eq`: the wait after an attempt;
* `ExecuteSettings.total_reconnectWait`: the wait before a reconnection;
* `waits_exact`: all waits are those of the unbounded formulas.
-/

namespace ScreenFlow

namespace Span

variable {s t : Span} {seconds nanos ms factor n : Nat}

/-! ### Spans as numbers -/

/-- All of a span in nanoseconds. -/
def total (s : Span) : Nat := s.seconds * nanosPerSecond + s.nanos

theorem total_max : max.total = (2 ^ 64 - 1) * 1000000000 + 999999999 := rfl

theorem total_le_max (s : Span) : s.total ≤ max.total := by
  have seconds : s.seconds < 2 ^ 64 := s.seconds_lt
  have nanos := s.nanos_lt
  rw [total_max, total, nanosPerSecond]
  omega

theorem le_iff : s ≤ t ↔ s.total ≤ t.total := by
  have hs := s.nanos_lt
  have ht := t.nanos_lt
  change s.seconds < t.seconds ∨ s.seconds = t.seconds ∧ s.nanos ≤ t.nanos ↔ _
  simp only [total, nanosPerSecond]
  omega

theorem total_min : (min s t).total = min s.total t.total := by
  change (if s ≤ t then s else t).total = _
  split
  · rename_i le
    rw [Nat.min_eq_left (le_iff.mp le)]
  · rename_i gt
    rw [le_iff, Nat.not_le] at gt
    rw [Nat.min_eq_right (Nat.le_of_lt gt)]

/-- Milliseconds drop what is left of the nanoseconds. -/
theorem millis_eq : s.millis = s.total / nanosPerMilli := by
  change 1000 * s.seconds + s.nanos / 1000000 = (s.seconds * 1000000000 + s.nanos) / 1000000
  omega

/-! ### Arithmetic -/

/-- A number of nanoseconds, if there is a span with as many. -/
def counted? (n : Nat) : Option Nat := if n ≤ max.total then some n else none

theorem total_ofParts? :
    (ofParts? seconds nanos).map total = counted? (seconds * nanosPerSecond + nanos) := by
  have bound : Bits.values 64 = 2 ^ 64 := rfl
  by_cases fits : seconds + nanos / nanosPerSecond < Bits.values 64
  · have whole : (seconds + nanos / nanosPerSecond) * nanosPerSecond + nanos % nanosPerSecond =
        seconds * nanosPerSecond + nanos := by
      simp only [nanosPerSecond]
      omega
    rw [ofParts?, dif_pos fits, Option.map_some, total, whole, counted?, if_pos]
    simp only [total_max, nanosPerSecond, bound] at fits ⊢
    omega
  · rw [ofParts?, dif_neg fits, Option.map_none, counted?, if_neg]
    simp only [total_max, nanosPerSecond, bound] at fits ⊢
    omega

/-- Seconds that do not fit are too many already without those that the nanoseconds make. -/
theorem total_fit? :
    ((Bits.fit? 64 seconds).bind (ofParts? · nanos)).map total =
      counted? (seconds * nanosPerSecond + nanos) := by
  have bound : Bits.values 64 = 2 ^ 64 := rfl
  rw [Bits.fit?]
  split
  · rw [Option.bind_some, total_ofParts?]
  · rw [Option.bind_none, Option.map_none, counted?, total_max, nanosPerSecond, if_neg (by omega)]

theorem total_times? : (s.times? factor).map total = counted? (s.total * factor) := by
  have whole : factor * s.seconds * nanosPerSecond + factor * s.nanos = s.total * factor := by
    rw [Nat.mul_assoc, ← Nat.mul_add, Nat.mul_comm]
    rfl
  rw [← whole]
  exact total_fit?

theorem total_plus? : (s.plus? t).map total = counted? (s.total + t.total) := by
  have whole : (s.seconds + t.seconds) * nanosPerSecond + (s.nanos + t.nanos) =
      s.total + t.total := by
    simp only [total, nanosPerSecond]
    omega
  rw [← whole]
  exact total_fit?

theorem total_getD {found : Option Span} (h : found.map total = counted? n) :
    (found.getD max).total = min n max.total := by
  unfold counted? at h
  cases found with
  | none =>
    split at h
    · cases h
    · rename_i above
      exact (Nat.min_eq_right (Nat.le_of_not_le above)).symm
  | some s =>
    split at h
    · rename_i below
      rw [Nat.min_eq_left below]
      exact Option.some.inj h
    · cases h

theorem total_ofMillis : (ofMillis ms).total = min (ms * nanosPerMilli) max.total := by
  have whole : ms / 1000 * nanosPerSecond + nanosPerMilli * (ms % 1000) = ms * nanosPerMilli := by
    simp only [nanosPerSecond, nanosPerMilli]
    omega
  rw [← whole]
  exact total_getD total_ofParts?

theorem total_stretch : (s.stretch factor).total = min (s.total * factor) max.total :=
  total_getD total_times?

theorem total_lengthen : (s.lengthen t).total = min (s.total + t.total) max.total :=
  total_getD total_plus?

/-- To cut before stretching makes no difference. -/
theorem min_mul_min (n : Nat) (pos : 0 < factor) (top : Nat) :
    min (min n top * factor) top = min (n * factor) top := by
  rcases Nat.le_total n top with below | above
  · rw [Nat.min_eq_left below]
  · have longer : top ≤ top * factor := Nat.le_mul_of_pos_right top pos
    rw [Nat.min_eq_right above, Nat.min_eq_right longer,
      Nat.min_eq_right (Nat.le_trans longer (Nat.mul_le_mul_right factor above))]

theorem total_stretch_ofMillis (pos : 0 < factor) :
    ((ofMillis ms).stretch factor).total = min (ms * nanosPerMilli * factor) max.total := by
  rw [total_stretch, total_ofMillis, min_mul_min _ pos]

end Span

namespace RetryPolicy

variable {p : RetryPolicy} {n m draw : Nat}

/-! ### Waits after attempts -/

/-- The factor never reaches the bound of its own width. -/
theorem doubling_eq (n : Nat) : doubling n = 2 ^ min n 31 := by
  have small : 2 ^ min n 31 ≤ 2 ^ 31 := Nat.pow_le_pow_right (by decide) (Nat.min_le_right n 31)
  have bound : Bits.values 32 - 1 = 2 ^ 32 - 1 := rfl
  rw [doubling, bound]
  exact Nat.min_eq_left (Nat.le_trans small (by decide))

/-- By how much a strategy stretches the base delay after attempt `n`, apart from a random share. -/
def factor (b : Backoff) (n : Nat) : Nat :=
  match b with
  | .exponential | .jitter => 2 ^ min n 31
  | .linear => min (n + 1) (2 ^ 32 - 1)

theorem factor_pos (b : Backoff) (n : Nat) : 0 < factor b n := by
  cases b with
  | exponential | jitter => exact Nat.two_pow_pos _
  | linear => exact Nat.lt_min.mpr ⟨Nat.succ_pos n, by decide⟩

theorem factor_le_factor (b : Backoff) (h : n ≤ m) : factor b n ≤ factor b m := by
  cases b with
  | exponential | jitter =>
    refine Nat.pow_le_pow_right (by decide) ?_
    omega
  | linear =>
    simp only [factor]
    omega

/-- The base delay in nanoseconds. -/
def baseNanos (p : RetryPolicy) : Nat := p.delayMs * Span.nanosPerMilli

theorem total_wait (p : RetryPolicy) (n : Nat) :
    (p.wait n).total = min (p.baseNanos * factor p.strategy n) Span.max.total := by
  have pos := factor_pos p.strategy n
  unfold wait
  cases h : p.strategy with
  | exponential | jitter =>
    rw [h] at pos
    rw [doubling_eq]
    exact Span.total_stretch_ofMillis pos
  | linear =>
    rw [h] at pos
    exact Span.total_stretch_ofMillis pos

theorem waitWith_of_ne (other : p.strategy ≠ .jitter) (n draw : Nat) :
    p.waitWith n draw = p.wait n := by
  unfold waitWith
  split
  · rename_i jitter
    exact absurd jitter other
  · rfl

/-- In whole milliseconds. -/
theorem delay_eq (p : RetryPolicy) (n : Nat) :
    p.delay n = Duration.cap (p.delayMs * factor p.strategy n) := by
  have longest : Span.max.total / Span.nanosPerMilli = Duration.max := rfl
  have cut (a b : Nat) : min a b / Span.nanosPerMilli =
      min (a / Span.nanosPerMilli) (b / Span.nanosPerMilli) := by
    simp only [Span.nanosPerMilli]
    omega
  rw [delay, Span.millis_eq, total_wait, cut, longest, baseNanos, Nat.mul_right_comm,
    Nat.mul_div_cancel _ (by decide), Duration.cap]

theorem share_lt (pos : 0 < p.delayMs) (draw : Nat) : p.share draw < p.delayMs := by
  rw [share, if_neg (Nat.ne_of_gt pos)]
  exact Nat.mod_lt draw pos

/-- Where there is room for all of it, a jittered wait is longer by the share that was drawn. -/
theorem total_waitWith_jitter (jitter : p.strategy = .jitter)
    (room : (p.wait n).total + p.baseNanos ≤ Span.max.total) :
    (p.waitWith n draw).total = (p.wait n).total + p.share draw * Span.nanosPerMilli := by
  have within : p.share draw * Span.nanosPerMilli ≤ p.baseNanos := by
    refine Nat.mul_le_mul_right _ ?_
    rcases Nat.eq_zero_or_pos p.delayMs with zero | pos
    · simp [share, zero]
    · exact Nat.le_of_lt (share_lt pos draw)
  have extended : p.waitWith n draw = (p.wait n).lengthen (.ofMillis (p.share draw)) := by
    simp only [waitWith, jitter]
  have fits := Nat.le_trans (Nat.add_le_add_left within _) room
  rw [extended, Span.total_lengthen, Span.total_ofMillis,
    Nat.min_eq_left (Nat.le_trans (Nat.le_add_left _ _) fits), Nat.min_eq_left fits]

/-- The wait that the policy would have if its delays only doubled. -/
def doubled (p : RetryPolicy) (n : Nat) : Nat :=
  ({ p with strategy := .exponential }.waitWith n 0).total

theorem doubled_eq (jitter : p.strategy = .jitter) (n : Nat) : p.doubled n = (p.wait n).total := by
  rw [doubled, waitWith_of_ne (by simp), total_wait, total_wait, jitter]
  simp only [factor, baseNanos]

/-- The waits of a policy as numbers without bounds give them. -/
structure WaitsExactly (p : RetryPolicy) : Prop where
  exponential : p.strategy = .exponential → ∀ n draw,
    (p.waitWith n draw).total = min (p.baseNanos * 2 ^ min n 31) Span.max.total
  linear : p.strategy = .linear → ∀ n draw,
    (p.waitWith n draw).total = min (p.baseNanos * min (n + 1) (2 ^ 32 - 1)) Span.max.total
  /-- Up to attempt 31 nothing is cut from the exponent. -/
  early : ∀ n ≤ 31, ∀ draw,
    (p.strategy = .exponential →
      (p.waitWith n draw).total = min (p.baseNanos * 2 ^ n) Span.max.total) ∧
    (p.strategy = .linear →
      (p.waitWith n draw).total = min (p.baseNanos * (n + 1)) Span.max.total)
  grows : p.strategy ≠ .jitter → ∀ n m draw draw', n ≤ m → p.waitWith n draw ≤ p.waitWith m draw'
  /-- A jittered wait lies less than one base delay above the exponential one. -/
  jitter : p.strategy = .jitter → ∀ n draw,
    p.doubled n + p.baseNanos ≤ Span.max.total →
      (p.delayMs = 0 → (p.waitWith n draw).total = p.doubled n) ∧
      (p.delayMs ≠ 0 → p.doubled n ≤ (p.waitWith n draw).total ∧
        (p.waitWith n draw).total < p.doubled n + p.baseNanos)

theorem waitsExactly (p : RetryPolicy) : p.WaitsExactly where
  exponential kind n draw := by
    rw [waitWith_of_ne (by simp [kind]), total_wait, kind, factor]
  linear kind n draw := by
    rw [waitWith_of_ne (by simp [kind]), total_wait, kind, factor]
  early n small draw := by
    constructor
    · intro kind
      rw [waitWith_of_ne (by simp [kind]), total_wait, kind, factor, Nat.min_eq_left small]
    · intro kind
      rw [waitWith_of_ne (by simp [kind]), total_wait, kind, factor,
        Nat.min_eq_left (show n + 1 ≤ 2 ^ 32 - 1 by omega)]
  grows kind n m draw draw' h := by
    have stretched := Nat.mul_le_mul_left p.baseNanos (factor_le_factor p.strategy h)
    rw [waitWith_of_ne kind, waitWith_of_ne kind, Span.le_iff, total_wait, total_wait]
    omega
  jitter kind n draw room := by
    rw [doubled_eq kind] at room ⊢
    rw [total_waitWith_jitter kind room]
    constructor
    · intro zero
      rw [share, if_pos zero, Nat.zero_mul, Nat.add_zero]
    · intro nonzero
      have less : p.share draw * Span.nanosPerMilli < p.baseNanos :=
        Nat.mul_lt_mul_of_pos_right (share_lt (Nat.pos_of_ne_zero nonzero) draw) (by decide)
      exact ⟨Nat.le_add_right _ _, Nat.add_lt_add_left less _⟩

end RetryPolicy

namespace ExecuteSettings

variable {base longest : Span} {n : Nat}

/-! ### Waits before reconnections -/

theorem total_reconnectWait :
    (reconnectWait base longest n).total = min (base.total * 2 ^ min n 31) longest.total := by
  have counted : (base.times? (RetryPolicy.doubling n)).map Span.total =
      Span.counted? (base.total * 2 ^ min n 31) := by
    rw [Span.total_times?, RetryPolicy.doubling_eq]
  unfold Span.counted? at counted
  unfold reconnectWait
  split
  · rename_i wait found
    rw [found] at counted
    split at counted
    · rw [Span.total_min, Option.some.inj counted]
    · cases counted
  · rename_i found
    rw [found] at counted
    split at counted
    · cases counted
    · rename_i above
      have longer := Nat.le_of_lt (Nat.lt_of_not_le above)
      exact (Nat.min_eq_right (Nat.le_trans longest.total_le_max longer)).symm

/-- The exponent stops only where the longest wait is reached already. -/
theorem total_reconnectWait_unbounded {ms : Nat} (whole : base.total = ms * Span.nanosPerMilli)
    (short : longest.total ≤ 2 ^ 31 * Span.nanosPerMilli) (n : Nat) :
    (reconnectWait base longest n).total = min (base.total * 2 ^ n) longest.total := by
  rw [total_reconnectWait]
  rcases Nat.le_total n 31 with small | large
  · rw [Nat.min_eq_left small]
  rw [Nat.min_eq_right large]
  rcases Nat.eq_zero_or_pos ms with rfl | pos
  · rw [whole, Nat.zero_mul, Nat.zero_mul, Nat.zero_mul]
  · have milli : Span.nanosPerMilli ≤ base.total := by
      rw [whole]
      exact Nat.le_mul_of_pos_left _ pos
    have reached : longest.total ≤ base.total * 2 ^ 31 := by
      rw [Nat.mul_comm] at short
      exact Nat.le_trans short (Nat.mul_le_mul_right _ milli)
    have further : base.total * 2 ^ 31 ≤ base.total * 2 ^ n :=
      Nat.mul_le_mul_left _ (Nat.pow_le_pow_right (by decide) large)
    rw [Nat.min_eq_right reached, Nat.min_eq_right (Nat.le_trans reached further)]

end ExecuteSettings

/-- Every wait is what its formula gives in numbers without bounds, cut at the longest span: after an
attempt under any policy, and before a reconnection as long as the longest wait is at most 2^31
milliseconds. -/
theorem waits_exact :
    (∀ p : RetryPolicy, p.WaitsExactly) ∧
      ∀ (base longest : Span) (ms : Nat), base.total = ms * Span.nanosPerMilli →
        longest.total ≤ 2 ^ 31 * Span.nanosPerMilli → ∀ n,
          (ExecuteSettings.reconnectWait base longest n).total =
            min (base.total * 2 ^ n) longest.total :=
  ⟨RetryPolicy.waitsExactly, fun _ _ _ whole short =>
    ExecuteSettings.total_reconnectWait_unbounded whole short⟩

/-- Behind the last exponent, and with a wait that just reaches the longest one. -/
theorem waits_exact_at_stop :
    (Span.ofMillis 1).total = 1 * Span.nanosPerMilli ∧
      (Span.ofMillis (2 ^ 31)).total ≤ 2 ^ 31 * Span.nanosPerMilli ∧
      (ExecuteSettings.reconnectWait (.ofMillis 1) (.ofMillis (2 ^ 31)) 32).total =
        min ((Span.ofMillis 1).total * 2 ^ 32) (Span.ofMillis (2 ^ 31)).total := by
  have whole : (Span.ofMillis 1).total = 1 * Span.nanosPerMilli := by decide
  have short : (Span.ofMillis (2 ^ 31)).total ≤ 2 ^ 31 * Span.nanosPerMilli := by decide
  exact ⟨whole, short, waits_exact.2 _ _ 1 whole short 32⟩

end ScreenFlow
