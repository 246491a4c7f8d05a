import Mathlib.Algebra.Order.Field.Power
import Mathlib.Algebra.Order.Ring.Rat
import Mathlib.Data.Rat.Cast.Order
import Mathlib.Tactic.FieldSimp
import Mathlib.Tactic.Linarith
import Mathlib.Tactic.NormNum
import Mathlib.Tactic.Positivity
import Mathlib.Tactic.Ring
import ScreenFlow.Proofs.Json.Numerals

/-!
# The digits of a double identify it

A double is printed with digits that stand for a number in its rounding interval. The intervals of
different doubles have at most an end in common, and an end belongs to one of them only.

* `cmpScaled_iff`: the comparison of decimals with binary fractions is exact;
* `upper_eq_lower_succ`: the interval of a double ends where that of the next one begins;
* `Near.unique`: a number is near to one magnitude only;
* `near_shortest`: the digits stand for a number that is near;
* `toRat_numeral`: the text says the same number as the digits;
* `Number.render_inj`: numbers with the same text are the same.
-/

namespace ScreenFlow

open Json.Reader (Numeral)

namespace Binary64

/-! ### Exact comparisons -/

/-- The number that a decimal stands for. -/
def Decimal.toRat (d : Decimal) : ℚ := d.digits * 10 ^ d.exp

theorem zpow_toNat {b : ℚ} (hb : b ≠ 0) (i : Int) : b ^ i.toNat = b ^ i * b ^ (-i).toNat := by
  rw [← zpow_natCast, ← zpow_natCast, ← zpow_add₀ hb]
  congr 1
  omega

theorem cmpScaled_iff (a : Nat) (i : Int) (n : Nat) (j : Int) :
    (cmpScaled a i n j = .lt ↔ (a : ℚ) * 10 ^ i < n * 2 ^ j) ∧
    (cmpScaled a i n j = .eq ↔ (a : ℚ) * 10 ^ i = n * 2 ^ j) ∧
    (cmpScaled a i n j = .gt ↔ (n : ℚ) * 2 ^ j < a * 10 ^ i) := by
  -- Both sides are compared after they have been multiplied by the same power of ten and of two.
  have scale : (0 : ℚ) < 10 ^ (-i).toNat * 2 ^ (-j).toNat := by positivity
  have left : ((a * Nat.pow 10 i.toNat * Nat.pow 2 (-j).toNat : Nat) : ℚ) =
      a * 10 ^ i * (10 ^ (-i).toNat * 2 ^ (-j).toNat) := by
    simp only [Nat.pow_eq]
    push_cast
    rw [zpow_toNat (by norm_num) i]
    ring
  have right : ((n * Nat.pow 2 j.toNat * Nat.pow 10 (-i).toNat : Nat) : ℚ) =
      n * 2 ^ j * (10 ^ (-i).toNat * 2 ^ (-j).toNat) := by
    simp only [Nat.pow_eq]
    push_cast
    rw [zpow_toNat (by norm_num) j]
    ring
  rw [cmpScaled, Nat.compare_eq_lt, Nat.compare_eq_eq, Nat.compare_eq_gt]
  refine ⟨?_, ?_, ?_⟩
  · rw [← Nat.cast_lt (α := ℚ), left, right, mul_lt_mul_iff_of_pos_right scale]
  · rw [← Nat.cast_inj (R := ℚ), left, right, mul_left_inj' scale.ne']
  · rw [← Nat.cast_lt (α := ℚ), left, right, mul_lt_mul_iff_of_pos_right scale]

/-! ### Rounding intervals -/

namespace Magnitude

variable {x : Magnitude}

/-- Halfway to the magnitude below. -/
def lower (x : Magnitude) : ℚ :=
  (if x.narrowBelow then 4 * x.m - 1 else 4 * x.m - 2 : Nat) * 2 ^ (x.q - 2)

/-- Halfway to the magnitude above. -/
def upper (x : Magnitude) : ℚ := (4 * x.m + 2 : Nat) * 2 ^ (x.q - 2)

/-- The number is rounded to the magnitude; an end of the interval is, if the significand is even. -/
structure Near (x : Magnitude) (v : ℚ) : Prop where
  low : x.lower ≤ v
  high : v ≤ x.upper
  within (odd : x.m % 2 = 1) : x.lower < v ∧ v < x.upper

theorem lower_lt_upper (x : Magnitude) : x.lower < x.upper := by
  have pos : (0 : ℚ) < 2 ^ (x.q - 2) := zpow_pos (by norm_num) _
  refine mul_lt_mul_of_pos_right (Nat.cast_lt.mpr ?_) pos
  split <;> omega

theorem near_of_readsBack {d : Decimal} (h : x.readsBack d = true) : x.Near d.toRat := by
  obtain ⟨-, lowEq, lowGt⟩ := cmpScaled_iff d.digits d.exp
    (if x.narrowBelow then 4 * x.m - 1 else 4 * x.m - 2) (x.q - 2)
  obtain ⟨highLt, highEq, -⟩ := cmpScaled_iff d.digits d.exp (4 * x.m + 2) (x.q - 2)
  simp only [readsBack, Bool.and_eq_true, Bool.or_eq_true, beq_iff_eq, lowEq, lowGt, highEq,
    highLt] at h
  obtain ⟨low, high⟩ := h
  constructor
  · rcases low with above | ⟨-, same⟩
    · exact above.le
    · exact same.ge
  · rcases high with below | ⟨-, same⟩
    · exact below.le
    · exact same.le
  · intro odd
    constructor
    · rcases low with above | ⟨even, -⟩
      · exact above
      · omega
    · rcases high with below | ⟨even, -⟩
      · exact below
      · omega

end Magnitude

/-! ### Magnitudes in order -/

/-- The magnitude with these exponent bits and this fraction. -/
def magnitudeOf (e f : Nat) : Magnitude :=
  if e = 0 then ⟨f, -1074, false⟩
  else ⟨4503599627370496 + f, (e : Int) - 1075, f == 0 && decide (e > 1)⟩

/-- The magnitude of the bits below the sign, which stands in front of 63 bits; 52 of these are the
fraction. -/
def magnitudeAt (n : Nat) : Magnitude :=
  magnitudeOf (n / 4503599627370496) (n % 4503599627370496)

theorem magnitude_eq (bits : UInt64) :
    magnitude bits = magnitudeAt (bits.toNat % 9223372036854775808) := by
  have exponent : ((bits >>> 52) &&& 0x7FF).toNat =
      bits.toNat % 9223372036854775808 / 4503599627370496 := by
    have mask : bits.toNat / 4503599627370496 &&& 2047 = bits.toNat / 4503599627370496 % 2048 :=
      Nat.and_two_pow_sub_one_eq_mod _ 11
    rw [UInt64.toNat_and, UInt64.toNat_shiftRight]
    simp only [UInt64.reduceToNat, Nat.reduceMod, Nat.shiftRight_eq_div_pow, Nat.reducePow, mask]
    omega
  have fraction : (bits &&& 0xFFFFFFFFFFFFF).toNat =
      bits.toNat % 9223372036854775808 % 4503599627370496 := by
    have mask : bits.toNat &&& 4503599627370495 = bits.toNat % 4503599627370496 :=
      Nat.and_two_pow_sub_one_eq_mod _ 52
    rw [UInt64.toNat_and]
    simp only [UInt64.reduceToNat, mask]
    omega
  simp only [magnitude, exponent, fraction, beq_iff_eq]
  rfl

theorem upper_eq_lower_succ (n : Nat) : (magnitudeAt n).upper = (magnitudeAt (n + 1)).lower := by
  obtain ⟨e, f, small, rfl⟩ : ∃ e f, f < 4503599627370496 ∧ n = e * 4503599627370496 + f :=
    ⟨n / 4503599627370496, n % 4503599627370496, Nat.mod_lt _ (by decide), by omega⟩
  have here : magnitudeAt (e * 4503599627370496 + f) = magnitudeOf e f := by
    rw [magnitudeAt]
    congr 1 <;> omega
  rw [here]
  by_cases last : f + 1 = 4503599627370496
  · -- The next magnitude is a power of two, from which on the magnitudes are twice as far apart.
    have next : magnitudeAt (e * 4503599627370496 + f + 1) = magnitudeOf (e + 1) 0 := by
      rw [magnitudeAt]
      congr 1 <;> omega
    obtain rfl : f = 4503599627370495 := by omega
    rw [next]
    by_cases subnormal : e = 0
    · simp [subnormal, magnitudeOf, Magnitude.upper, Magnitude.lower]
    · have wide : (2 : ℚ) ^ ((e : Int) + 1 - 1075 - 2) = 2 * 2 ^ ((e : Int) - 1075 - 2) := by
        rw [← zpow_one_add₀ (by norm_num)]
        congr 1
        omega
      simp only [magnitudeOf, Magnitude.upper, Magnitude.lower, subnormal, Nat.succ_ne_zero,
        ↓reduceIte]
      push_cast
      rw [wide]
      simp [Nat.pos_of_ne_zero subnormal]
      ring
  · have next : magnitudeAt (e * 4503599627370496 + f + 1) = magnitudeOf e (f + 1) := by
      rw [magnitudeAt]
      congr 1 <;> omega
    rw [next]
    by_cases subnormal : e = 0
    · simp only [subnormal, magnitudeOf, Magnitude.upper, Magnitude.lower, ↓reduceIte]
      congr 2
    · simp only [magnitudeOf, Magnitude.upper, Magnitude.lower, subnormal, ↓reduceIte]
      congr 2

theorem upper_le_lower {n n' : Nat} (h : n < n') : (magnitudeAt n).upper ≤ (magnitudeAt n').lower := by
  induction n', h using Nat.le_induction with
  | base => exact (upper_eq_lower_succ n).le
  | succ k _ ih =>
    exact ih.trans ((magnitudeAt k).lower_lt_upper.le.trans (upper_eq_lower_succ k).le)

theorem odd_magnitudeAt (n : Nat) : (magnitudeAt n).m % 2 = n % 2 := by
  rw [magnitudeAt, magnitudeOf]
  split <;> dsimp only <;> omega

/-- A number is near to one magnitude only. -/
theorem Near.unique {n n' : Nat} {v : ℚ} (h : (magnitudeAt n).Near v)
    (h' : (magnitudeAt n').Near v) : n = n' := by
  have apart : ∀ {n n' : Nat}, (magnitudeAt n).Near v → (magnitudeAt n').Near v → ¬ n < n' := by
    intro n n' h h' less
    rcases Nat.lt_or_ge (n + 1) n' with far | close
    · have between := (magnitudeAt (n + 1)).lower_lt_upper
      have := upper_eq_lower_succ n
      have := upper_le_lower far
      have := h.high
      have := h'.low
      linarith
    · obtain rfl : n' = n + 1 := by omega
      -- One of two neighbours is odd, and the common end belongs to the other one.
      have meet := upper_eq_lower_succ n
      rcases Nat.mod_two_eq_zero_or_one n with even | odd
      · have within := h'.within (by rw [odd_magnitudeAt]; omega)
        exact absurd (within.1.trans_le h.high) (meet ▸ lt_irrefl _)
      · have within := h.within (by rw [odd_magnitudeAt]; omega)
        exact absurd (within.2.trans_le' h'.low) (meet ▸ lt_irrefl _)
  exact Nat.le_antisymm (Nat.not_lt.mp (apart h' h)) (Nat.not_lt.mp (apart h h'))

/-! ### The digits -/

namespace Magnitude

/-- The number that the magnitude stands for, in quarters of its unit. -/
theorem toRat_exact (x : Magnitude) : x.exact.toRat = (4 * x.m : Nat) * 2 ^ (x.q - 2) := by
  have quarter : (4 : ℚ) * 2 ^ (x.q - 2) = 2 ^ x.q := by
    rw [zpow_sub₀ (by norm_num)]
    norm_num
    ring
  rw [Nat.cast_mul, Nat.cast_ofNat, mul_right_comm, quarter, exact, Decimal.toRat]
  split
  · rename_i whole
    obtain ⟨k, hk⟩ := Int.eq_ofNat_of_zero_le whole
    simp only [hk, Int.toNat_natCast, Nat.pow_eq, zpow_natCast, zpow_zero]
    push_cast
    ring
  · rename_i broken
    obtain ⟨k, hk⟩ := Int.eq_ofNat_of_zero_le (by omega : 0 ≤ -x.q)
    have back : x.q = -(k : Int) := by omega
    have five : (5 : ℚ) ^ k * 10 ^ (-(k : Int)) = 2 ^ (-(k : Int)) := by
      rw [zpow_neg, zpow_neg, zpow_natCast, zpow_natCast, show (10 : ℚ) = 5 * 2 by norm_num,
        mul_pow]
      field_simp
    simp only [hk, Int.toNat_natCast, Nat.pow_eq]
    push_cast
    rw [back, mul_assoc, five]
    ring

theorem near_exact (x : Magnitude) : x.Near x.exact.toRat := by
  have pos : (0 : ℚ) < 2 ^ (x.q - 2) := zpow_pos (by norm_num) _
  have above : x.exact.toRat < x.upper := by
    rw [toRat_exact, upper]
    exact mul_lt_mul_of_pos_right (Nat.cast_lt.mpr (by omega)) pos
  rw [toRat_exact] at above ⊢
  refine ⟨?_, above.le, fun odd => ⟨?_, above⟩⟩
  · refine mul_le_mul_of_nonneg_right (Nat.cast_le.mpr ?_) pos.le
    split <;> omega
  · refine mul_lt_mul_of_pos_right (Nat.cast_lt.mpr ?_) pos
    split <;> omega

end Magnitude

theorem toRat_strip (d : Decimal) : d.strip.toRat = d.toRat := by
  have go : ∀ fuel (d : Decimal), (Decimal.strip.go fuel d).toRat = d.toRat := by
    intro fuel
    induction fuel with
    | zero => exact fun _ => rfl
    | succ fuel ih =>
      intro d
      simp only [Decimal.strip.go]
      split
      · rename_i tens
        simp only [Bool.and_eq_true, beq_iff_eq] at tens
        have whole : d.digits = d.digits / 10 * 10 := by omega
        have digits : (d.digits : ℚ) = (d.digits / 10 : Nat) * 10 := by exact_mod_cast whole
        rw [ih, Decimal.toRat, Decimal.toRat, digits, zpow_add_one₀ (by norm_num)]
        ring
      · rfl
  exact go 400 d

theorem near_shortest (x : Magnitude) : x.Near x.shortest.toRat := by
  rw [Magnitude.shortest, toRat_strip]
  cases h : (List.range 17).findSome? fun (n : Nat) => x.onGrid? (x.scale - 1 - (n : Int)) with
  | none => exact x.near_exact
  | some d =>
    obtain ⟨n, -, hn⟩ := List.exists_of_findSome?_eq_some h
    exact Magnitude.near_of_readsBack (readsBack_of_onGrid hn)

end Binary64

/-! ### The text -/

namespace Json.Reader.Numeral

/-- The power of ten that the exponent says. -/
def power (n : Numeral) : Int :=
  n.exponent.elim 0 fun e =>
    if e.1 then -(Nat.ofDigitChars 10 e.2 0 : Int) else Nat.ofDigitChars 10 e.2 0

/-- The number that a numeral stands for, without its sign. -/
def toRat (n : Numeral) : ℚ :=
  Nat.ofDigitChars 10 (n.whole ++ n.fraction) 0 * 10 ^ (n.power - (n.fraction.length : Int))

end Json.Reader.Numeral

namespace Binary64

/-- Zeros around the digits of a decimal do not matter, if the point is moved accordingly. -/
theorem toRat_padded {n : Numeral} {d : Decimal} (leading trailing : Nat)
    (digits : n.whole ++ n.fraction = List.replicate leading '0' ++
      (Nat.toDigits 10 d.digits ++ List.replicate trailing '0'))
    (point : trailing + (n.power - (n.fraction.length : Int)) = d.exp) : n.toRat = d.toRat := by
  rw [Numeral.toRat, digits, Nat.ofDigitChars_append, Nat.ofDigitChars_replicate_zero, Nat.mul_zero,
    Nat.ofDigitChars_append, Nat.ofDigitChars_ten_toDigits, Nat.ofDigitChars_replicate_zero,
    Decimal.toRat, ← point, zpow_add₀ (by norm_num), zpow_natCast]
  push_cast
  ring

theorem toRat_numeral (d : Decimal) : d.numeral.toRat = d.toRat := by
  simp only [Decimal.numeral]
  generalize hds : Nat.toDigits 10 d.digits = ds
  have some : 0 < ds.length := hds ▸ List.length_pos_of_ne_nil Nat.toDigits_ne_nil
  split
  · rename_i near
    generalize hw : (d.exp + ds.length - 1).toNat + 1 = w
    by_cases short : ds.length ≤ w
    · refine toRat_padded 0 (w - ds.length + 1) ?_ ?_
      · simp [List.drop_of_length_le short, List.take_of_length_le short, hds,
          List.replicate_succ', List.append_assoc]
      · simp only [Numeral.power, Option.elim_none, List.drop_of_length_le short,
          List.isEmpty_nil, ↓reduceIte, List.length_singleton]
        omega
    · have cut : (ds.drop w).isEmpty = false := by simpa using Nat.not_le.mp short
      refine toRat_padded 0 0 ?_ ?_
      · simp [cut, hds, Nat.sub_eq_zero_of_le (Nat.le_of_not_le short)]
      · simp only [Numeral.power, Option.elim_none, cut, Bool.false_eq_true, ↓reduceIte,
          List.length_drop]
        omega
  · split
    · rename_i small
      generalize hz : (-(d.exp + ds.length - 1)).toNat - 1 = zeros
      refine toRat_padded (zeros + 1) 0 ?_ ?_
      · simp [hds, List.replicate_succ]
      · simp only [Numeral.power, Option.elim_none, List.length_append, List.length_replicate]
        omega
    · refine toRat_padded 0 0 ?_ ?_
      · simp only [List.take_append_drop, List.replicate_zero, List.nil_append, List.append_nil, hds]
      · simp only [Numeral.power, Option.elim_some, decide_eq_true_eq,
          Nat.ofDigitChars_ten_toDigits, List.length_drop]
        split <;> omega

/-- The text of a double says a number that is near to it. -/
theorem near_unsigned (bits : UInt64) : (magnitude bits).Near (unsigned bits).toRat := by
  unfold unsigned
  split
  · rename_i zero
    have zero : (magnitude bits).m = 0 := by simpa using zero
    have value : (⟨false, ['0'], ['0'], none⟩ : Numeral).toRat = 0 := by
      simp [Numeral.toRat, Nat.ofDigitChars]
    have pos : (0 : ℚ) < 2 ^ ((magnitude bits).q - 2) := zpow_pos (by norm_num) _
    rw [value]
    refine ⟨?_, ?_, fun odd => by omega⟩
    · simp [Magnitude.lower, zero]
    · exact mul_nonneg (Nat.cast_nonneg _) pos.le
  · rw [toRat_numeral]
    exact near_shortest _

/-- A double has a point or an exponent in its text, other than a whole number. -/
theorem unsigned_broken (bits : UInt64) :
    (unsigned bits).fraction ≠ [] ∨ (unsigned bits).exponent ≠ none := by
  unfold unsigned
  split
  · exact .inl (List.cons_ne_nil _ _)
  · simp only [Decimal.numeral]
    split
    · refine .inl ?_
      dsimp only
      split
      · exact List.cons_ne_nil _ _
      · rename_i some
        exact fun none => some (by rw [none]; rfl)
    · split
      · exact .inl (by simp [Nat.toDigits_ne_nil])
      · exact .inr (Option.some_ne_none _)

theorem eq_of_bits {bits bits' : UInt64} (sign : isNegative bits = isNegative bits')
    (rest : bits.toNat % 9223372036854775808 = bits'.toNat % 9223372036854775808) :
    bits = bits' := by
  have negative (b : UInt64) : isNegative b = decide (b.toNat / 9223372036854775808 = 1) := by
    have shifted : (b >>> 63).toNat = b.toNat / 9223372036854775808 := by
      rw [UInt64.toNat_shiftRight]
      simp only [UInt64.reduceToNat, Nat.reduceMod, Nat.shiftRight_eq_div_pow, Nat.reducePow]
    rw [isNegative, beq_eq_decide, decide_eq_decide, ← UInt64.toNat_inj, shifted]
    rfl
  rw [negative, negative, decide_eq_decide] at sign
  have small := bits.toNat_lt
  have small' := bits'.toNat_lt
  refine UInt64.toNat_inj.mp ?_
  omega

end Binary64

/-- A well-formed numeral is told by its text. -/
theorem Json.Reader.Numeral.WellFormed.eq_of_text {n n' : Numeral} (wf : n.WellFormed)
    (wf' : n'.WellFormed) (same : n.text = n'.text) : n = n' := by
  have read := numeral_text wf closes_nil
  rw [same, numeral_text wf' closes_nil] at read
  exact (Prod.mk.inj (Except.ok.inj read)).1.symm

/-- A number is told by its text. -/
theorem Number.render_inj {n n' : Number} (same : n.render = n'.render) : n = n' := by
  have numerals : n.numeral = n'.numeral := by
    refine n.wellFormed_numeral.eq_of_text n'.wellFormed_numeral ?_
    rw [← n.render_eq, ← n'.render_eq, same]
  have whole (i : Int) (bits : UInt64) : (int i).numeral ≠ (double bits).numeral := by
    intro h
    obtain ⟨-, -, fraction, exponent⟩ := Json.Reader.Numeral.mk.inj h
    rcases Binary64.unsigned_broken bits with broken | broken
    · exact broken fraction.symm
    · exact broken exponent.symm
  cases n with
  | int i =>
    cases n' with
    | double bits => exact absurd numerals (whole i bits)
    | int j =>
      obtain ⟨sign, digits, -, -⟩ := Json.Reader.Numeral.mk.inj numerals
      have size : i.natAbs = j.natAbs := by
        rw [← Nat.ofDigitChars_ten_toDigits (n := i.natAbs), digits, Nat.ofDigitChars_ten_toDigits]
      rw [decide_eq_decide] at sign
      congr 1
      omega
  | double bits =>
    cases n' with
    | int j => exact absurd numerals.symm (whole j bits)
    | double bits' =>
      obtain ⟨sign, whole, fraction, exponent⟩ := Json.Reader.Numeral.mk.inj numerals
      have near := Binary64.near_unsigned bits
      have near' := Binary64.near_unsigned bits'
      have value : (Binary64.unsigned bits).toRat = (Binary64.unsigned bits').toRat := by
        rw [Numeral.toRat, Numeral.toRat, Numeral.power, Numeral.power, whole, fraction, exponent]
      rw [Binary64.magnitude_eq] at near near'
      exact congrArg double (Binary64.eq_of_bits sign (Binary64.Near.unique (value ▸ near) near'))

end ScreenFlow
