import ScreenFlow.Json.Reader

/-!
# Numbers are written as numerals

Whatever number is printed, its text is a numeral, and the reader finds the same numeral again.

* `Number.render_eq`: the text of a number is that of a well-formed numeral;
* `numeral_text`: a well-formed numeral is read up to its end;
* `scalar_number`: the text of a number is read as `Number.reread` of it.
-/

namespace ScreenFlow.Json.Reader

/-- What may stand behind a value: nothing, or what separates and closes, or the end of the line. -/
def Closes (rest : Input) : Prop :=
  ∀ c ∈ rest.head?, c = some ',' ∨ c = some ']' ∨ c = some '}' ∨ c = some '\n'

theorem closes_nil : Closes [] := by simp [Closes]

@[simp] theorem closes_cons {c : Option Char} {rest : Input} :
    Closes (c :: rest) ↔ c = some ',' ∨ c = some ']' ∨ c = some '}' ∨ c = some '\n' := by
  simp [Closes]

/-! ### Digits -/

theorem digits_append {ds : List Char} {rest : Input} (hds : ∀ c ∈ ds, c.isDigit)
    (hrest : ∀ c ∈ rest.head?, isDigit c = false) : digits (ds.map some ++ rest) = (ds, rest) := by
  have all : ∀ c ∈ ds.map some, isDigit c = true := by simpa [isDigit] using hds
  have stop : rest.takeWhile isDigit = [] ∧ rest.dropWhile isDigit = rest := by
    cases rest with
    | nil => simp
    | cons c rest => simp [hrest c rfl]
  simp [digits, List.takeWhile_append_of_pos all, List.dropWhile_append_of_pos all, stop]

theorem Closes.not_digit {rest : Input} (h : Closes rest) :
    ∀ c ∈ rest.head?, isDigit c = false := by
  intro c hc
  rcases h c hc with rfl | rfl | rfl | rfl <;> rfl

namespace Numeral

/-- How a numeral is written. -/
def text (n : Numeral) : List Char :=
  (if n.negative then ['-'] else []) ++ n.whole ++
    (if n.fraction = [] then [] else '.' :: n.fraction) ++
    n.exponent.elim [] fun e => 'e' :: (if e.1 then '-' else '+') :: e.2

structure WellFormed (n : Numeral) : Prop where
  whole_digits : ∀ c ∈ n.whole, c.isDigit
  whole_ne : n.whole ≠ []
  no_zero : n.whole.head? = some '0' → n.whole.length = 1
  fraction_digits : ∀ c ∈ n.fraction, c.isDigit
  exponent_digits : ∀ e ∈ n.exponent, e.2 ≠ [] ∧ ∀ c ∈ e.2, c.isDigit

end Numeral

theorem exponentPart_text {e : Option (Bool × List Char)} {rest : Input}
    (he : ∀ e' ∈ e, e'.2 ≠ [] ∧ ∀ c ∈ e'.2, c.isDigit) (hrest : Closes rest) :
    numeral.exponentPart
      ((e.elim [] fun e => 'e' :: (if e.1 then '-' else '+') :: e.2).map some ++ rest) =
        .ok (e, rest) := by
  cases e with
  | none =>
    cases rest with
    | nil => rfl
    | cons c rest => 
      rcases closes_cons.mp hrest with rfl | rfl | rfl | rfl <;> rfl
  | some e =>
    obtain ⟨minus, ds⟩ := e
    obtain ⟨hne, hds⟩ := he _ rfl
    have read := digits_append hds hrest.not_digit
    cases minus <;> simp [numeral.exponentPart, read, hne]

theorem not_digit_of_exponent {e : Option (Bool × List Char)} {rest : Input}
    (hrest : Closes rest) :
    ∀ c ∈ ((e.elim [] fun e => 'e' :: (if e.1 then '-' else '+') :: e.2).map some ++ rest).head?,
      isDigit c = false ∧ c ≠ some '.' := by
  cases e with
  | none =>
    intro c hc
    rcases hrest c hc with rfl | rfl | rfl | rfl <;> decide
  | some e => simp [isDigit]

/-- The sign is told from the first character. -/
theorem numeral_sign {negative : Bool} {ds : List Char} {rest : Input}
    (hds : ∀ c ∈ ds, c.isDigit) (hne : ds ≠ []) : ∀ cs : Input,
    cs = (if negative then [some '-'] else []) ++ (ds.map some ++ rest) →
    (match cs with
      | some '-' :: rest => (true, rest)
      | _ => (false, cs)) = (negative, ds.map some ++ rest) := by
  rintro _ rfl
  cases negative with
  | true => rfl
  | false =>
    obtain ⟨d, ds, rfl⟩ := List.exists_cons_of_ne_nil hne
    have : d ≠ '-' := by
      rintro rfl
      simpa using hds '-' (by simp)
    simp only [Bool.false_eq_true, ↓reduceIte, List.map_cons, List.cons_append, List.nil_append]
    split
    · rename_i h
      exact absurd (Option.some.inj (List.cons.inj h).1) this
    · rfl

theorem numeral_text {n : Numeral} (wf : n.WellFormed) {rest : Input} (hrest : Closes rest) :
    numeral (n.text.map some ++ rest) = .ok (n, rest) := by
  obtain ⟨negative, whole, fraction, exponent⟩ := n
  obtain ⟨hwhole, hne, hzero, hfraction, hexponent⟩ := wf
  dsimp only at hwhole hne hzero hfraction hexponent
  have hexp := exponentPart_text hexponent hrest
  have hstop := not_digit_of_exponent (e := exponent) hrest
  have hw : (whole.isEmpty || (whole.head? == some '0' && decide (whole.length > 1))) = false := by
    have : whole.isEmpty = false := by simpa using hne
    by_cases h : whole.head? = some '0'
    · simp [this, h, hzero h]
    · simp [this, h]
  have hsign : (if negative then ['-'] else []).map some = if negative then [some '-'] else [] := by
    cases negative <;> rfl
  simp only [Numeral.text, List.map_append, List.append_assoc, hsign]
  generalize (exponent.elim [] fun e =>
    'e' :: (if e.1 then '-' else '+') :: e.2).map some ++ rest = tail at hexp hstop ⊢
  unfold numeral
  split
  rename_i heq
  obtain ⟨rfl, rfl⟩ := Prod.mk.inj ((numeral_sign hwhole hne _ rfl).symm.trans heq)
  by_cases hf : fraction = []
  · subst hf
    have hd := digits_append hwhole fun c hc => (hstop c hc).1
    simp only [↓reduceIte, List.map_nil, List.nil_append, hd, hw, Bool.false_eq_true]
    split
    · exact absurd rfl (hstop _ rfl).2
    · simp [hexp, bind, Except.bind, pure, Except.pure]
  · have hd : digits (whole.map some ++ some '.' :: (fraction.map some ++ tail)) = _ :=
      digits_append hwhole (by simp [isDigit])
    have hd' := digits_append hfraction fun c hc => (hstop c hc).1
    simp [hf, hd, hd', hw, hexp, bind, Except.bind, pure, Except.pure]

end ScreenFlow.Json.Reader

/-! ### The texts of numbers -/

namespace ScreenFlow

open Json.Reader (Numeral)

theorem toString_toList (n : Nat) : (toString n).toList = Nat.toDigits 10 n := by
  rw [Nat.toString_eq_repr, Nat.toList_repr]

theorem toDigits_digit {n : Nat} : ∀ c ∈ Nat.toDigits 10 n, c.isDigit :=
  fun _ hc => Nat.isDigit_of_mem_toDigits (by decide) (by decide) hc

/-- Only zero begins with a zero. -/
theorem head_toDigits {n : Nat} (h : (Nat.toDigits 10 n).head? = some '0') : n = 0 := by
  induction n using Nat.strongRecOn with
  | _ n ih =>
    by_cases hn : n < 10
    · simpa [Nat.toDigits_of_lt_base hn] using h
    · obtain ⟨d, ds, hds⟩ :=
        List.exists_cons_of_ne_nil (Nat.toDigits_ne_nil (n := n / 10) (b := 10))
      rw [Nat.toDigits_of_base_le (by decide) (by omega), hds] at h
      have := ih (n / 10) (by omega) (by simpa [hds] using h)
      omega

namespace Binary64

/-- Zero lies below every value but zero. -/
theorem cmpScaled_zero {i j : Int} {n : Nat} (hn : 0 < n) : cmpScaled 0 i n j = .lt := by
  have : 0 < n * Nat.pow 2 j.toNat * Nat.pow 10 (-i).toNat :=
    Nat.mul_pos (Nat.mul_pos hn (Nat.pow_pos (by decide))) (Nat.pow_pos (by decide))
  simpa [cmpScaled, Nat.compare_eq_lt] using this

theorem readsBack_pos {x : Magnitude} {d : Decimal} (hx : x.m ≠ 0) (h : x.readsBack d = true) :
    d.digits ≠ 0 := by
  intro hd
  have low : 0 < if x.narrowBelow then 4 * x.m - 1 else 4 * x.m - 2 := by split <;> omega
  simp [Magnitude.readsBack, hd, cmpScaled_zero low] at h

theorem readsBack_of_onGrid {x : Magnitude} {e : Int} {d : Decimal} (h : x.onGrid? e = some d) :
    x.readsBack d = true := by
  have back : ∀ d' : Decimal, x.readsBack d' = true → some d' = some d → x.readsBack d = true := by
    rintro d' hd' ⟨⟩
    exact hd'
  simp only [Magnitude.onGrid?] at h
  split at h
  · rename_i both
    rw [Bool.and_eq_true] at both
    split at h
    · exact back _ both.1 h
    · exact back _ both.2 h
    · split at h
      · exact back _ both.1 h
      · exact back _ both.2 h
  · split at h
    · exact back _ ‹_› h
    · split at h
      · exact back _ ‹_› h
      · cases h

theorem strip_pos {d : Decimal} (hd : d.digits ≠ 0) : d.strip.digits ≠ 0 := by
  have go : ∀ fuel (d : Decimal), d.digits ≠ 0 → (Decimal.strip.go fuel d).digits ≠ 0 := by
    intro fuel
    induction fuel with
    | zero => exact fun _ h => h
    | succ fuel ih =>
      intro d h
      simp only [Decimal.strip.go]
      split
      · rename_i tens
        simp only [Bool.and_eq_true, beq_iff_eq] at tens
        exact ih _ (by dsimp only; omega)
      · exact h
  exact go 400 d hd

theorem exact_pos {x : Magnitude} (hx : x.m ≠ 0) : x.exact.digits ≠ 0 := by
  simp only [Magnitude.exact]
  split <;> exact Nat.ne_of_gt (Nat.mul_pos (by omega) (Nat.pow_pos (by decide)))

theorem shortest_pos {x : Magnitude} (hx : x.m ≠ 0) : x.shortest.digits ≠ 0 := by
  refine strip_pos ?_
  cases h : (List.range 17).findSome? fun (n : Nat) => x.onGrid? (x.scale - 1 - (n : Int)) with
  | none => exact exact_pos hx
  | some d =>
    obtain ⟨n, -, hn⟩ := List.exists_of_findSome?_eq_some h
    exact readsBack_pos hx (readsBack_of_onGrid hn)

/-- The numeral that the digits are laid out as. -/
def Decimal.numeral (d : Decimal) : Numeral :=
  let ds := Nat.toDigits 10 d.digits
  let e : Int := d.exp + (ds.length : Int) - 1
  if 0 ≤ e ∧ e ≤ 15 then
    let whole := e.toNat + 1
    ⟨false, ds.take whole ++ List.replicate (whole - ds.length) '0',
      if (ds.drop whole).isEmpty then ['0'] else ds.drop whole, none⟩
  else if -5 ≤ e ∧ e < 0 then ⟨false, ['0'], List.replicate ((-e).toNat - 1) '0' ++ ds, none⟩
  else ⟨false, ds.take 1, ds.drop 1, some (decide (e < 0), Nat.toDigits 10 e.natAbs)⟩

theorem layout_eq (d : Decimal) : d.layout.toList = d.numeral.text := by
  obtain ⟨c, cs, digits⟩ := List.exists_cons_of_ne_nil (Nat.toDigits_ne_nil (n := d.digits) (b := 10))
  simp only [Decimal.layout, Decimal.numeral, toString_toList, digits]
  split
  · cases (c :: cs).drop (_ + 1) <;> simp [Numeral.text]
  · split
    · simp [Numeral.text]
    · generalize d.exp + ((c :: cs).length : Int) - 1 = e
      cases cs <;> by_cases he : e < 0 <;> simp [Numeral.text, he]

theorem numeral_plain (d : Decimal) : d.numeral.negative = false := by
  simp only [Decimal.numeral]
  split
  · rfl
  · split <;> rfl

/-- However the digits are laid out, they make a numeral. -/
theorem wellFormed_numeral {d : Decimal} (hd : d.digits ≠ 0) : d.numeral.WellFormed := by
  have hdigit := toDigits_digit (n := d.digits)
  have hhead : (Nat.toDigits 10 d.digits).head? ≠ some '0' := fun h => hd (head_toDigits h)
  obtain ⟨c, cs, digits⟩ := List.exists_cons_of_ne_nil (Nat.toDigits_ne_nil (n := d.digits) (b := 10))
  simp only [Decimal.numeral]
  rw [digits] at hdigit hhead ⊢
  split
  · refine ⟨?_, by simp, ?_, ?_, by simp⟩
    · intro c' hc'
      rcases List.mem_append.mp hc' with h | h
      · exact hdigit _ (List.mem_of_mem_take h)
      · rw [List.eq_of_mem_replicate h]
        rfl
    · exact fun h => absurd (by simpa using h) hhead
    · intro c' hc'
      dsimp only at hc'
      split at hc'
      · rw [List.mem_singleton] at hc'
        subst hc'
        rfl
      · exact hdigit _ (List.mem_of_mem_drop hc')
  · split
    · refine ⟨by simp, by simp, by simp, ?_, by simp⟩
      intro c' hc'
      rcases List.mem_append.mp hc' with h | h
      · rw [List.eq_of_mem_replicate h]
        rfl
      · exact hdigit _ h
    · refine ⟨?_, by simp, by simp, ?_, ?_⟩
      · simpa using hdigit c (by simp)
      · exact fun c' hc' => hdigit c' (List.mem_of_mem_drop hc')
      · rintro _ ⟨⟩
        exact ⟨Nat.toDigits_ne_nil, toDigits_digit⟩

/-- The numeral of a double without its sign. -/
def unsigned (bits : UInt64) : Numeral :=
  if (magnitude bits).m == 0 then ⟨false, ['0'], ['0'], none⟩ else (magnitude bits).shortest.numeral

end Binary64

/-- The numeral of a number. -/
def Number.numeral : Number → Numeral
  | int i => ⟨decide (i < 0), Nat.toDigits 10 i.natAbs, [], none⟩
  | double bits => { Binary64.unsigned bits with negative := Binary64.isNegative bits }

theorem Binary64.wellFormed_unsigned (bits : UInt64) : (unsigned bits).WellFormed := by
  unfold unsigned
  split
  · exact ⟨by simp, by simp, by simp, by simp, by simp⟩
  · rename_i some
    exact wellFormed_numeral (shortest_pos (by simpa using some))

theorem Number.wellFormed_numeral (n : Number) : n.numeral.WellFormed := by
  cases n with
  | int i =>
    refine ⟨toDigits_digit, Nat.toDigits_ne_nil, fun h => ?_, by simp [numeral], by simp [numeral]⟩
    simp only [numeral] at h ⊢
    simp [head_toDigits h, Nat.toDigits_zero]
  | double bits =>
    obtain ⟨whole, some, zero, fraction, exponent⟩ := Binary64.wellFormed_unsigned bits
    exact ⟨whole, some, zero, fraction, exponent⟩

/-- The text of a number is a numeral. -/
theorem Number.render_eq (n : Number) : n.render.toList = n.numeral.text := by
  cases n with
  | int i =>
    cases i with
    | ofNat n =>
      show (toString n).toList = _
      simp [numeral, Numeral.text]
    | negSucc n =>
      show ("-" ++ toString (n + 1)).toList = _
      simp [numeral, Numeral.text]
  | double bits =>
    have body : (if (Binary64.magnitude bits).m == 0 then "0.0"
        else (Binary64.magnitude bits).shortest.layout).toList = (Binary64.unsigned bits).text := by
      unfold Binary64.unsigned
      split
      · rfl
      · exact Binary64.layout_eq _
    have plain : (Binary64.unsigned bits).negative = false := by
      unfold Binary64.unsigned
      split
      · rfl
      · exact Binary64.numeral_plain _
    simp only [render, Binary64.render, numeral]
    split
    · rename_i negative
      rw [String.toList_append, body]
      simp [Numeral.text, plain, negative]
    · rename_i positive
      rw [body]
      simp [Numeral.text, plain, positive]

/-! ### What the texts are read as -/

namespace Json.Reader

theorem Numeral.WellFormed.head {n : Numeral} (wf : n.WellFormed) :
    ∃ c cs, n.text = c :: cs ∧ (c = '-' ∨ c.isDigit) := by
  obtain ⟨d, ds, hd⟩ := List.exists_cons_of_ne_nil wf.whole_ne
  cases hn : n.negative with
  | true => exact ⟨'-', _, by rw [text, hn]; rfl, .inl rfl⟩
  | false =>
    exact ⟨d, _, by rw [text, hn, hd]; rfl, .inr (wf.whole_digits d (by simp [hd]))⟩

theorem Numeral.WellFormed.mem_text {n : Numeral} (wf : n.WellFormed) {c : Char} (hc : c ∈ n.text) :
    c.isDigit = true ∨ c ∈ ['-', '.', 'e', '+'] := by
  simp only [text, List.mem_append] at hc
  rcases hc with ((sign | whole) | fraction) | exponent
  · split at sign
    · exact .inr (by simp_all)
    · cases sign
  · exact .inl (wf.whole_digits c whole)
  · split at fraction
    · cases fraction
    · rcases List.mem_cons.mp fraction with rfl | digit
      · exact .inr (by decide)
      · exact .inl (wf.fraction_digits c digit)
  · cases he : n.exponent with
    | none => simp [he] at exponent
    | some e =>
      rw [he, Option.elim_some] at exponent
      rcases List.mem_cons.mp exponent with rfl | exponent
      · exact .inr (by decide)
      rcases List.mem_cons.mp exponent with rfl | digit
      · exact .inr (by split <;> decide)
      · exact .inl ((wf.exponent_digits e he).2 c digit)

/-- A numeral is a scalar of its own kind. -/
theorem scalar_text {n : Numeral} (wf : n.WellFormed) {rest : Input} (hrest : Closes rest) :
    scalar (n.text.map some ++ rest) =
      .ok (match n.value? with
        | some v => .num v
        | none => .unreadable n.isPassed, rest) := by
  obtain ⟨c, cs, htext, hc⟩ := wf.head
  have read := numeral_text wf hrest
  rw [htext, List.map_cons, List.cons_append] at read ⊢
  have : c ≠ 'n' ∧ c ≠ 't' ∧ c ≠ 'f' ∧ c ≠ '"' := by
    refine ⟨?_, ?_, ?_, ?_⟩ <;> rintro rfl <;> simp at hc
  unfold scalar
  split
  case h_5 => rw [read]; rfl
  all_goals rename_i h; simp_all

end Json.Reader

namespace Number

open Json.Reader

/-- What the text of a number is read as: most often the number itself. -/
def reread (n : Number) : Source :=
  match scalar (n.render.toList.map some) with
  | .ok (v, _) => v
  | .error _ => .unreadable false

theorem reread_eq (n : Number) :
    n.reread = match n.numeral.value? with
      | some v => .num v
      | none => .unreadable n.numeral.isPassed := by
  have alone := scalar_text n.wellFormed_numeral closes_nil
  rw [List.append_nil] at alone
  rw [reread, n.render_eq, alone]

theorem scalar_number (n : Number) {rest : Input} (hrest : Closes rest) :
    scalar (n.render.toList.map some ++ rest) = .ok (n.reread, rest) := by
  rw [reread_eq, n.render_eq, scalar_text n.wellFormed_numeral hrest]

theorem significand_digits {acc : Nat} {ds : List Char}
    (h : Nat.ofDigitChars 10 ds acc < Bits.values 64) :
    Numeral.significand acc ds = (Nat.ofDigitChars 10 ds acc, 0) := by
  induction ds generalizing acc with
  | nil => simp [Numeral.significand]
  | cons c cs ih =>
    rw [Nat.ofDigitChars_cons] at h ⊢
    have le : 10 * acc + (c.toNat - '0'.toNat) ≤
        Nat.ofDigitChars 10 cs (10 * acc + (c.toNat - '0'.toNat)) := by
      rw [Nat.ofDigitChars_eq_ofDigitChars_zero]
      refine Nat.le_trans ?_ (Nat.le_add_right _ _)
      exact Nat.le_mul_of_pos_left _ (Nat.pow_pos (by decide))
    rw [Numeral.significand, if_pos (Nat.lt_of_le_of_lt le h), ih h]

/-- Exact integers are read back. -/
theorem reread_int {i : Int} (h : fitsInteger i = true) : (int i).reread = .num (int i) := by
  obtain ⟨low, high⟩ : Bits.minInt64 ≤ i ∧ i < Bits.values 64 := by simpa [fitsInteger] using h
  have low : -(Bits.values 63 : Int) ≤ i := low
  have small : i.natAbs < Bits.values 64 := by
    have : Bits.values 63 < Bits.values 64 := by decide
    omega
  have digits : Numeral.significand 0 (Nat.toDigits 10 i.natAbs) = (i.natAbs, 0) := by
    rw [significand_digits] <;> rw [Nat.ofDigitChars_ten_toDigits]
    exact small
  have hvalue : (int i).numeral.value? = some (int i) := by
    by_cases hi : i < 0
    · have inRange : i.natAbs ≠ 0 ∧ i.natAbs ≤ Bits.values 63 := by omega
      have back : -(i.natAbs : Int) = i := by omega
      simp only [numeral, Numeral.value?, List.isEmpty_nil, digits, BEq.rfl, Bool.and_self,
        ↓reduceIte, hi, decide_true, Bool.not_true, Bool.false_eq_true, Numeral.significand,
        beq_iff_eq, inRange, back]
    · have back : (i.natAbs : Int) = i := by omega
      simp only [numeral, Numeral.value?, List.isEmpty_nil, digits, BEq.rfl, Bool.and_self,
        ↓reduceIte, hi, decide_false, Bool.not_false, Numeral.significand, back]
  rw [reread_eq, hvalue]

theorem significand_exact {acc : Nat} {ds : List Char} (h : (Numeral.significand acc ds).2 = 0) :
    (Numeral.significand acc ds).1 = Nat.ofDigitChars 10 ds acc := by
  induction ds generalizing acc with
  | nil => simp [Numeral.significand]
  | cons c cs ih =>
    rw [Nat.ofDigitChars_cons]
    rw [Numeral.significand] at h ⊢
    split at h
    · rw [if_pos ‹_›]
      exact ih h
    · cases h

theorem finite?_eq_some {f : Float} {n : Number} (h : finite? f = some n) :
    ∃ bits, Binary64.isFinite bits = true ∧ n = double bits := by
  rw [finite?] at h
  split at h
  · exact ⟨f.toBits, ‹_›, (Option.some.inj h).symm⟩
  · cases h

theorem scaled?_eq_some {negative : Bool} {significand : Nat} {exponent : Int} {n : Number}
    (h : scaled? negative significand exponent = some n) :
    ∃ bits, Binary64.isFinite bits = true ∧ n = double bits := by
  obtain ⟨f, -, hf⟩ := Option.bind_eq_some_iff.mp h
  exact finite?_eq_some hf

/-- An integer is never read back as another one. -/
theorem reread_int_inj {i j : Int} (h : (int i).reread = .num (int j)) : j = i := by
  have hvalue : (int i).numeral.value? = some (int j) := by
    rw [reread_eq] at h
    cases hv : (int i).numeral.value? with
    | none => simp [hv] at h
    | some k => simpa [hv] using h
  have double {b : UInt64} : Number.int j ≠ double b := nofun
  rw [Numeral.value?] at hvalue
  simp only [numeral, Numeral.significand] at hvalue
  split at hvalue
  · rename_i hdropped
    have digits : (Numeral.significand 0 (Nat.toDigits 10 i.natAbs)).1 = i.natAbs := by
      rw [significand_exact (by simpa using hdropped), Nat.ofDigitChars_ten_toDigits]
    rw [digits] at hvalue
    split at hvalue
    · have := Number.int.inj (Option.some.inj hvalue)
      simp only [Bool.not_eq_true', decide_eq_false_iff_not] at *
      omega
    · split at hvalue
      · cases hvalue
      · split at hvalue
        · have := Number.int.inj (Option.some.inj hvalue)
          simp only [Bool.not_eq_true', decide_eq_false_iff_not] at *
          omega
        · obtain ⟨b, -, this⟩ := finite?_eq_some hvalue
          exact absurd this double
  · obtain ⟨b, -, this⟩ := scaled?_eq_some hvalue
    exact absurd this double

end Number

end ScreenFlow
