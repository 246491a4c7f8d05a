import ScreenFlow.Proofs.Text.Utf8
import ScreenFlow.Text.Percent

/-!
# Form fields and escaped texts read back

* `FormFields.decodeText_textBytes`: a name or a value is read back from its escaped bytes;
* `FormFields.decode_encode`: pairs that are written as a form are read back, in their order;
* `FormFields.decode_append`: so are those of two forms that are joined;
* `Percent.decode_encode`, `Percent.decodeLossy_encode`: a text is read back from its escapes;
* `Percent.length_decodeLossy_le`: what is read from a text is no longer than the text.
-/

namespace ScreenFlow

namespace Percent

theorem hexDigit_ascii {n : Nat} (h : n < 16) : (hexDigit n).toNat < 0x80 := by
  revert n
  decide

theorem hexValue?_hexDigit {n : Nat} (h : n < 16) :
    hexValue? (hexDigit n).toNat.toUInt8 = some n := by
  revert n
  decide

/-- No digit of an escape means anything else in a form. -/
theorem hexDigit_neutral {n : Nat} (h : n < 16) :
    (hexDigit n).toNat.toUInt8 ≠ 38 ∧ (hexDigit n).toNat.toUInt8 ≠ 43 ∧
      (hexDigit n).toNat.toUInt8 ≠ 61 := by
  revert n
  decide

theorem decodeBytes_cons {b : UInt8} (h : b ≠ 37) (rest : Bytes) :
    decodeBytes (b :: rest) = b :: decodeBytes rest := by
  rw [decodeBytes.eq_def]
  split
  · rename_i heq
    exact absurd (List.cons.inj heq).1 h
  · rename_i heq
    obtain ⟨rfl, rfl⟩ := List.cons.inj heq
    rfl
  · rename_i heq
    cases heq

theorem digits_lt (b : UInt8) : b.toNat / 16 < 16 ∧ b.toNat % 16 < 16 := by
  have := b.toNat_lt
  omega

/-- Characters below 128 have the number of their byte. -/
theorem toNat_ofNat {n : Nat} (h : n < 0x80) : (Char.ofNat n).toNat = n := by
  have valid : n.isValidChar := .inl (by omega)
  rw [Char.ofNat, dif_pos valid]
  rfl

theorem escape_ascii (b : UInt8) : ∀ c ∈ escape b, c.toNat < 0x80 := by
  obtain ⟨high, low⟩ := digits_lt b
  simpa [escape] using ⟨hexDigit_ascii high, hexDigit_ascii low⟩

/-- An escape is read as its byte. -/
theorem decodeBytes_escape (b : UInt8) (rest : Bytes) :
    decodeBytes ((escape b).map (fun c => c.toNat.toUInt8) ++ rest) = b :: decodeBytes rest := by
  obtain ⟨high, low⟩ := digits_lt b
  have whole : b.toNat / 16 * 16 + b.toNat % 16 = b.toNat := by omega
  change decodeBytes (37 :: _ :: _ :: rest) = _
  rw [decodeBytes, hexValue?_hexDigit high, hexValue?_hexDigit low]
  simp [whole]

end Percent

namespace FormFields

open Percent

/-! ### Bytes of a text -/

/-- The bytes that stand for one byte of a text. -/
def byteForm (b : UInt8) : Bytes :=
  if b == 32 then [43] else if isPlain b then [b]
  else [37, (hexDigit (b.toNat / 16)).toNat.toUInt8, (hexDigit (b.toNat % 16)).toNat.toUInt8]

def textBytes (s : String) : Bytes := (Utf8.encode s).flatMap byteForm

theorem isPlain_ascii {b : UInt8} (h : isPlain b = true) : b.toNat < 0x80 := by
  simp only [isPlain, isAsciiAlnum, Bool.or_eq_true, Bool.and_eq_true, decide_eq_true_eq,
    beq_iff_eq] at h
  rcases h with (((h | rfl) | rfl) | rfl) | rfl
  · omega
  all_goals decide

theorem isPlain_neutral {b : UInt8} (h : isPlain b = true) :
    b ≠ 37 ∧ b ≠ 38 ∧ b ≠ 43 ∧ b ≠ 61 := by
  refine ⟨?_, ?_, ?_, ?_⟩ <;> rintro rfl <;> revert h <;> decide

theorem encodeText_bytes (s : String) :
    (∀ c ∈ encodeText s, c.toNat < 0x80) ∧
      (encodeText s).map (fun c => c.toNat.toUInt8) = textBytes s := by
  unfold encodeText textBytes
  induction Utf8.encode s with
  | nil => simp
  | cons b bs ih =>
    rw [List.flatMap_cons, List.flatMap_cons, List.map_append, ih.2, List.forall_mem_append]
    refine ⟨⟨?_, ih.1⟩, congrArg (· ++ bs.flatMap byteForm) ?_⟩
    · split
      · simp
      split
      · rename_i plain
        simpa [toNat_ofNat (isPlain_ascii plain)] using isPlain_ascii plain
      · exact escape_ascii b
    · unfold byteForm
      split
      · rfl
      split
      · rename_i plain
        simp [toNat_ofNat (isPlain_ascii plain)]
      · rfl

/-! ### Reading a text back -/

theorem decodeBytes_byteForm (b : UInt8) (rest : Bytes) :
    decodeBytes (((byteForm b).map fun b => if b == 43 then 32 else b) ++ rest) =
      b :: decodeBytes rest := by
  obtain ⟨high, low⟩ := digits_lt b
  unfold byteForm
  split
  · rename_i blank
    rw [eq_of_beq blank]
    exact decodeBytes_cons (by decide) rest
  split
  · rename_i plain
    obtain ⟨hpercent, -, hplus, -⟩ := isPlain_neutral plain
    simpa [hplus] using decodeBytes_cons hpercent rest
  · simp only [List.map_cons, List.map_nil, beq_iff_eq, (hexDigit_neutral high).2.1,
      (hexDigit_neutral low).2.1, ↓reduceIte, show (37 : UInt8) ≠ 43 by decide]
    exact decodeBytes_escape b rest

theorem decodeText_textBytes (s : String) : decodeText (textBytes s) = s := by
  rw [decodeText, textBytes]
  suffices decodeBytes (((Utf8.encode s).flatMap byteForm).map fun b => if b == 43 then 32 else b) =
      Utf8.encode s by rw [this, Utf8.decodeLossy_encode]
  induction Utf8.encode s with
  | nil => rfl
  | cons b bs ih => rw [List.flatMap_cons, List.map_append, decodeBytes_byteForm, ih]

/-! ### Pairs -/

theorem textBytes_neutral {s : String} {b : UInt8} (h : b ∈ textBytes s) : b ≠ 38 ∧ b ≠ 61 := by
  obtain ⟨a, -, hb⟩ := List.mem_flatMap.mp h
  obtain ⟨high, low⟩ := digits_lt a
  unfold byteForm at hb
  split at hb
  · rw [List.mem_singleton.mp hb]
    decide
  split at hb
  · rename_i plain
    rw [List.mem_singleton.mp hb]
    exact ⟨(isPlain_neutral plain).2.1, (isPlain_neutral plain).2.2.2⟩
  · simp only [List.mem_cons, List.not_mem_nil, or_false] at hb
    rcases hb with rfl | rfl | rfl
    · decide
    · exact ⟨(hexDigit_neutral high).1, (hexDigit_neutral high).2.2⟩
    · exact ⟨(hexDigit_neutral low).1, (hexDigit_neutral low).2.2⟩

def pairBytes (p : String × String) : Bytes := textBytes p.1 ++ 61 :: textBytes p.2

theorem not_mem_pairBytes (p : String × String) : 38 ∉ pairBytes p := by
  intro h
  rcases List.mem_append.mp h with name | rest
  · exact (textBytes_neutral name).1 rfl
  · rcases List.mem_cons.mp rest with equals | value
    · revert equals
      decide
    · exact (textBytes_neutral value).1 rfl

theorem takeWhile_pairBytes (p : String × String) :
    (pairBytes p).takeWhile (· != 61) = textBytes p.1 := by
  have name : ∀ b ∈ textBytes p.1, (b != 61) = true := fun b hb => by
    simpa using (textBytes_neutral hb).2
  rw [pairBytes, List.takeWhile_append_of_pos name]
  simp

theorem splitBytes_eq_splitOn (sep : UInt8) (bs : Bytes) : splitBytes sep bs = bs.splitOn sep := by
  induction bs with
  | nil => rfl
  | cons b bs ih =>
    rw [splitBytes, List.splitOn_cons_eq_if_modifyHead, ih]
    split
    · rfl
    · cases pieces : bs.splitOn sep with
      | nil => exact absurd pieces (List.splitOn_ne_nil sep bs)
      | cons piece pieces => rfl

/-- The bytes of a whole form. -/
def bytesOf : List (String × String) → Bytes
  | [] => []
  | [p] => pairBytes p
  | p :: rest => pairBytes p ++ 38 :: bytesOf rest

theorem encodeChars_bytes (ps : List (String × String)) :
    (∀ c ∈ encodeChars ps, c.toNat < 0x80) ∧
      (encodeChars ps).map (fun c => c.toNat.toUInt8) = bytesOf ps := by
  have pair (p : String × String) : (∀ c ∈ encodePair p, c.toNat < 0x80) ∧
      (encodePair p).map (fun c => c.toNat.toUInt8) = pairBytes p := by
    obtain ⟨ascii₁, bytes₁⟩ := encodeText_bytes p.1
    obtain ⟨ascii₂, bytes₂⟩ := encodeText_bytes p.2
    constructor
    · simpa [encodePair, or_imp, forall_and] using ⟨ascii₁, ascii₂⟩
    · rw [encodePair, List.map_append, List.map_cons, bytes₁, bytes₂]
      rfl
  induction ps using encodeChars.induct with
  | case1 => simp [encodeChars, bytesOf]
  | case2 p => exact pair p
  | case3 p rest hrest ih =>
    rw [encodeChars, bytesOf]
    · constructor
      · simpa [or_imp, forall_and] using ⟨(pair p).1, ih.1⟩
      · rw [List.map_append, List.map_cons, (pair p).2, ih.2]
        rfl
    · exact hrest
    · exact hrest

theorem utf8_encode (ps : List (String × String)) : Utf8.encode (encode ps) = bytesOf ps := by
  obtain ⟨ascii, bytes⟩ := encodeChars_bytes ps
  rw [Utf8.encode, encode, String.toList_ofList, Utf8.encodeChars_ascii ascii, bytes]

/-- What is written as a form is read back. -/
theorem decode_encode (ps : List (String × String)) : decode (encode ps) = ps := by
  have nonempty (p : String × String) : (pairBytes p).isEmpty = false := by
    simp [pairBytes]
  have read (p : String × String) :
      (decodeText ((pairBytes p).takeWhile (· != 61)),
        decodeText ((pairBytes p).drop (((pairBytes p).takeWhile (· != 61)).length + 1))) = p := by
    rw [takeWhile_pairBytes, decodeText_textBytes]
    simp [pairBytes, decodeText_textBytes]
  rw [decode, utf8_encode, splitBytes_eq_splitOn]
  induction ps using encodeChars.induct with
  | case1 => rfl
  | case2 p =>
    rw [bytesOf, List.splitOn_eq_singleton (not_mem_pairBytes p)]
    simpa [nonempty] using read p
  | case3 p rest hrest ih =>
    rw [bytesOf, List.splitOn_append_cons_self_of_not_mem (not_mem_pairBytes p)]
    · simp only [List.filter_cons, nonempty, Bool.not_false, ↓reduceIte, List.map_cons, ih, read]
    · exact hrest

/-- Two forms joined by `&` are read as one after the other. -/
theorem decode_append (s t : String) : decode (s ++ "&" ++ t) = decode s ++ decode t := by
  have bytes : Utf8.encode (s ++ "&" ++ t) = Utf8.encode s ++ 38 :: Utf8.encode t := by
    simp [Utf8.encode, Utf8.encodeChars, Utf8.encodeChar]
  rw [decode, splitBytes_eq_splitOn, bytes, List.splitOn_append_cons_self, List.filter_append,
    List.map_append, ← splitBytes_eq_splitOn, ← splitBytes_eq_splitOn]
  rfl

end FormFields

namespace Percent

/-! ### Texts in which nothing but letters and digits stands for itself -/

theorem isPlain_of_alnum {b : UInt8} (h : isAsciiAlnum b = true) : FormFields.isPlain b = true := by
  simp [FormFields.isPlain, h]

theorem encodeChars_ascii (bs : Bytes) : ∀ c ∈ encodeChars bs, c.toNat < 0x80 := by
  intro c hc
  obtain ⟨b, -, hc⟩ := List.mem_flatMap.mp hc
  split at hc
  · rename_i alnum
    have ascii := FormFields.isPlain_ascii (isPlain_of_alnum alnum)
    rw [List.mem_singleton.mp hc, toNat_ofNat ascii]
    exact ascii
  · exact escape_ascii b c hc

theorem mem_encodeChars {bs : Bytes} {c : Char} (h : c ∈ encodeChars bs) :
    c = '%' ∨ c.isAlphanum = true := by
  have digit {n : Nat} (h : n < 16) : (hexDigit n).isAlphanum = true := by
    revert n
    decide
  have plain : ∀ n < 0x80, isAsciiAlnum n.toUInt8 = true → (Char.ofNat n).isAlphanum = true := by
    decide
  obtain ⟨b, -, member⟩ := List.mem_flatMap.mp h
  split at member
  · rename_i alnum
    rw [List.mem_singleton.mp member]
    exact .inr (plain b.toNat (FormFields.isPlain_ascii (isPlain_of_alnum alnum)) (by simpa using alnum))
  · obtain ⟨high, low⟩ := digits_lt b
    simp only [escape, List.mem_cons, List.not_mem_nil, or_false] at member
    rcases member with rfl | rfl | rfl
    · exact .inl rfl
    · exact .inr (digit high)
    · exact .inr (digit low)

theorem decodeBytes_encodeChars (bs : Bytes) :
    decodeBytes ((encodeChars bs).map fun c => c.toNat.toUInt8) = bs := by
  unfold encodeChars
  induction bs with
  | nil => rfl
  | cons b bs ih =>
    rw [List.flatMap_cons, List.map_append]
    split
    · rename_i alnum
      have plain := isPlain_of_alnum alnum
      have back : (Char.ofNat b.toNat).toNat.toUInt8 = b := by
        rw [toNat_ofNat (FormFields.isPlain_ascii plain)]
        exact UInt8.ofNat_toNat
      rw [List.map_singleton, back, List.singleton_append,
        decodeBytes_cons (FormFields.isPlain_neutral plain).1, ih]
    · rw [decodeBytes_escape, ih]

theorem decodeBytes_encode (s : String) :
    decodeBytes (Utf8.encode (encode s)) = Utf8.encode s := by
  rw [encode, Utf8.encode, String.toList_ofList, Utf8.encodeChars_ascii (encodeChars_ascii _),
    decodeBytes_encodeChars]

/-- Whatever the text, it is read back from its escapes. -/
theorem decode_encode (s : String) : decode (encode s) = .ok s := by
  rw [decode, decodeBytes_encode, Utf8.decode_encode]

theorem decodeLossy_encode (s : String) : decodeLossy (encode s) = s := by
  rw [decodeLossy, decodeBytes_encode, Utf8.decodeLossy_encode]

/-! ### The length of what is read -/

theorem decodeBytes_append {bs : Bytes} (clear : 37 ∉ bs) (rest : Bytes) :
    decodeBytes (bs ++ rest) = bs ++ decodeBytes rest := by
  induction bs with
  | nil => rfl
  | cons b bs ih =>
    obtain ⟨other, clear⟩ := not_or.mp (mt List.mem_cons.mpr clear)
    rw [List.cons_append, decodeBytes_cons (Ne.symm other), ih clear, List.cons_append]

theorem hexValue?_ascii {b : UInt8} {x : Nat} (h : hexValue? b = some x) : b.toNat < 0x80 := by
  simp only [hexValue?] at h
  split_ifs at h <;> omega

/-- A percent sign stands for itself, or begins an escape of three ASCII characters. -/
theorem decodeBytes_percent (bs : Bytes) :
    decodeBytes (37 :: bs) = 37 :: decodeBytes bs ∨
      ∃ a b rest read, bs = a :: b :: rest ∧ a.toNat < 0x80 ∧ b.toNat < 0x80 ∧
        decodeBytes (37 :: bs) = read :: decodeBytes rest := by
  match bs with
  | [] => exact .inl rfl
  | [_] => exact .inl rfl
  | a :: b :: rest =>
    rw [decodeBytes]
    split
    · rename_i high low
      exact .inr ⟨a, b, rest, _, rfl, hexValue?_ascii high, hexValue?_ascii low, rfl⟩
    · exact .inl rfl

theorem not_mem_encodeChar {c : Char} (h : c ≠ '%') : 37 ∉ Utf8.encodeChar c := by
  have other : c.toNat ≠ 37 := fun same => h (Char.toNat_inj.mp same)
  have bound := Utf8.char_lt c
  intro member
  simp only [Utf8.encodeChar] at member
  split_ifs at member <;>
    simp only [List.mem_cons, List.not_mem_nil, or_false, ← UInt8.toNat_inj, UInt8.reduceToNat,
      Nat.toUInt8, UInt8.toNat_ofNat'] at member <;> omega

theorem length_decodePieces_le (cs : List Char) :
    (Utf8.decodePieces (decodeBytes (Utf8.encodeChars cs))).length ≤ cs.length := by
  match cs with
  | [] => simp [Utf8.encodeChars, decodeBytes, Utf8.decodePieces]
  | c :: cs =>
    by_cases percent : c = '%'
    · have bytes : Utf8.encodeChars (c :: cs) = 37 :: Utf8.encodeChars cs := by rw [percent]; rfl
      rw [bytes]
      rcases decodeBytes_percent (Utf8.encodeChars cs) with
        alone | ⟨a, b, _, read, digits, ha, hb, escaped⟩
      · have rest := length_decodePieces_le cs
        have more := Utf8.length_decodePieces_cons_le 37 (decodeBytes (Utf8.encodeChars cs))
        rw [alone, List.length_cons]
        omega
      · obtain ⟨_, cs', rfl, digit⟩ := Utf8.exists_of_encodeChars ha digits
        obtain ⟨_, behind, rfl, rfl⟩ := Utf8.exists_of_encodeChars hb digit
        have rest := length_decodePieces_le behind
        have more := Utf8.length_decodePieces_cons_le read (decodeBytes (Utf8.encodeChars behind))
        rw [escaped]
        simp only [List.length_cons]
        omega
    · have rest := length_decodePieces_le cs
      rw [Utf8.encodeChars, List.flatMap_cons, ← Utf8.encodeChars,
        decodeBytes_append (not_mem_encodeChar percent), Utf8.decodePieces_encodeChar]
      exact Nat.succ_le_succ rest
termination_by cs.length

/-- What is read from a text is no longer than the text. -/
theorem length_decodeLossy_le (s : String) : (decodeLossy s).toList.length ≤ s.toList.length := by
  rw [decodeLossy, Utf8.decodeLossy, String.toList_ofList, List.length_map]
  exact length_decodePieces_le s.toList

end Percent

end ScreenFlow
