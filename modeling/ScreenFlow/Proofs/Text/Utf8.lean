import Mathlib.Tactic.SplitIfs
import ScreenFlow.Text.Utf8

/-!
# UTF-8 read back

* `decodePieces_encodeChars`: encoded characters are read one by one;
* `decode_encode`, `decodeLossy_encode`: encoded text is read back as it was;
* `length_decodePieces_cons_le`: a byte more makes at most one piece more;
* `encode_lt_encode_iff`: texts stand in the order of their bytes.
-/

namespace ScreenFlow.Utf8

theorem toNat_toUInt8 {n : Nat} (h : n < 256) : n.toUInt8.toNat = n := by
  rw [Nat.toUInt8, UInt8.toNat_ofNat']
  omega

/-- A continuation byte in its range is followed. -/
theorem follow_next {acc lo hi n : Nat} {ranges : List (Nat × Nat)} {bs : Bytes}
    (hlo : lo ≤ 0x80 + n) (hhi : 0x80 + n ≤ hi) (hn : n < 0x40) :
    Utf8.follow acc ((lo, hi) :: ranges) ((0x80 + n).toUInt8 :: bs) =
      Utf8.follow (acc * 0x40 + n) ranges bs := by
  simp only [Utf8.follow, toNat_toUInt8 (show 0x80 + n < 256 by omega), hlo, hhi, and_self,
    ↓reduceIte, Nat.add_sub_cancel_left]

theorem decodePieces_cons {b n payload : Nat} {ranges : List (Nat × Nat)} {bs rest : Bytes}
    (hb : b < 256) (lead : lead? b = some (payload, ranges))
    (follows : Utf8.follow payload ranges bs = (true, n, rest)) :
    decodePieces (b.toUInt8 :: bs) = some (Char.ofNat n) :: decodePieces rest := by
  have here : piece b.toUInt8 bs = (some (Char.ofNat n), rest) := by
    simp only [piece, toNat_toUInt8 hb, lead, follows]
  rw [decodePieces, here]

/-! ### Leading bytes -/

variable {n : Nat}

theorem lead?_two (h : 0x80 ≤ n) (h' : n < 0x800) :
    lead? (0xC0 + n / 0x40) = some (n / 0x40, [(0x80, 0xBF)]) := by
  rw [lead?, if_neg (by omega), if_pos (by omega), Nat.add_sub_cancel_left]

/-- What may follow the leading byte of three. -/
theorem lead?_three (h : 0x800 ≤ n) (h' : n < 0x10000) (valid : n < 0xD800 ∨ 0xDFFF < n) :
    ∃ lo hi, lead? (0xE0 + n / 0x1000) = some (n / 0x1000, [(lo, hi), (0x80, 0xBF)]) ∧
      lo ≤ 0x80 + n / 0x40 % 0x40 ∧ 0x80 + n / 0x40 % 0x40 ≤ hi := by
  rcases Nat.lt_or_ge n 0x1000 with low | high
  · have zero : n / 0x1000 = 0 := by omega
    exact ⟨0xA0, 0xBF, by rw [zero]; rfl, by omega, by omega⟩
  rcases Nat.lt_or_ge n 0xE000 with below | above
  · rcases Nat.lt_or_ge n 0xD000 with plain | near
    · refine ⟨0x80, 0xBF, ?_, by omega, by omega⟩
      rw [lead?, if_neg (by omega), if_neg (by omega), if_neg (by omega), if_neg (by omega),
        if_pos (by omega), Nat.add_sub_cancel_left]
    · have last : n / 0x1000 = 0xD := by omega
      exact ⟨0x80, 0x9F, by rw [last]; rfl, by omega, by omega⟩
  · refine ⟨0x80, 0xBF, ?_, by omega, by omega⟩
    rw [lead?, if_neg (by omega), if_neg (by omega), if_neg (by omega), if_neg (by omega),
      if_pos (by omega), Nat.add_sub_cancel_left]

/-- What may follow the leading byte of four. -/
theorem lead?_four (h : 0x10000 ≤ n) (h' : n < 0x110000) :
    ∃ lo hi, lead? (0xF0 + n / 0x40000) =
        some (n / 0x40000, [(lo, hi), (0x80, 0xBF), (0x80, 0xBF)]) ∧
      lo ≤ 0x80 + n / 0x1000 % 0x40 ∧ 0x80 + n / 0x1000 % 0x40 ≤ hi := by
  rcases Nat.lt_or_ge n 0x40000 with low | high
  · have zero : n / 0x40000 = 0 := by omega
    exact ⟨0x90, 0xBF, by rw [zero]; rfl, by omega, by omega⟩
  rcases Nat.lt_or_ge n 0x100000 with below | above
  · refine ⟨0x80, 0xBF, ?_, by omega, by omega⟩
    rw [lead?, if_neg (by omega), if_neg (by omega), if_neg (by omega), if_neg (by omega),
      if_neg (by omega), if_neg (by omega), if_pos (by omega), Nat.add_sub_cancel_left]
  · have last : n / 0x40000 = 4 := by omega
    exact ⟨0x80, 0x8F, by rw [last]; rfl, by omega, by omega⟩

/-! ### Characters -/

theorem decodePieces_encodeChar (c : Char) (rest : Bytes) :
    decodePieces (encodeChar c ++ rest) = some c :: decodePieces rest := by
  have valid : c.toNat < 0xD800 ∨ 0xDFFF < c.toNat ∧ c.toNat < 0x110000 := c.valid
  have back : Char.ofNat c.toNat = c := Char.ofNat_toNat c
  generalize hn : c.toNat = n at valid back
  suffices decodePieces (encodeChar c ++ rest) = some (Char.ofNat n) :: decodePieces rest by
    rw [this, back]
  simp only [encodeChar, hn]
  split
  · rename_i one
    exact decodePieces_cons (by omega) (if_pos one) rfl
  split
  · refine decodePieces_cons (by omega) (lead?_two (n := n) (by omega) (by omega)) ?_
    simp only [List.append_eq, List.cons_append, List.nil_append]
    rw [follow_next (by omega) (by omega) (by omega), Utf8.follow]
    congr 2
    omega
  split
  · obtain ⟨lo, hi, lead, hlo, hhi⟩ := lead?_three (n := n) (by omega) (by omega) (by omega)
    refine decodePieces_cons (by omega) lead ?_
    simp only [List.append_eq, List.cons_append, List.nil_append]
    rw [follow_next hlo hhi (by omega), follow_next (by omega) (by omega) (by omega), Utf8.follow]
    congr 2
    omega
  · obtain ⟨lo, hi, lead, hlo, hhi⟩ := lead?_four (n := n) (by omega) (by omega)
    refine decodePieces_cons (by omega) lead ?_
    simp only [List.append_eq, List.cons_append, List.nil_append]
    rw [follow_next hlo hhi (by omega), follow_next (by omega) (by omega) (by omega),
      follow_next (by omega) (by omega) (by omega), Utf8.follow]
    congr 2
    omega

/-- Encoded characters are read one by one. -/
theorem decodePieces_encodeChars (cs : List Char) : decodePieces (encodeChars cs) = cs.map some := by
  induction cs with
  | nil => rw [encodeChars, List.flatMap_nil, decodePieces, List.map_nil]
  | cons c cs ih =>
    rw [encodeChars, List.flatMap_cons, decodePieces_encodeChar, List.map_cons, ← ih, encodeChars]

theorem decodeLossy_encode (s : String) : decodeLossy (encode s) = s := by
  rw [decodeLossy, encode, decodePieces_encodeChars, List.map_map]
  simp [Function.comp_def]

/-- Where every piece is a character there is no problem. -/
theorem problem?_eq_none {bs : Bytes} (whole : ∀ p ∈ decodePieces bs, p.isSome = true)
    (index : Nat) : problem? index bs = none := by
  induction bs using decodePieces.induct generalizing index with
  | case1 => rw [problem?]
  | case2 b rest _ ih =>
    rw [decodePieces] at whole
    obtain ⟨here, later⟩ := List.forall_mem_cons.mp whole
    obtain ⟨c, found⟩ := Option.isSome_iff_exists.mp here
    rw [problem?]
    simp only [found]
    exact ih later _

theorem decode_encode (s : String) : decode (encode s) = .ok s := by
  have pieces : decodePieces (encode s) = s.toList.map some := decodePieces_encodeChars s.toList
  have sound : problem? 0 (encode s) = none := problem?_eq_none (by simp [pieces]) 0
  rw [decode, sound, pieces]
  simp

/-- A text of ASCII characters has one byte for each. -/
theorem encodeChars_ascii {cs : List Char} (h : ∀ c ∈ cs, c.toNat < 0x80) :
    encodeChars cs = cs.map fun c => c.toNat.toUInt8 := by
  induction cs with
  | nil => rfl
  | cons c cs ih =>
    obtain ⟨hc, hcs⟩ := List.forall_mem_cons.mp h
    rw [encodeChars, List.flatMap_cons, ← encodeChars, ih hcs]
    simp [encodeChar, hc]

theorem char_lt (c : Char) : c.toNat < 0x110000 := by
  rcases c.valid with low | high
  · exact Nat.lt_trans low (by decide)
  · exact high.2

/-- An ASCII byte at the beginning of a text is a character of its own. -/
theorem exists_of_encodeChars {cs : List Char} {b : UInt8} {bs : Bytes} (ascii : b.toNat < 0x80)
    (h : encodeChars cs = b :: bs) : ∃ c rest, cs = c :: rest ∧ encodeChars rest = bs := by
  cases cs with
  | nil => cases h
  | cons c rest =>
    have bound := char_lt c
    rw [encodeChars, List.flatMap_cons, ← encodeChars, encodeChar] at h
    refine ⟨c, rest, rfl, ?_⟩
    split_ifs at h
    · exact (List.cons.inj h).2
    all_goals
      rw [← (List.cons.inj h).1, Nat.toUInt8, UInt8.toNat_ofNat'] at ascii
      omega

/-! ### The number of pieces -/

/-- Behind a leading byte only continuation bytes are allowed. -/
theorem lead?_ranges {b payload : Nat} {ranges : List (Nat × Nat)}
    (lead : lead? b = some (payload, ranges)) : ∀ r ∈ ranges, 0x80 ≤ r.1 ∧ r.2 ≤ 0xBF := by
  unfold lead? at lead
  split_ifs at lead <;> obtain ⟨-, rfl⟩ := Prod.mk.inj (Option.some.inj lead) <;> simp

theorem lead?_continuation (h : 0x80 ≤ n) (h' : n ≤ 0xBF) : lead? n = none := by
  unfold lead?
  split_ifs <;> first | omega | rfl

/-- Bytes that were taken to continue a character would be pieces of their own. -/
theorem length_decodePieces_follow {ranges : List (Nat × Nat)}
    (continuing : ∀ r ∈ ranges, 0x80 ≤ r.1 ∧ r.2 ≤ 0xBF) (acc : Nat) (bs : Bytes) :
    (decodePieces (Utf8.follow acc ranges bs).2.2).length ≤ (decodePieces bs).length := by
  induction ranges generalizing acc bs with
  | nil => exact Nat.le_refl _
  | cons r ranges ih =>
    obtain ⟨here, later⟩ := List.forall_mem_cons.mp continuing
    cases bs with
    | nil => exact Nat.le_refl _
    | cons b bs =>
      rw [Utf8.follow]
      split
      · rename_i fits
        have alone : piece b bs = (none, bs) := by
          rw [piece, lead?_continuation (by omega) (by omega)]
        rw [decodePieces, alone]
        exact Nat.le_succ_of_le (ih later _ bs)
      · exact Nat.le_refl _

/-- A byte more makes at most one piece more. -/
theorem length_decodePieces_cons_le (b : UInt8) (bs : Bytes) :
    (decodePieces (b :: bs)).length ≤ (decodePieces bs).length + 1 := by
  rw [decodePieces, List.length_cons, piece]
  refine Nat.succ_le_succ ?_
  split
  · exact Nat.le_refl _
  · rename_i payload ranges lead
    have fewer := length_decodePieces_follow (lead?_ranges lead) payload bs
    split <;> rename_i follows <;> rwa [follows] at fewer

/-! ### The order of texts -/

theorem cons_lt_cons_toUInt8 {x y : Nat} {bs cs : Bytes} (hx : x < 256) (hy : y < 256) :
    x.toUInt8 :: bs < y.toUInt8 :: cs ↔ x < y ∨ x = y ∧ bs < cs := by
  rw [List.cons_lt_cons_iff, UInt8.lt_iff_toNat_lt, ← UInt8.toNat_inj, toNat_toUInt8 hx,
    toNat_toUInt8 hy]

/-- The smaller of two characters has the smaller bytes, whatever follows. -/
theorem encodeChar_append_lt {c d : Char} (h : c < d) (bs cs : Bytes) :
    encodeChar c ++ bs < encodeChar d ++ cs := by
  have less : c.toNat < d.toNat := h
  have bound := char_lt d
  simp only [encodeChar]
  generalize c.toNat = n at less ⊢
  generalize d.toNat = m at less bound ⊢
  -- The first byte tells how many there are, so only forms of one length agree on it.
  split_ifs <;> simp only [List.cons_append, List.nil_append] <;>
    (repeat rw [cons_lt_cons_toUInt8 (by omega) (by omega)]) <;> omega

theorem encodeChars_lt {cs ds : List Char} (h : cs < ds) : encodeChars cs < encodeChars ds := by
  induction h with
  | @nil d ds =>
    simp only [encodeChars, List.flatMap_nil, List.flatMap_cons, encodeChar]
    split_ifs <;> exact List.nil_lt_cons _ _
  | @rel c cs d ds h => exact encodeChar_append_lt h _ _
  | @cons c cs ds h ih =>
    simp only [encodeChars, List.flatMap_cons]
    exact List.append_left_lt ih

/-- Texts stand in the order of their bytes. -/
theorem encode_lt_encode_iff {a b : String} : encode a < encode b ↔ a < b := by
  have forth {a b : String} (h : a < b) : encode a < encode b := encodeChars_lt (String.lt_iff.mp h)
  refine ⟨fun h => Classical.byContradiction fun stays => ?_, forth⟩
  by_cases same : a = b
  · rw [same] at h
    exact List.lt_irrefl _ h
  · have greater : b < a := Classical.byContradiction fun above =>
      same (String.le_antisymm (String.not_lt.mp above) (String.not_lt.mp stays))
    exact List.lt_asymm h (forth greater)

end ScreenFlow.Utf8
