import ScreenFlow.Text.Chars

/-!
# Where a pattern stands in a text

* `opening_of_startsWith`, `ending_append`: a few characters at the beginning or at the end tell texts
  apart;
* `Earliest`: the pattern stands at no earlier place of the text;
* `splitAt?_eq_some_iff`, `splitAt?_eq_none_iff`: a text is cut at the first place of the pattern, if
  there is one;
* `exists_trimChars`: a text is its trimmed form between blanks;
* `splitChars_eq_splitOn`, `splitOn_append`, `flatMap_splitOn`: the pieces of a text between its
  separators.
-/

namespace ScreenFlow.Text

/-! ### Beginnings and ends -/

section

variable {s t p : String}

theorem dropPrefix?_isSome_iff {p cs : List Char} : (dropPrefix? p cs).isSome ↔ p <+: cs := by
  induction p generalizing cs with
  | nil => simp [dropPrefix?]
  | cons x p ih =>
    cases cs with
    | nil => simp [dropPrefix?]
    | cons c cs =>
      rw [dropPrefix?, List.cons_prefix_cons]
      split
      · rename_i same
        rw [ih, and_iff_right same]
      · rename_i differs
        simp [differs]

theorem startsWith_iff {s start : String} : startsWith s start = true ↔ start.toList <+: s.toList :=
  dropPrefix?_isSome_iff

theorem startsWith_append (p t : String) : startsWith (p ++ t) p = true := by
  rw [startsWith_iff, String.toList_append]
  exact List.prefix_append ..

/-- The first two characters. -/
def opening (s : String) : List Char := s.toList.take 2

/-- The last three characters, the last one first. -/
def ending (s : String) : List Char := s.toList.reverse.take 3

theorem opening_append (long : 2 ≤ s.toList.length) (t : String) : opening (s ++ t) = opening s := by
  rw [opening, String.toList_append, List.take_append_of_le_length long, opening]

theorem ending_append (s : String) (long : 3 ≤ t.toList.length) : ending (s ++ t) = ending t := by
  rw [ending, String.toList_append, List.reverse_append,
    List.take_append_of_le_length (by rwa [List.length_reverse]), ending]

theorem opening_of_startsWith (long : 2 ≤ p.toList.length) (h : startsWith s p = true) :
    opening s = opening p := by
  obtain ⟨rest, same⟩ := startsWith_iff.mp h
  rw [opening, ← same, List.take_append_of_le_length long, opening]

end

/-! ### The first place -/

variable {p cs before after rest : List Char} {c : Char}

theorem dropPrefix?_eq_some_iff : dropPrefix? p cs = some rest ↔ cs = p ++ rest := by
  induction p generalizing cs with
  | nil => simp [dropPrefix?]
  | cons x p ih =>
    cases cs with
    | nil => simp [dropPrefix?]
    | cons c cs =>
      rw [dropPrefix?]
      split
      · rename_i same
        simp [ih, same]
      · rename_i differs
        simp [Ne.symm differs]

theorem dropPrefix?_eq_none_iff : dropPrefix? p cs = none ↔ ¬ p <+: cs := by
  rw [← dropPrefix?_isSome_iff, Bool.not_eq_true, Option.isSome_eq_false_iff, Option.isNone_iff_eq_none]

/-- In the text that these make up, the pattern stands nowhere before the place behind `before`. -/
def Earliest (p before after : List Char) : Prop :=
  ∀ b a, before ++ p ++ after = b ++ p ++ a → before.length ≤ b.length

namespace Earliest

theorem nil (p after : List Char) : Earliest p [] after := fun b _ _ => Nat.zero_le b.length

/-- A character before the first place of a pattern puts it off, unless the pattern begins there. -/
theorem cons_iff (other : ¬ p <+: c :: (before ++ p ++ after)) :
    Earliest p (c :: before) after ↔ Earliest p before after := by
  constructor
  · intro h b a same
    have := h (c :: b) a (congrArg (c :: ·) same)
    simpa using this
  · intro h b a same
    cases b with
    | nil => exact absurd ⟨a, same.symm⟩ other
    | cons x b =>
      obtain ⟨-, same⟩ := List.cons.inj same
      simpa using h b a same

/-- A pattern does not stand where its first character is missing. -/
theorem of_not_mem (absent : c ∉ before) : Earliest (c :: p) before after := by
  induction before with
  | nil => exact .nil _ _
  | cons x before ih =>
    obtain ⟨other, absent⟩ := not_or.mp (mt List.mem_cons.mpr absent)
    exact (cons_iff fun h => other (List.cons_prefix_cons.mp h).1).mpr (ih absent)

/-- What comes after a pattern does not put it earlier. -/
theorem append (h : Earliest p before after) (rest : List Char) :
    Earliest p before (after ++ rest) := by
  intro b a same
  refine Nat.le_of_not_lt fun short => ?_
  have begins : b ++ p <+: before ++ p ++ after := by
    refine List.prefix_of_prefix_length_le ⟨a, same.symm⟩ ⟨rest, List.append_assoc _ _ _⟩ ?_
    simp only [List.length_append]
    omega
  obtain ⟨a', eq⟩ := begins
  exact absurd (h b a' eq.symm) (by omega)

/-- A text has one first place of a pattern. -/
theorem unique {before' after' : List Char} (h : Earliest p before after)
    (h' : Earliest p before' after') (same : before ++ p ++ after = before' ++ p ++ after') :
    before = before' ∧ after = after' := by
  have long : before.length = before'.length :=
    Nat.le_antisymm (h before' after' same) (h' before after same.symm)
  rw [List.append_assoc, List.append_assoc] at same
  obtain ⟨rfl, rest⟩ := List.append_inj same long
  exact ⟨rfl, List.append_cancel_left rest⟩

end Earliest

theorem splitAt?_eq_some_iff :
    splitAt? p cs = some (before, after) ↔ cs = before ++ p ++ after ∧ Earliest p before after := by
  induction cs generalizing before with
  | nil =>
    rw [splitAt?]
    split
    · rename_i blank
      obtain rfl := List.isEmpty_iff.mp blank
      simp only [Option.some.injEq, Prod.mk.injEq, List.append_nil, List.nil_eq_append_iff]
      constructor
      · rintro ⟨rfl, rfl⟩
        exact ⟨⟨rfl, rfl⟩, .nil _ _⟩
      · rintro ⟨⟨rfl, rfl⟩, -⟩
        exact ⟨rfl, rfl⟩
    · rename_i pattern
      simp_all
  | cons c cs ih =>
    rw [splitAt?]
    cases front : dropPrefix? p (c :: cs) with
    | some rest =>
      have begins := dropPrefix?_eq_some_iff.mp front
      simp only [Option.some.injEq, Prod.mk.injEq]
      constructor
      · rintro ⟨rfl, rfl⟩
        exact ⟨begins, .nil _ _⟩
      · rintro ⟨same, first⟩
        obtain ⟨rfl, rfl⟩ := (Earliest.nil p rest).unique first (begins.symm.trans same)
        exact ⟨rfl, rfl⟩
    | none =>
      have other := dropPrefix?_eq_none_iff.mp front
      simp only [Option.map_eq_some_iff, Prod.mk.injEq, Prod.exists]
      constructor
      · rintro ⟨b, a, found, rfl, rfl⟩
        obtain ⟨rfl, first⟩ := ih.mp found
        exact ⟨rfl, (Earliest.cons_iff other).mpr first⟩
      · rintro ⟨same, first⟩
        cases before with
        | nil => exact absurd ⟨after, same.symm⟩ other
        | cons x b =>
          obtain ⟨rfl, rfl⟩ := List.cons.inj same
          exact ⟨b, after, ih.mpr ⟨rfl, (Earliest.cons_iff other).mp first⟩, rfl, rfl⟩

theorem splitAt?_isSome_iff : (splitAt? p cs).isSome ↔ p <:+: cs := by
  induction cs with
  | nil =>
    rw [splitAt?]
    split <;> simp_all
  | cons c cs ih =>
    rw [splitAt?, List.infix_cons_iff, ← dropPrefix?_isSome_iff, ← ih]
    cases dropPrefix? p (c :: cs) <;> simp

theorem splitAt?_eq_none_iff : splitAt? p cs = none ↔ ¬ p <:+: cs := by
  rw [← splitAt?_isSome_iff, Bool.not_eq_true, Option.isSome_eq_false_iff, Option.isNone_iff_eq_none]

/-- A pattern that stands in a text stands there for the first time somewhere. -/
theorem exists_earliest (h : p <:+: cs) :
    ∃ before after, cs = before ++ p ++ after ∧ Earliest p before after := by
  obtain ⟨⟨before, after⟩, found⟩ := Option.isSome_iff_exists.mp (splitAt?_isSome_iff.mpr h)
  exact ⟨before, after, splitAt?_eq_some_iff.mp found⟩

/-! ### Trimming -/

theorem isBlank_of_isAlphanum (h : c.isAlphanum = true) : isBlank c = false := by
  have ranges : (decide (65 ≤ c.val ∧ c.val ≤ 90) || decide (97 ≤ c.val) && decide (c.val ≤ 122) ||
      decide (48 ≤ c.val) && decide (c.val ≤ 57)) = true := h
  simp only [Bool.or_eq_true, Bool.and_eq_true, decide_eq_true_eq, UInt32.le_iff_toNat_le] at ranges
  change (65 ≤ c.toNat ∧ c.toNat ≤ 90 ∨ 97 ≤ c.toNat ∧ c.toNat ≤ 122) ∨
    48 ≤ c.toNat ∧ c.toNat ≤ 57 at ranges
  simp only [isBlank, blankRanges, List.any_cons, List.any_nil, Bool.or_eq_false_iff,
    Bool.and_eq_false_iff, decide_eq_false_iff_not, and_true]
  omega

/-- What trimming takes away is blank. -/
theorem exists_trimChars (cs : List Char) :
    ∃ l r, cs = l ++ trimChars cs ++ r ∧ (∀ c ∈ l, isBlank c = true) ∧ ∀ c ∈ r, isBlank c = true := by
  have taken (cs : List Char) : ∀ c ∈ cs.takeWhile isBlank, isBlank c = true :=
    fun c hc => List.all_eq_true.mp List.all_takeWhile c hc
  let stripped := trimStartChars cs
  refine ⟨cs.takeWhile isBlank, (stripped.reverse.takeWhile isBlank).reverse, ?_, taken cs,
    fun c hc => taken _ c (List.mem_reverse.mp hc)⟩
  have stop : trimChars cs ++ (stripped.reverse.takeWhile isBlank).reverse = stripped := by
    rw [trimChars, trimEndChars, ← List.reverse_append, List.takeWhile_append_dropWhile,
      List.reverse_reverse]
  rw [List.append_assoc, stop]
  exact List.takeWhile_append_dropWhile.symm

/-- Trimming at the end stops where something stands that is not blank. -/
theorem trimEndChars_append (last : isBlank c = false) (rest : List Char) :
    trimEndChars (before ++ c :: rest) = before ++ c :: trimEndChars rest := by
  have turned : (before ++ c :: rest).reverse = rest.reverse ++ c :: before.reverse := by simp
  rw [trimEndChars, turned, List.dropWhile_append]
  split
  · rename_i blank
    rw [List.dropWhile_cons_of_neg (by simp [last]), trimEndChars, List.isEmpty_iff.mp blank]
    simp
  · simp [trimEndChars]

theorem trimStartChars_cons (first : isBlank c = false) (rest : List Char) :
    trimStartChars (c :: rest) = c :: rest :=
  List.dropWhile_cons_of_neg (by simp [first])

theorem trimChars_blank (blank : isBlank c = true) (rest : List Char) :
    trimChars (c :: rest) = trimChars rest := by
  rw [trimChars, trimStartChars, List.dropWhile_cons_of_pos blank]
  rfl

theorem trimEndChars_eq_self (last : ∀ c ∈ cs.getLast?, isBlank c = false) :
    trimEndChars cs = cs := by
  rcases List.eq_nil_or_concat cs with rfl | ⟨before, d, rfl⟩
  · rfl
  · rw [List.concat_eq_append] at last ⊢
    exact trimEndChars_append (last d (by simp)) []

/-- What begins and ends with something that is not blank is trimmed already. -/
theorem trimChars_eq_self (first : ∀ c ∈ cs.head?, isBlank c = false)
    (last : ∀ c ∈ cs.getLast?, isBlank c = false) : trimChars cs = cs := by
  cases cs with
  | nil => rfl
  | cons c rest =>
    rw [trimChars, trimStartChars_cons (first c rfl)]
    exact trimEndChars_eq_self last

theorem trimChars_sublist (cs : List Char) : (trimChars cs).Sublist cs := by
  obtain ⟨l, r, cut, -, -⟩ := exists_trimChars cs
  have inside := (List.sublist_append_right l (trimChars cs)).trans (List.sublist_append_left _ r)
  rwa [← cut] at inside

theorem trimMatches_sublist (c : Char) (cs : List Char) : (trimMatches c cs).Sublist cs := by
  have stripped := List.dropWhile_sublist (· == c) (l := (cs.dropWhile (· == c)).reverse)
  exact (List.reverse_sublist.mp (by simpa [trimMatches] using stripped)).trans
    (List.dropWhile_sublist _)

/-- What stands between two of the characters, and has none itself, is left. -/
theorem trimMatches_between (absent : c ∉ cs) : trimMatches c (c :: (cs ++ [c])) = cs := by
  have stays {d : Char} {l : List Char} (h : d ≠ c) : (d :: l).dropWhile (· == c) = d :: l :=
    List.dropWhile_cons_of_neg (by simp [h])
  have others {d : Char} (h : d ∈ cs) : d ≠ c := fun same => absent (same ▸ h)
  rw [trimMatches, List.dropWhile_cons_of_pos (by simp)]
  rcases List.eq_nil_or_concat cs with rfl | ⟨before, last, whole⟩
  · simp
  · rw [List.concat_eq_append] at whole
    have front : (cs ++ [c]).dropWhile (· == c) = cs ++ [c] := by
      cases cs with
      | nil => simp at whole
      | cons d rest => exact stays (others List.mem_cons_self)
    have back : cs.reverse.dropWhile (· == c) = cs.reverse := by
      rw [whole, List.reverse_append]
      exact stays (others (by simp [whole]))
    rw [front, List.reverse_append, List.reverse_singleton, List.singleton_append,
      List.dropWhile_cons_of_pos (by simp), back, List.reverse_reverse]

/-! ### Pieces -/

variable {sep : Char} {piece : List Char}

theorem splitChars_eq_splitOn (sep : Char) (cs : List Char) :
    splitChars sep cs = cs.splitOn sep := by
  induction cs with
  | nil => rfl
  | cons c cs ih =>
    rw [splitChars, List.splitOn_cons_eq_if_modifyHead, ih]
    simp only [beq_iff_eq]
    split
    · rfl
    · cases pieces : cs.splitOn sep with
      | nil => exact absurd pieces (List.splitOn_ne_nil sep cs)
      | cons piece pieces => rfl

theorem splitOn_cons_ne (other : c ≠ sep) (cs : List Char) :
    (c :: cs).splitOn sep = (cs.splitOn sep).modifyHead (c :: ·) := by
  rw [List.splitOn_cons_eq_if_modifyHead, if_neg (by simpa using other)]

/-- What comes before the first separator belongs to the first piece. -/
theorem splitOn_append (absent : sep ∉ before) (cs : List Char) :
    (before ++ cs).splitOn sep = (cs.splitOn sep).modifyHead (before ++ ·) := by
  induction before with
  | nil => exact (congrFun List.modifyHead_id (cs.splitOn sep)).symm
  | cons c before ih =>
    obtain ⟨other, absent⟩ := not_or.mp (mt List.mem_cons.mpr absent)
    rw [List.cons_append, splitOn_cons_ne (Ne.symm other), ih absent, List.modifyHead_modifyHead]
    rfl

theorem not_mem_of_mem_splitOn (h : piece ∈ cs.splitOn sep) : sep ∉ piece := by
  induction cs generalizing piece with
  | nil => simp_all
  | cons c cs ih =>
    by_cases same : c = sep
    · rw [List.splitOn_cons_eq_if_modifyHead, if_pos (by simpa using same)] at h
      rcases List.mem_cons.mp h with rfl | h
      · simp
      · exact ih h
    · rw [splitOn_cons_ne same] at h
      cases pieces : cs.splitOn sep with
      | nil => simp [pieces] at h
      | cons first others =>
        rw [pieces] at h ih
        rcases List.mem_cons.mp h with rfl | h
        · have clear := ih List.mem_cons_self
          simp [Ne.symm same, clear]
        · exact ih (List.mem_cons_of_mem _ h)

/-- The pieces, each behind a separator, make up the text behind one. -/
theorem flatMap_splitOn (sep : Char) (cs : List Char) :
    (cs.splitOn sep).flatMap (sep :: ·) = sep :: cs := by
  have join (first : List Char) (others : List (List Char)) :
      (first :: others).flatMap (sep :: ·) = sep :: [sep].intercalate (first :: others) := by
    induction others generalizing first with
    | nil => simp
    | cons next others ih =>
      rw [List.flatMap_cons, ih next, List.intercalate_cons_cons]
      simp
  obtain ⟨first, others, pieces⟩ := List.exists_cons_of_ne_nil (List.splitOn_ne_nil sep cs)
  rw [pieces, join, ← pieces, List.intercalate_splitOn]

/-- A piece behind a separator is shorter than the text. -/
theorem length_lt_of_mem_tail (h : piece ∈ (cs.splitOn sep).tail) : piece.length < cs.length := by
  have whole := flatMap_splitOn sep cs
  obtain ⟨first, others, pieces⟩ := List.exists_cons_of_ne_nil (List.splitOn_ne_nil sep cs)
  rw [pieces, List.flatMap_cons, List.cons_append] at whole
  rw [pieces, List.tail_cons] at h
  have part : (sep :: piece).Sublist cs := by
    rw [← (List.cons.inj whole).2]
    exact (List.sublist_flatten_of_mem (List.mem_map_of_mem h)).trans
      (List.sublist_append_right _ _)
  exact part.length_le

end ScreenFlow.Text
