import ScreenFlow.Path
import ScreenFlow.Proofs.Json.Numerals
import ScreenFlow.Proofs.Text.Occurrences

/-!
# Ways to write a path

An index stands in brackets, a key in brackets and quotes. A key may also stand plain, unless it is
empty or has a dot or an opening bracket in it. Dots keep plain keys apart, and one may follow every
bracket.

* `Renders`: the texts that a path can be written as;
* `scan_renders`: such a text is read as the path, whatever plain key the scanner holds before it;
* `exists_renders`: every path can be written;
* `parse_written`: every path can be written, and is read back however it is written.
-/

namespace ScreenFlow

/-- A key without a closing bracket, or an index that fits into 64 bits. -/
def Segment.Writable : Segment → Prop
  | .key name => ']' ∉ name.toList
  | .index position => position < Bits.values 64

instance (s : Segment) : Decidable s.Writable :=
  match s with
  | .key name => inferInstanceAs (Decidable (']' ∉ name.toList))
  | .index position => inferInstanceAs (Decidable (position < Bits.values 64))

namespace Path

variable {s : Segment} {path : Path} {name : String} {text cs : List Char} {n : Nat}

/-! ### Written paths -/

/-- A key that can stand without brackets. -/
structure Bare (name : String) : Prop where
  nonempty : name ≠ ""
  dotless : '.' ∉ name.toList
  bracketless : '[' ∉ name.toList

/-- What stands between the brackets of a segment. -/
def bracketed : Segment → List Char
  | .key name => '"' :: (name.toList ++ ['"'])
  | .index position => (toString position).toList

/-- What a segment comes right behind. -/
inductive Behind where
  | nothing
  | plainKey
  | bracket
deriving DecidableEq

/-- The ways to write a path behind something else. -/
inductive Renders : Behind → Path → List Char → Prop
  | done (behind : Behind) : Renders behind [] []
  | bracket {behind : Behind} {s : Segment} {rest : Path} {text : List Char}
      (more : Renders .bracket rest text) :
      Renders behind (s :: rest) ('[' :: (bracketed s ++ ']' :: text))
  | plain {behind : Behind} {name : String} {rest : Path} {text : List Char} (bare : Bare name)
      (apart : behind ≠ .plainKey) (more : Renders .plainKey rest text) :
      Renders behind (.key name :: rest) (name.toList ++ text)
  | dotted {name : String} {rest : Path} {text : List Char} (bare : Bare name)
      (more : Renders .plainKey rest text) :
      Renders .plainKey (.key name :: rest) ('.' :: (name.toList ++ text))
  /-- After a bracket a dot is free to stand or not. -/
  | dot {path : Path} {text : List Char} (more : Renders .nothing path text) :
      Renders .bracket path ('.' :: text)

/-- A text that the path can be written as. -/
def Written (path : Path) (text : String) : Prop := Renders .nothing path text.toList

/-! ### Reading brackets -/

theorem not_mem_bracketed (writable : s.Writable) : ']' ∉ bracketed s := by
  cases s with
  | key name =>
    have absent : ']' ∉ name.toList := writable
    simp [bracketed, absent]
  | index position =>
    rw [bracketed, toString_toList]
    intro bracket
    exact absurd (toDigits_digit _ bracket) (by decide)

/-- The digits of a number, of which there is a first one. -/
theorem exists_digits (n : Nat) :
    ∃ d ds, (toString n).toList = d :: ds ∧ ∀ c ∈ d :: ds, c.isDigit = true := by
  obtain ⟨d, ds, digits⟩ := List.exists_cons_of_ne_nil (Nat.toDigits_ne_nil (n := n) (b := 10))
  exact ⟨d, ds, by rw [toString_toList, digits], digits ▸ toDigits_digit⟩

theorem digits?_toString (n : Nat) : Text.digits? (toString n).toList = some n := by
  obtain ⟨d, ds, digits, digit⟩ := exists_digits n
  have all : (d :: ds).all Char.isDigit = true := List.all_eq_true.mpr digit
  have value : Nat.ofDigitChars 10 (d :: ds) 0 = n := by
    rw [← digits, toString_toList, Nat.ofDigitChars_ten_toDigits]
  rw [digits, Text.digits?, all, ← Nat.ofDigitChars_eq_foldl, value]
  rfl

theorem natBelow?_toString (small : n < Bits.values 64) :
    Text.natBelow? 64 (toString n).toList = some n := by
  have value := digits?_toString n
  obtain ⟨d, ds, digits, digit⟩ := exists_digits n
  rw [digits] at value ⊢
  unfold Text.natBelow?
  split
  · rename_i signed
    rw [(List.cons.inj signed).1] at digit
    exact absurd (digit _ List.mem_cons_self) (by decide)
  · simp [value, small]

theorem unquote?_quoted (q : Char) (cs : List Char) : unquote? q (q :: (cs ++ [q])) = some cs := by
  simp [unquote?]

theorem unquote?_of_ne {c q : Char} (other : c ≠ q) (cs : List Char) : unquote? q (c :: cs) = none := by
  simp [unquote?, other]

/-- What stands between brackets is taken for the segment that it was written for. -/
theorem bracket_bracketed (writable : s.Writable) : bracket (bracketed s) = [s] := by
  cases s with
  | key name =>
    have solid : Text.isBlank '"' = false := by decide
    have trimmed : Text.trimChars ('"' :: (name.toList ++ ['"'])) = '"' :: (name.toList ++ ['"']) :=
      Text.trimChars_eq_self (by simp [solid]) (by simp [List.getLast?_cons, solid])
    rw [bracketed, bracket, trimmed, unquote?_quoted]
    simp
  | index position =>
    have small : position < Bits.values 64 := writable
    have value := natBelow?_toString small
    obtain ⟨d, ds, digits, digit⟩ := exists_digits position
    rw [digits] at value
    have solid (c : Char) (hc : c ∈ d :: ds) : Text.isBlank c = false :=
      Text.isBlank_of_isAlphanum (by simp [Char.isAlphanum, digit c hc])
    have trimmed : Text.trimChars (d :: ds) = d :: ds :=
      Text.trimChars_eq_self (fun c hc => solid c (List.mem_of_mem_head? hc))
        fun c hc => solid c (List.mem_of_mem_getLast? hc)
    have unquoted (q : Char) (notDigit : q.isDigit = false) : unquote? q (d :: ds) = none := by
      refine unquote?_of_ne ?_ ds
      rintro rfl
      rw [digit d List.mem_cons_self] at notDigit
      cases notDigit
    rw [bracketed, digits, bracket, trimmed, unquoted '"' (by decide), unquoted '\'' (by decide)]
    simp [value]

/-! ### Reading written paths -/

/-- A plain key is gathered whole. -/
theorem scan_plain (dotless : '.' ∉ cs) (bracketless : '[' ∉ cs) (acc text : List Char) :
    scan none acc (cs ++ text) = scan none (cs.reverse ++ acc) text := by
  induction cs generalizing acc with
  | nil => rfl
  | cons c cs ih =>
    obtain ⟨dot, dotless⟩ := not_or.mp (mt List.mem_cons.mpr dotless)
    obtain ⟨bracket, bracketless⟩ := not_or.mp (mt List.mem_cons.mpr bracketless)
    rw [List.cons_append, scan, if_neg (Ne.symm dot), if_neg (Ne.symm bracket),
      ih dotless bracketless]
    simp

/-- So is what stands between brackets. -/
theorem scan_inside (closed : ']' ∉ cs) (inner acc text : List Char) :
    scan (some inner) acc (cs ++ ']' :: text) = bracket (inner.reverse ++ cs) ++ scan none [] text := by
  induction cs generalizing inner acc with
  | nil => simp [scan]
  | cons c cs ih =>
    obtain ⟨other, closed⟩ := not_or.mp (mt List.mem_cons.mpr closed)
    rw [List.cons_append, scan, if_neg (Ne.symm other), ih closed]
    simp

theorem plain_of_bare (bare : Bare name) : plain name.toList.reverse = [.key name] := by
  have nonempty : name.toList ≠ [] := fun h => bare.nonempty (String.toList_eq_nil_iff.mp h)
  simp [plain, nonempty]

/-- A written path is read behind whatever plain key is still pending, of which there is none unless
the path is written behind a plain key. -/
theorem scan_renders {behind : Behind} (renders : Renders behind path text)
    (writable : ∀ s ∈ path, s.Writable) {acc : List Char}
    (pending : behind ≠ .plainKey → acc = []) : scan none acc text = plain acc ++ path := by
  induction renders generalizing acc with
  | done => rw [scan, List.append_nil]
  | @bracket _ s rest text _ ih =>
    obtain ⟨here, later⟩ := List.forall_mem_cons.mp writable
    have next : scan none [] text = plain [] ++ rest := ih later fun _ => rfl
    rw [scan, if_neg (by decide), if_pos rfl, scan_inside (not_mem_bracketed here),
      List.reverse_nil, List.nil_append, bracket_bracketed here, next]
    rfl
  | @plain _ name rest text bare apart _ ih =>
    obtain ⟨-, later⟩ := List.forall_mem_cons.mp writable
    obtain rfl := pending apart
    rw [scan_plain bare.dotless bare.bracketless, List.append_nil, ih later (absurd rfl),
      plain_of_bare bare]
    rfl
  | @dotted name rest text bare _ ih =>
    obtain ⟨-, later⟩ := List.forall_mem_cons.mp writable
    rw [scan, if_pos rfl, scan_plain bare.dotless bare.bracketless, List.append_nil,
      ih later (absurd rfl), plain_of_bare bare]
    rfl
  | dot _ ih =>
    obtain rfl := pending (by decide)
    rw [scan, if_pos rfl, ih writable fun _ => rfl]
    rfl

/-- Every path can be written: with all of its segments in brackets. -/
theorem exists_renders (behind : Behind) (path : Path) : ∃ text, Renders behind path text := by
  induction path generalizing behind with
  | nil => exact ⟨[], .done behind⟩
  | cons s rest ih =>
    obtain ⟨text, more⟩ := ih .bracket
    exact ⟨_, .bracket more⟩

/-- Every path can be written down, and however it is written, that path is read back. -/
theorem parse_written (writable : ∀ s ∈ path, s.Writable) :
    (∃ text, Written path text) ∧ ∀ text, Written path text → parse text = path := by
  constructor
  · obtain ⟨text, renders⟩ := exists_renders .nothing path
    exact ⟨String.ofList text, by rwa [Written, String.toList_ofList]⟩
  · intro text written
    exact scan_renders written writable fun _ => rfl

/-- Keys with a dot, of digits only and without any character, and the largest index. -/
theorem parse_written_mixed :
    let path : Path := [.key "nodes", .key "a.b", .key "7", .index 18446744073709551615, .key "",
      .key "x"]
    let text := "nodes[\"a.b\"].7[18446744073709551615].[\"\"]x"
    (∀ s ∈ path, s.Writable) ∧ Written path text ∧ parse text = path := by
  intro path text
  have writable : ∀ s ∈ path, s.Writable := by decide
  have written : Written path text := by
    have bare : Bare "nodes" ∧ Bare "7" ∧ Bare "x" := by
      refine ⟨?_, ?_, ?_⟩ <;> constructor <;> decide
    have spelled : text.toList = "nodes".toList ++ '[' :: (bracketed (.key "a.b") ++ ']' :: '.' ::
        ("7".toList ++ '[' :: (bracketed (.index 18446744073709551615) ++ ']' :: '.' ::
          '[' :: (bracketed (.key "") ++ ']' :: ("x".toList ++ []))))) := by decide +kernel
    rw [Written, spelled]
    exact .plain bare.1 (by decide) (.bracket (.dot (.plain bare.2.1 (by decide)
      (.bracket (.dot (.bracket (.plain bare.2.2 (by decide) (.done _))))))))
  exact ⟨writable, written, (parse_written writable).2 text written⟩

end Path

end ScreenFlow
