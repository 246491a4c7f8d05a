import Mathlib.Data.List.Forall2
import ScreenFlow.Proofs.Text.Occurrences
import ScreenFlow.Template

/-!
# What a template stands for

A text that is one placeholder stands for the value it names. In every other text each placeholder is
replaced by the text of its value. Whether a text is one placeholder is decided by how it begins, how
it ends and how many placeholders it has, which is not quite the same.

* `Sole`, `Scanned`, `Piece.Replaced`, `StandsFor`: what a template stands for, said without the
  scanner; `StandsFor.unique`: it is one value;
* `scanned_iff`: the scanner finds the pieces of a text;
* `soleHole?_eq_some_iff`: what is taken for a text that is one placeholder;
* `stands_for_iff`: a template resolves to what it stands for exactly if it does not overreach.
-/

namespace ScreenFlow.Template

open Text (Earliest)

variable {scope j k : Json} {tr : Translator} {s : String}
  {cs before after expr inside rest : List Char} {ps : List Piece}

/-! ### What a template stands for -/

/-- The text is one placeholder, with nothing but blanks around it. -/
structure Sole (cs expr : List Char) : Prop where
  whole : Text.trimChars cs = opening ++ expr ++ closing
  simple : ¬ closing <:+: expr

/-- A text with its placeholders: each one begins as early and is as short as possible, and the next
one is looked for behind it. -/
inductive Scanned : List Char → List Piece → Prop
  | rest {cs : List Char}
      (none : ∀ before expr after, cs ≠ before ++ opening ++ (expr ++ closing ++ after)) :
      Scanned cs [.text cs]
  | hole {before expr after : List Char} {ps : List Piece}
      (first : Earliest opening before (expr ++ closing ++ after))
      (shortest : Earliest closing expr after) (more : Scanned after ps) :
      Scanned (before ++ opening ++ (expr ++ closing ++ after)) (.text before :: .hole expr :: ps)

/-- What takes the place of a piece: a placeholder gives way to the text of its value, and stays if
there is none. -/
inductive Piece.Replaced (scope : Json) (tr : Translator) : Piece → List Char → Prop
  | text (cs : List Char) : Replaced scope tr (.text cs) cs
  | null {expr : List Char} (found : lookup scope tr expr = some .null) :
      Replaced scope tr (.hole expr) []
  | string {expr : List Char} {t : String} (found : lookup scope tr expr = some (.str t)) :
      Replaced scope tr (.hole expr) t.toList
  | value {expr : List Char} {v : Json} (found : lookup scope tr expr = some v) (present : v ≠ .null)
      (other : ∀ t, v ≠ .str t) : Replaced scope tr (.hole expr) v.render.toList
  | missing {expr : List Char} (missing : lookup scope tr expr = none) :
      Replaced scope tr (.hole expr) (opening ++ expr ++ closing)

/-- What a template stands for in a scope. -/
inductive StandsFor (scope : Json) (tr : Translator) (s : String) : Json → Prop
  | found {expr : List Char} {v : Json} (sole : Sole s.toList expr)
      (found : lookup scope tr expr = some v) : StandsFor scope tr s v
  | missing {expr : List Char} (sole : Sole s.toList expr)
      (missing : lookup scope tr expr = none) : StandsFor scope tr s (.str s)
  | mixed {ps : List Piece} {texts : List (List Char)} (mixed : ∀ expr, ¬ Sole s.toList expr)
      (scanned : Scanned s.toList ps) (replaced : List.Forall₂ (Piece.Replaced scope tr) ps texts) :
      StandsFor scope tr s (.str (String.ofList texts.flatten))

/-- The text begins and ends as one placeholder does, but its first placeholder ends earlier, and no
other one begins behind it. -/
def Overreaches (cs : List Char) : Prop :=
  ∃ expr rest, Text.trimChars cs = opening ++ (expr ++ closing ++ rest) ++ closing ∧
    Earliest closing expr rest ∧ ¬ opening <:+: rest

/-! ### Pieces -/

theorem firstHole?_eq_some_iff :
    firstHole? cs = some (before, expr, after) ↔
      cs = before ++ opening ++ (expr ++ closing ++ after) ∧
        Earliest opening before (expr ++ closing ++ after) ∧ Earliest closing expr after := by
  rw [firstHole?]
  constructor
  · intro h
    split at h
    · cases h
    · rename_i b rest opened
      split at h
      · cases h
      · rename_i e a closed
        obtain ⟨rfl, first⟩ := Text.splitAt?_eq_some_iff.mp opened
        obtain ⟨rfl, shortest⟩ := Text.splitAt?_eq_some_iff.mp closed
        cases h
        exact ⟨rfl, first, shortest⟩
  · rintro ⟨same, first, shortest⟩
    rw [Text.splitAt?_eq_some_iff.mpr ⟨same, first⟩]
    dsimp only
    rw [Text.splitAt?_eq_some_iff.mpr ⟨rfl, shortest⟩]

theorem firstHole?_eq_none_iff :
    firstHole? cs = none ↔
      ∀ before expr after, cs ≠ before ++ opening ++ (expr ++ closing ++ after) := by
  constructor
  · intro none before expr after same
    have opens : opening <:+: cs := ⟨before, expr ++ closing ++ after, same.symm⟩
    obtain ⟨b, rest, cut, first⟩ := Text.exists_earliest opens
    have behind : expr ++ closing ++ after <:+ rest := by
      have short := first before (expr ++ closing ++ after) (cut.symm.trans same)
      refine List.suffix_of_suffix_length_le ⟨_, same.symm⟩ ⟨_, cut.symm⟩ ?_
      have long := congrArg List.length (cut.symm.trans same)
      simp only [List.length_append] at long ⊢
      omega
    have closes : closing <:+: rest :=
      (List.infix_append expr closing after).trans behind.isInfix
    obtain ⟨e, a, rfl, shortest⟩ := Text.exists_earliest closes
    rw [firstHole?_eq_some_iff.mpr ⟨cut, first, shortest⟩] at none
    cases none
  · intro none
    cases h : firstHole? cs with
    | none => rfl
    | some found => exact absurd (firstHole?_eq_some_iff.mp h).1 (none _ _ _)

theorem pieces_of_none (h : firstHole? cs = none) : pieces cs = [.text cs] := by
  rw [pieces]
  split
  · rfl
  · rename_i found
    rw [h] at found
    cases found

theorem pieces_of_some (h : firstHole? cs = some (before, expr, after)) :
    pieces cs = .text before :: .hole expr :: pieces after := by
  rw [pieces]
  split
  · rename_i missing
    rw [h] at missing
    cases missing
  · rename_i found
    rw [h] at found
    cases found
    rfl

theorem scanned_pieces (cs : List Char) : Scanned cs (pieces cs) := by
  induction cs using pieces.induct with
  | case1 cs none =>
    rw [pieces_of_none none]
    exact .rest (firstHole?_eq_none_iff.mp none)
  | case2 cs before expr after found ih =>
    rw [pieces_of_some found]
    obtain ⟨rfl, first, shortest⟩ := firstHole?_eq_some_iff.mp found
    exact .hole first shortest ih

/-- A text has its pieces in one way only, which the scanner finds. -/
theorem scanned_iff : Scanned cs ps ↔ ps = pieces cs := by
  constructor
  · intro h
    induction h with
    | rest none => exact (pieces_of_none (firstHole?_eq_none_iff.mpr none)).symm
    | hole first shortest _ ih =>
      rw [pieces_of_some (firstHole?_eq_some_iff.mpr ⟨rfl, first, shortest⟩), ih]
  · rintro rfl
    exact scanned_pieces cs

theorem Piece.replaced_iff {p : Piece} : p.Replaced scope tr cs ↔ cs = p.fill scope tr := by
  cases p with
  | text t =>
    constructor
    · rintro ⟨⟩
      rfl
    · rintro rfl
      exact .text _
  | hole expr =>
    rw [Piece.fill]
    constructor
    · intro h
      cases h with
      | null found | string found | missing found => simp [found, Json.inlineText]
      | @value _ v found present other =>
        rw [found]
        cases v with
        | null => exact absurd rfl present
        | str t => exact absurd rfl (other t)
        | _ => rfl
    · rintro rfl
      cases found : lookup scope tr expr with
      | none => exact .missing found
      | some v =>
        cases v with
        | null => exact .null found
        | str t => exact .string found
        | _ => exact .value found nofun nofun

theorem forall₂_replaced_iff {texts : List (List Char)} :
    List.Forall₂ (Piece.Replaced scope tr) ps texts ↔ texts = ps.map (Piece.fill scope tr) := by
  induction ps generalizing texts with
  | nil => simp
  | cons p ps ih => cases texts <;> simp [ih, Piece.replaced_iff]

/-! ### Texts that are one placeholder -/

theorem Sole.unique {expr' : List Char} (h : Sole cs expr) (h' : Sole cs expr') : expr = expr' :=
  List.append_cancel_left (List.append_cancel_right (h.whole.symm.trans h'.whole))

/-- A template stands for one value. -/
theorem StandsFor.unique (h : StandsFor scope tr s j) (h' : StandsFor scope tr s k) : j = k := by
  cases h with
  | found sole found =>
    cases h' with
    | found sole' found' =>
      obtain rfl := sole.unique sole'
      exact Option.some.inj (found.symm.trans found')
    | missing sole' missing =>
      obtain rfl := sole.unique sole'
      cases found.symm.trans missing
    | mixed mixed => exact absurd sole (mixed _)
  | missing sole missing =>
    cases h' with
    | found sole' found =>
      obtain rfl := sole.unique sole'
      cases missing.symm.trans found
    | missing => rfl
    | mixed mixed => exact absurd sole (mixed _)
  | mixed mixed scanned replaced =>
    cases h' with
    | found sole | missing sole => exact absurd sole (mixed _)
    | mixed _ scanned' replaced' =>
      obtain rfl := scanned_iff.mp scanned
      obtain rfl := scanned_iff.mp scanned'
      rw [forall₂_replaced_iff.mp replaced, forall₂_replaced_iff.mp replaced']

/-- A text that is not one placeholder stands for the scanner's pieces filled in. -/
theorem standsFor_filled (mixed : ∀ expr, ¬ Sole s.toList expr) :
    StandsFor scope tr s
      (.str (String.ofList ((pieces s.toList).flatMap (Piece.fill scope tr)))) :=
  .mixed mixed (scanned_pieces _) (forall₂_replaced_iff.mpr rfl)

theorem endsWith_closing : Text.endsWith (String.ofList cs) "\x7d\x7d" = true ↔ closing <:+ cs := by
  have chars : (String.ofList cs).toList = cs := String.toList_ofList
  rw [Text.endsWith, Text.dropPrefix?_isSome_iff, List.reverse_prefix, chars]
  rfl

/-- Opening and closing braces do not overlap. -/
theorem exists_enclosed (opens : opening <+: cs) (closes : closing <:+ cs) :
    ∃ inside, cs = opening ++ inside ++ closing := by
  obtain ⟨rest, rfl⟩ := opens
  match rest with
  | [] => simp [opening, closing, List.suffix_cons_iff] at closes
  | [c] => simp [opening, closing, List.suffix_cons_iff] at closes
  | c :: d :: rest =>
    have behind : closing <:+ c :: d :: rest :=
      List.suffix_of_suffix_length_le closes (List.suffix_append _ _) (by simp [closing])
    obtain ⟨inside, same⟩ := behind
    exact ⟨inside, by rw [← same, List.append_assoc]⟩

theorem holes_of_none (h : firstHole? cs = none) : holes cs = [] := by
  simp [holes, pieces_of_none h]

theorem holes_of_some (h : firstHole? cs = some (before, expr, after)) :
    holes cs = expr :: holes after := by
  simp [holes, pieces_of_some h]

theorem firstHole?_enclosed (same : inside ++ closing = expr ++ closing ++ after)
    (shortest : Earliest closing expr after) :
    firstHole? (opening ++ inside ++ closing) = some ([], expr, after) := by
  refine firstHole?_eq_some_iff.mpr ⟨?_, .nil _ _, shortest⟩
  rw [List.append_assoc, same, List.nil_append]

/-- Behind the first closing braces of such a text is less than another pair of them. -/
theorem holes_of_simple (simple : ¬ closing <:+: inside) :
    (holes (opening ++ inside ++ closing)).length = 1 := by
  obtain ⟨expr, after, same, shortest⟩ :=
    Text.exists_earliest (List.suffix_append inside closing).isInfix
  have short : after.length < 2 := by
    refine Nat.lt_of_not_le fun long => ?_
    have begins : expr ++ closing <+: inside := by
      refine List.prefix_of_prefix_length_le ⟨after, same.symm⟩ (List.prefix_append _ _) ?_
      have total := congrArg List.length same
      simp only [List.length_append, closing, List.length_cons, List.length_nil] at total ⊢
      omega
    obtain ⟨rest, eq⟩ := begins
    exact simple ⟨expr, rest, eq⟩
  have none : firstHole? after = none := by
    refine firstHole?_eq_none_iff.mpr fun b e a eq => ?_
    have total := congrArg List.length eq
    simp only [List.length_append, opening, closing, List.length_cons, List.length_nil] at total
    omega
  rw [holes_of_some (firstHole?_enclosed same shortest), holes_of_none none]
  rfl

theorem firstHole?_closed : firstHole? (rest ++ closing) = none ↔ ¬ opening <:+: rest := by
  rw [firstHole?_eq_none_iff]
  constructor
  · rintro none ⟨b, a, rfl⟩
    exact none b a [] (by simp)
  · intro plain b e a same
    have begins : b ++ opening <+: rest := by
      refine List.prefix_of_prefix_length_le ⟨e ++ closing ++ a, same.symm⟩
        (List.prefix_append _ _) ?_
      have total := congrArg List.length same
      simp only [List.length_append] at total ⊢
      omega
    obtain ⟨a', eq⟩ := begins
    exact plain ⟨b, a', eq⟩

/-- Where the first placeholder ends early, the others are to be found behind it. -/
theorem holes_of_early (shortest : Earliest closing expr rest) :
    (holes (opening ++ (expr ++ closing ++ rest) ++ closing)).length = 1 ↔
      ¬ opening <:+: rest := by
  have same : expr ++ closing ++ rest ++ closing = expr ++ closing ++ (rest ++ closing) :=
    List.append_assoc _ _ _
  rw [holes_of_some (firstHole?_enclosed same (shortest.append closing)), List.length_cons,
    Nat.add_eq_right, List.length_eq_zero_iff, ← firstHole?_closed]
  constructor
  · intro none
    cases h : firstHole? (rest ++ closing) with
    | none => rfl
    | some found =>
      rw [holes_of_some h] at none
      cases none
  · exact holes_of_none

theorem take_inside (inside : List Char) :
    (inside ++ closing).take ((inside ++ closing).length - 2) = inside := by
  rw [List.length_append, show closing.length = 2 from rfl, Nat.add_sub_cancel,
    List.take_left]

/-- A text is taken for one placeholder if it begins and ends as one and has no other. -/
theorem soleHole?_eq_some_iff :
    soleHole? cs = some inside ↔
      Text.trimChars cs = opening ++ inside ++ closing ∧
        (holes (Text.trimChars cs)).length = 1 := by
  simp only [soleHole?, Option.ite_none_right_eq_some, Bool.and_eq_true, beq_iff_eq,
    Option.map_eq_some_iff, endsWith_closing, Text.dropPrefix?_eq_some_iff]
  constructor
  · rintro ⟨⟨closes, one⟩, rest, opens, rfl⟩
    obtain ⟨e, same⟩ := exists_enclosed ⟨rest, opens.symm⟩ closes
    obtain rfl : rest = e ++ closing := by
      rw [opens, List.append_assoc] at same
      exact List.append_cancel_left same
    rw [take_inside]
    exact ⟨same, one⟩
  · rintro ⟨same, one⟩
    refine ⟨⟨same ▸ List.suffix_append _ _, one⟩, inside ++ closing, ?_, take_inside inside⟩
    rw [same, List.append_assoc]

theorem soleHole?_of_sole (h : Sole cs expr) : soleHole? cs = some expr :=
  soleHole?_eq_some_iff.mpr ⟨h.whole, h.whole ▸ holes_of_simple h.simple⟩

theorem sole_or_overreaches (h : soleHole? cs = some inside) : Sole cs inside ∨ Overreaches cs := by
  obtain ⟨whole, one⟩ := soleHole?_eq_some_iff.mp h
  by_cases simple : closing <:+: inside
  · obtain ⟨expr, rest, rfl, shortest⟩ := Text.exists_earliest simple
    rw [whole, holes_of_early shortest] at one
    exact .inr ⟨expr, rest, whole, shortest, one⟩
  · exact .inl ⟨whole, simple⟩

/-- A template that does not overreach resolves to what it stands for. -/
theorem standsFor_resolveString (h : ¬ Overreaches s.toList) :
    StandsFor scope tr s (resolveString scope tr s) := by
  rw [resolveString]
  cases taken : soleHole? s.toList with
  | some expr =>
    have sole := (sole_or_overreaches taken).resolve_right h
    dsimp only
    cases found : lookup scope tr expr with
    | none => exact .missing sole found
    | some v => exact .found sole found
  | none =>
    refine standsFor_filled fun expr sole => ?_
    rw [soleHole?_of_sole sole] at taken
    cases taken

/-! ### Texts that overreach -/

theorem Overreaches.mixed (h : Overreaches cs) (inside : List Char) : ¬ Sole cs inside := by
  intro sole
  obtain ⟨expr, rest, whole, -, -⟩ := h
  have same := List.append_cancel_left (List.append_cancel_right (sole.whole.symm.trans whole))
  exact sole.simple (same ▸ List.infix_append expr closing rest)

/-- All that stands between the outer braces is looked up. -/
theorem Overreaches.taken (h : Overreaches cs) :
    ∃ inside, soleHole? cs = some inside ∧ closing <:+: inside := by
  obtain ⟨expr, rest, whole, shortest, plain⟩ := h
  refine ⟨expr ++ closing ++ rest, soleHole?_eq_some_iff.mpr ⟨whole, ?_⟩,
    List.infix_append expr closing rest⟩
  rw [whole]
  exact (holes_of_early shortest).mpr plain

/-- Nothing but the first closing braces of such a text ends a placeholder. -/
theorem firstHole?_tail {blanks : List Char} (plain : ¬ opening <:+: rest) (clear : '}' ∉ blanks) :
    firstHole? (rest ++ closing ++ blanks) = none := by
  refine firstHole?_eq_none_iff.mpr fun b e a same => ?_
  have parts : b ++ opening ++ e ++ closing ++ a = rest ++ closing ++ blanks := by
    rw [same]
    simp only [List.append_assoc]
  have closed := firstHole?_eq_none_iff.mp (firstHole?_closed.mpr plain)
  rcases List.append_eq_append_iff.mp parts with ⟨a', eq, -⟩ | ⟨extra, eq, eq'⟩
  · exact closed b e a' (by rw [eq]; simp only [List.append_assoc])
  · rcases extra.eq_nil_or_concat with rfl | ⟨extra, c, rfl⟩
    · exact closed b e [] (by simpa using eq.symm)
    · have ends : (b ++ opening ++ e ++ ['}']) ++ ['}'] = (rest ++ closing ++ extra) ++ [c] := by
        simpa [closing] using eq
      obtain rfl := List.singleton_inj.mp (List.append_inj' ends rfl).2
      exact clear (by rw [eq']; simp)

theorem Overreaches.filled_ne_nil (h : Overreaches cs) :
    (pieces cs).flatMap (Piece.fill scope tr) ≠ [] := by
  obtain ⟨expr, rest, whole, shortest, plain⟩ := h
  obtain ⟨l, r, cut, hl, hr⟩ := Text.exists_trimChars cs
  have first : firstHole? cs = some (l, expr, rest ++ closing ++ r) := by
    refine firstHole?_eq_some_iff.mpr ⟨?_, Earliest.of_not_mem ?_, ?_⟩
    · rw [cut, whole]
      simp only [List.append_assoc]
    · intro brace
      exact absurd (hl _ brace) (by decide)
    · rw [List.append_assoc]
      exact shortest.append _
  have last : firstHole? (rest ++ closing ++ r) = none :=
    firstHole?_tail plain fun brace => absurd (hr _ brace) (by decide)
  rw [pieces_of_some first, pieces_of_none last]
  simp [Piece.fill, closing]

/-- An object or array around null, so that the path leads there. -/
def nest : Path → Json
  | [] => .null
  | .key k :: rest => .obj [(k, nest rest)]
  | .index i :: rest => .arr (List.replicate i .null ++ [nest rest])

theorem at?_nest (path : Path) : (nest path).at? path = some .null := by
  induction path with
  | nil => rfl
  | cons s rest ih =>
    cases s with
    | key k => simp [nest, Json.at?, Json.step?, Json.lookup, ih]
    | index i => simp [nest, Json.at?, Json.step?, ih]

/-- Whatever is not blank can be found, or translated. -/
theorem exists_lookup (present : Text.trimChars inside ≠ []) :
    (∃ scope, lookup scope noTranslations inside = some .null) ∨
      ∀ scope t, lookup scope (fun _ => some t) inside = some (.str t) := by
  by_cases key : ∃ key, Text.trimChars inside = 't' :: ':' :: key
  · obtain ⟨key, eq⟩ := key
    exact .inr fun scope t => by simp [lookup, eq]
  · refine .inl ⟨nest (Path.parseChars (Text.trimChars inside)), ?_⟩
    rw [lookup]
    split
    · rename_i k eq
      exact absurd ⟨k, eq⟩ key
    · rename_i eq
      exact absurd eq present
    · exact at?_nest _

/-- A template that overreaches does not resolve everywhere to what it stands for. -/
theorem Overreaches.strays (h : Overreaches s.toList) :
    ∃ scope tr, ¬ StandsFor scope tr s (resolveString scope tr s) := by
  obtain ⟨inside, taken, closes⟩ := h.taken
  have present : Text.trimChars inside ≠ [] := by
    intro blank
    obtain ⟨l, r, cut, hl, hr⟩ := Text.exists_trimChars inside
    have brace : '}' ∈ inside := closes.subset (by simp [closing])
    rw [cut, blank] at brace
    simp only [List.append_nil, List.mem_append] at brace
    exact absurd (brace.elim (hl _) (hr _)) (by decide)
  have filled (scope : Json) (tr : Translator) : StandsFor scope tr s
      (.str (String.ofList ((pieces s.toList).flatMap (Piece.fill scope tr)))) :=
    standsFor_filled h.mixed
  rcases exists_lookup present with ⟨scope, found⟩ | translated
  · refine ⟨scope, noTranslations, fun stands => ?_⟩
    rw [resolveString, taken] at stands
    simp only [found, Option.getD_some] at stands
    cases stands.unique (filled _ _)
  · refine ⟨.null, fun _ => some "", fun stands => ?_⟩
    rw [resolveString, taken] at stands
    simp only [translated, Option.getD_some] at stands
    have same := Json.str.inj (stands.unique (filled _ _))
    exact h.filled_ne_nil (String.toList_ofList.symm.trans (congrArg String.toList same.symm))

/-! ### Resolving -/

/-- A template resolves to what it stands for, whatever the scope and the translations, exactly if it
does not overreach. -/
theorem stands_for_iff (s : String) :
    (∀ scope tr, StandsFor scope tr s (resolve scope tr (.str s))) ↔ ¬ Overreaches s.toList := by
  constructor
  · intro stands h
    obtain ⟨scope, tr, strays⟩ := h.strays
    exact strays (stands scope tr)
  · exact fun h scope tr => standsFor_resolveString h

/-- Every template resolves to what it stands for. -/
def ResolvesAsWritten : Prop :=
  ∀ (s : String) (scope : Json) (tr : Translator), StandsFor scope tr s (resolve scope tr (.str s))

/-- The text goes on behind its only placeholder, and ends in closing braces. -/
theorem not_resolvesAsWritten : ¬ ResolvesAsWritten := by
  intro resolves
  let template := "\x7b\x7ba\x7d\x7d b\x7d\x7d"
  let scope : Json := .obj [("a", .int 1)]
  have early : Overreaches template.toList :=
    ⟨['a'], [' ', 'b'], by decide, Earliest.of_not_mem (by decide), by decide⟩
  have kept : resolve scope noTranslations (.str template) = .str template := by decide +kernel
  have meant : (pieces template.toList).flatMap (Piece.fill scope noTranslations) =
      "1 b\x7d\x7d".toList := by decide +kernel
  have stands := (resolves template scope noTranslations).unique (standsFor_filled early.mixed)
  rw [kept, meant, String.ofList_toList] at stands
  exact absurd (Json.str.inj stands) (by decide)

end ScreenFlow.Template
