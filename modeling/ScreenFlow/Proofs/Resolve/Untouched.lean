import ScreenFlow.Proofs.Resolve.Payload
import ScreenFlow.Proofs.Resolve.Placeholders

/-!
# Values that filling in leaves alone

Filling in a value replaces the placeholders of its texts that name something. All else stays: the
keys of its objects, the length of its arrays, its other leaves, and every text in which nothing
between braces names anything.

* `inert_iff`: filling in changes nothing exactly if each text of the value stands for itself;
* `unnamed_iff`: whether something between braces names anything can be computed;
* `resolveString_of_unnamed`: a text in which nothing does stands for itself;
* `Plain.inert`: a value without opening braces is left alone, whatever the scope;
* `keeps_resolve`: what is left of every value;
* `unresolvable_untouched`: both for every template, scope and translator.
-/

namespace ScreenFlow.Template

variable {scope : Json} {tr : Translator} {s : String} {cs : List Char} {ps : List Piece}

mutual

/-- Every text in the value has the property; keys do not count. -/
def EachText (P : String → Prop) : Json → Prop
  | .str s => P s
  | .arr items => EachTextOfItems P items
  | .obj fields => EachTextOfFields P fields
  | _ => True

def EachTextOfItems (P : String → Prop) : List Json → Prop
  | [] => True
  | v :: rest => EachText P v ∧ EachTextOfItems P rest

def EachTextOfFields (P : String → Prop) : List (String × Json) → Prop
  | [] => True
  | (_, v) :: rest => EachText P v ∧ EachTextOfFields P rest

end

mutual

theorem EachText.imp {P Q : String → Prop} (h : ∀ s, P s → Q s) :
    ∀ {v : Json}, EachText P v → EachText Q v
  | .null, _ | .bool _, _ | .num _, _ => trivial
  | .str s, hs => h s hs
  | .arr _, hitems => EachTextOfItems.imp h hitems
  | .obj _, hfields => EachTextOfFields.imp h hfields

theorem EachTextOfItems.imp {P Q : String → Prop} (h : ∀ s, P s → Q s) :
    ∀ {vs : List Json}, EachTextOfItems P vs → EachTextOfItems Q vs
  | [], _ => trivial
  | _ :: _, hvs => ⟨EachText.imp h hvs.1, EachTextOfItems.imp h hvs.2⟩

theorem EachTextOfFields.imp {P Q : String → Prop} (h : ∀ s, P s → Q s) :
    ∀ {fs : List (String × Json)}, EachTextOfFields P fs → EachTextOfFields Q fs
  | [], _ => trivial
  | (_, _) :: _, hfs => ⟨EachText.imp h hfs.1, EachTextOfFields.imp h hfs.2⟩

end

/-- Every text in the value stands for itself. -/
def Inert (scope : Json) (tr : Translator) : Json → Prop :=
  EachText fun s => resolveString scope tr s = .str s

mutual

theorem inert_iff : ∀ {v : Json}, Inert scope tr v ↔ resolve scope tr v = v
  | .null | .bool _ | .num _ => by simp [Inert, EachText, resolve]
  | .str s => by simp [Inert, EachText, resolve]
  | .arr items => by
    rw [Inert, EachText, resolve, Json.arr.injEq]
    exact inertItems_iff
  | .obj fields => by
    rw [Inert, EachText, resolve, Json.obj.injEq]
    exact inertFields_iff

theorem inertItems_iff : ∀ {vs : List Json},
    EachTextOfItems (fun s => resolveString scope tr s = .str s) vs ↔ resolveItems scope tr vs = vs
  | [] => by simp [EachTextOfItems, resolveItems]
  | v :: rest => by
    rw [EachTextOfItems, resolveItems, List.cons.injEq, inertItems_iff]
    exact and_congr_left fun _ => inert_iff

theorem inertFields_iff : ∀ {fs : List (String × Json)},
    EachTextOfFields (fun s => resolveString scope tr s = .str s) fs ↔
      resolveFields scope tr fs = fs
  | [] => by simp [EachTextOfFields, resolveFields]
  | (k, v) :: rest => by
    rw [EachTextOfFields, resolveFields, List.cons.injEq, Prod.mk.injEq, inertFields_iff]
    refine and_congr_left fun _ => ?_
    rw [and_iff_right rfl]
    exact inert_iff

end

/-! ### Texts in which nothing is named -/

/-- Nothing that stands between opening braces and closing braces behind them names a value. -/
def Unnamed (scope : Json) (tr : Translator) (s : String) : Prop :=
  ∀ expr, opening ++ expr ++ closing <:+: s.toList → lookup scope tr expr = none

/-- What stands between braces in a text is a part of it, and of those there are finitely many. -/
theorem unnamed_iff : Unnamed scope tr s ↔
    ∀ i < s.toList.length, ∀ j < s.toList.length,
      Text.containsChars (opening ++ (s.toList.drop i).take j ++ closing) s.toList = true →
        (lookup scope tr ((s.toList.drop i).take j)).isNone = true := by
  simp only [Option.isNone_iff_eq_none, Text.containsChars, Text.splitAt?_isSome_iff]
  constructor
  · exact fun unnamed i _ j _ => unnamed _
  · rintro parts expr ⟨before, after, same⟩
    have part : (s.toList.drop (before.length + 2)).take expr.length = expr := by
      rw [← same]
      simp [opening, List.drop_append, List.drop_eq_nil_of_le]
    have long := congrArg List.length same
    simp only [List.length_append, opening, closing, List.length_cons, List.length_nil] at long
    have found := parts (before.length + 2) (by omega) expr.length (by omega)
    rw [part] at found
    exact found ⟨before, after, same⟩

instance : Decidable (Unnamed scope tr s) := decidable_of_iff' _ unnamed_iff

/-- Placeholders that name nothing are put back between the texts around them. -/
theorem filled_of_scanned (scanned : Scanned cs ps)
    (unnamed : ∀ expr, opening ++ expr ++ closing <:+: cs → lookup scope tr expr = none) :
    ps.flatMap (Piece.fill scope tr) = cs := by
  induction scanned with
  | rest => simp [Piece.fill]
  | @hole before expr after ps _ _ _ ih =>
    have here : lookup scope tr expr = none := unnamed expr ⟨before, after, by simp⟩
    have behind : ps.flatMap (Piece.fill scope tr) = after := by
      refine ih fun e enclosed => unnamed e (enclosed.trans ?_)
      exact ⟨before ++ opening ++ expr ++ closing, [], by simp⟩
    simp [Piece.fill, here, behind]

theorem resolveString_of_unnamed (unnamed : Unnamed scope tr s) :
    resolveString scope tr s = .str s := by
  rw [resolveString]
  cases taken : soleHole? s.toList with
  | some inside =>
    obtain ⟨whole, -⟩ := soleHole?_eq_some_iff.mp taken
    obtain ⟨l, r, cut, -, -⟩ := Text.exists_trimChars s.toList
    have missing := unnamed inside ⟨l, r, by rw [← whole, ← cut]⟩
    simp [missing]
  | none =>
    have filled := filled_of_scanned (scanned_pieces s.toList) unnamed
    simp [filled]

/-- A text has no placeholder if nothing in it stands between braces. -/
theorem hasPlaceholder_eq_false_iff :
    hasPlaceholder s = false ↔ ∀ expr, ¬ opening ++ expr ++ closing <:+: s.toList := by
  have none_iff : firstHole? s.toList = none ↔ hasPlaceholder s = false := by
    cases h : firstHole? s.toList with
    | none => simp [hasPlaceholder, holes_of_none h]
    | some found => simp [hasPlaceholder, holes_of_some h]
  rw [← none_iff, firstHole?_eq_none_iff]
  constructor
  · rintro none expr ⟨before, after, same⟩
    exact none before expr after (by rw [← same]; simp)
  · intro none before expr after same
    exact none expr ⟨before, after, by rw [same]; simp⟩

/-- No text in the value has opening braces. -/
def Plain : Json → Prop := EachText fun s => ¬ opening <:+: s.toList

theorem unnamed_of_plain (plain : ¬ opening <:+: s.toList) : Unnamed scope tr s := by
  refine fun expr enclosed => absurd (List.IsInfix.trans ?_ enclosed) plain
  exact ⟨[], expr ++ closing, by simp⟩

theorem Plain.inert {v : Json} (plain : Plain v) : Inert scope tr v :=
  EachText.imp (fun _ h => resolveString_of_unnamed (unnamed_of_plain h)) plain

/-! ### What is left of a value -/

/-- The second value differs from the first in texts only, and only in those with a placeholder. -/
inductive Keeps : Json → Json → Prop
  | null : Keeps .null .null
  | bool (b : Bool) : Keeps (.bool b) (.bool b)
  | num (n : Number) : Keeps (.num n) (.num n)
  | str {s : String} {v : Json} (kept : hasPlaceholder s = false → v = .str s) : Keeps (.str s) v
  | arr {items items' : List Json} (kept : List.Forall₂ Keeps items items') :
      Keeps (.arr items) (.arr items')
  | obj {fields fields' : List (String × Json)} (keys : fields'.map (·.1) = fields.map (·.1))
      (kept : List.Forall₂ Keeps (fields.map (·.2)) (fields'.map (·.2))) :
      Keeps (.obj fields) (.obj fields')

theorem keeps_resolveString (s : String) : Keeps (.str s) (resolveString scope tr s) := by
  refine .str fun none => resolveString_of_unnamed fun expr enclosed => ?_
  exact absurd enclosed (hasPlaceholder_eq_false_iff.mp none expr)

mutual

theorem keeps_resolve : ∀ v : Json, Keeps v (resolve scope tr v)
  | .null => by simpa [resolve] using Keeps.null
  | .bool b => by simpa [resolve] using Keeps.bool b
  | .num n => by simpa [resolve] using Keeps.num n
  | .str s => by
    rw [resolve]
    exact keeps_resolveString s
  | .arr items => by
    rw [resolve]
    exact .arr (keeps_resolveItems items)
  | .obj fields => by
    rw [resolve]
    exact .obj (keys_resolveFields fields) (keeps_resolveFields fields)

theorem keeps_resolveItems : ∀ vs : List Json, List.Forall₂ Keeps vs (resolveItems scope tr vs)
  | [] => .nil
  | v :: rest => .cons (keeps_resolve v) (keeps_resolveItems rest)

theorem keeps_resolveFields : ∀ fs : List (String × Json),
    List.Forall₂ Keeps (fs.map (·.2)) ((resolveFields scope tr fs).map (·.2))
  | [] => .nil
  | (_, v) :: rest => .cons (keeps_resolve v) (keeps_resolveFields rest)

end

/-- A template in which nothing between braces names anything is left as it is. Of every template the
objects with their keys, the arrays with their lengths, the leaves that are no texts and the texts
without a placeholder are left. -/
theorem unresolvable_untouched (scope : Json) (tr : Translator) (template : Json) :
    (EachText (Unnamed scope tr) template → resolve scope tr template = template) ∧
      Keeps template (resolve scope tr template) := by
  refine ⟨fun unnamed => ?_, keeps_resolve template⟩
  exact inert_iff.mp (EachText.imp (fun _ => resolveString_of_unnamed) unnamed)

/-- Placeholders that name nothing, one of them with braces in it. -/
theorem unresolvable_untouched_braces :
    let scope : Json := .obj [("y", .bool true)]
    let template : Json := .obj [("title", .arr [.str "{{x}}é{{ {y} }}", .str "{{t:hello}}"]), ("y", .null)]
    EachText (Unnamed scope noTranslations) template ∧
      resolve scope noTranslations template = template := by
  intro scope template
  have unnamed : EachText (Unnamed scope noTranslations) template := by
    have texts : Unnamed scope noTranslations "{{x}}é{{ {y} }}" ∧
        Unnamed scope noTranslations "{{t:hello}}" := by decide +kernel
    exact ⟨⟨texts.1, texts.2, trivial⟩, trivial, trivial⟩
  exact ⟨unnamed, (unresolvable_untouched scope noTranslations template).1 unnamed⟩

end ScreenFlow.Template
