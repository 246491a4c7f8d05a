import ScreenFlow.Path
import ScreenFlow.Json.Printer

/-!
# Templates

A string that is one placeholder `{{expr}}` stands for the value it names, with its type. In any
other string each placeholder, taken from the left as the shortest `{{...}}`, is replaced by the
value's text. `{{t:key}}` names a translation. A placeholder that names nothing stays as written,
and inserted text is not scanned again.
-/

namespace ScreenFlow.Template

/-- Looks up the translation of a key. -/
abbrev Translator := String → Option String

def noTranslations : Translator := fun _ => none

def opening : List Char := ['{', '{']

def closing : List Char := ['}', '}']

/-- A string cut into plain text and the insides of its placeholders. -/
inductive Piece where
  | text (cs : List Char)
  | hole (expr : List Char)
deriving DecidableEq, Repr

/-- Cuts off the first placeholder: the text before it, its inside, and the text after it. -/
def firstHole? (cs : List Char) : Option (List Char × List Char × List Char) :=
  match Text.splitAt? opening cs with
  | none => none
  | some (before, rest) =>
    match Text.splitAt? closing rest with
    | none => none
    | some (expr, after) => some (before, expr, after)

theorem splitAt?_length {pat cs before after : List Char}
    (h : Text.splitAt? pat cs = some (before, after)) : after.length ≤ cs.length := by
  induction cs generalizing before after with
  | nil =>
    simp only [Text.splitAt?] at h
    split at h <;> simp_all
  | cons c cs ih =>
    simp only [Text.splitAt?] at h
    split at h
    · rename_i rest hr
      simp only [Option.some.injEq, Prod.mk.injEq] at h
      obtain ⟨-, rfl⟩ := h
      exact dropPrefix_length hr
    · simp only [Option.map_eq_some_iff, Prod.mk.injEq] at h
      obtain ⟨⟨b, a⟩, ha, _, rfl⟩ := h
      exact Nat.le_succ_of_le (ih ha)
where
  dropPrefix_length {p s r : List Char} (h : Text.dropPrefix? p s = some r) :
      r.length ≤ s.length := by
    induction p generalizing s with
    | nil => simp only [Text.dropPrefix?, Option.some.injEq] at h; subst h; exact Nat.le_refl _
    | cons x p ih =>
      cases s with
      | nil => simp [Text.dropPrefix?] at h
      | cons c s =>
        simp only [Text.dropPrefix?] at h
        split at h
        · exact Nat.le_succ_of_le (ih h)
        · cases h

theorem splitAt?_length_lt {p : Char} {pat cs before after : List Char}
    (h : Text.splitAt? (p :: pat) cs = some (before, after)) : after.length < cs.length := by
  induction cs generalizing before after with
  | nil => simp [Text.splitAt?] at h
  | cons c cs ih =>
    simp only [Text.splitAt?] at h
    split at h
    · rename_i rest hr
      simp only [Option.some.injEq, Prod.mk.injEq] at h
      obtain ⟨-, rfl⟩ := h
      simp only [Text.dropPrefix?] at hr
      split at hr
      · exact Nat.lt_succ_of_le (splitAt?_length.dropPrefix_length hr)
      · cases hr
    · simp only [Option.map_eq_some_iff, Prod.mk.injEq] at h
      obtain ⟨⟨b, a⟩, ha, _, rfl⟩ := h
      exact Nat.lt_succ_of_lt (ih ha)

theorem firstHole?_length {cs before expr after : List Char}
    (h : firstHole? cs = some (before, expr, after)) : after.length < cs.length := by
  unfold firstHole? at h
  split at h
  · cases h
  · rename_i b rest hb
    split at h
    · cases h
    · rename_i e a ha
      simp only [Option.some.injEq, Prod.mk.injEq] at h
      obtain ⟨_, _, rfl⟩ := h
      exact Nat.lt_trans (splitAt?_length_lt ha) (splitAt?_length_lt hb)

/-- The pieces of a string, in order. -/
def pieces (cs : List Char) : List Piece :=
  match _h : firstHole? cs with
  | none => [.text cs]
  | some (before, expr, after) => .text before :: .hole expr :: pieces after
termination_by cs.length
decreasing_by exact firstHole?_length _h

def holes (cs : List Char) : List (List Char) :=
  (pieces cs).filterMap fun
    | .hole expr => some expr
    | .text _ => none

/-- Whether the string has a placeholder at all. -/
def hasPlaceholder (s : String) : Bool := !(holes s.toList).isEmpty

/-- The value that the inside of a placeholder names. -/
def lookup (scope : Json) (translate : Translator) (expr : List Char) : Option Json :=
  let expr := Text.trimChars expr
  match expr with
  | 't' :: ':' :: key => (translate (String.ofList (Text.trimChars key))).map .str
  | [] => none
  | _ => scope.at? (Path.parseChars expr)

/-- The text that a piece becomes. -/
def Piece.fill (scope : Json) (translate : Translator) : Piece → List Char
  | .text cs => cs
  | .hole expr =>
    match lookup scope translate expr with
    | some v => v.inlineText.toList
    | none => opening ++ expr ++ closing

/-- The inside of a string that is one placeholder and nothing else but blanks around it. -/
def soleHole? (cs : List Char) : Option (List Char) :=
  let trimmed := Text.trimChars cs
  if Text.endsWith (String.ofList trimmed) "\x7d\x7d" && (holes trimmed).length == 1 then
    (Text.dropPrefix? opening trimmed).map fun rest => rest.take (rest.length - 2)
  else none

def resolveString (scope : Json) (translate : Translator) (s : String) : Json :=
  match soleHole? s.toList with
  | some expr => (lookup scope translate expr).getD (.str s)
  | none => .str (String.ofList ((pieces s.toList).flatMap (Piece.fill scope translate)))

mutual

/-- Replaces the placeholders in every string of a value; keys stay. -/
def resolve (scope : Json) (translate : Translator) : Json → Json
  | .str s => resolveString scope translate s
  | .arr items => .arr (resolveItems scope translate items)
  | .obj fields => .obj (resolveFields scope translate fields)
  | v => v

def resolveItems (scope : Json) (translate : Translator) : List Json → List Json
  | [] => []
  | v :: rest => resolve scope translate v :: resolveItems scope translate rest

def resolveFields (scope : Json) (translate : Translator) :
    List (String × Json) → List (String × Json)
  | [] => []
  | (k, v) :: rest => (k, resolve scope translate v) :: resolveFields scope translate rest

end

/-- Resolves a template that is wanted as text. -/
def resolveText (scope : Json) (translate : Translator) (s : String) : String :=
  (resolveString scope translate s).inlineText

end ScreenFlow.Template
