import Mathlib.Data.List.Pairwise
import ScreenFlow.Http.Headers

/-!
# Header maps

* `exists_insert`, `exists_set`: a header that is put in or set stands among the others;
* `filter_set`, `filter_set_other`: it is the only one of its name, and the others stay;
* `Last`: the field that wins among the spellings of its name;
* `OneSpelling.set`, `OneSpelling.remove`: setting and removing keep one spelling of each name;
* `oneSpelling_insertNew_iff`, `oneSpelling_addNew_iff`: fields that are added unless their very
  spelling is there keep it so exactly if no other spelling is there.
-/

namespace ScreenFlow

namespace Text

theorem sameName_comm (a b : String) : sameName a b = sameName b a := BEq.comm

end Text

namespace Headers

variable {hs : Headers} {name value : String}

theorem has_eq_any (hs : Headers) (name : String) :
    hs.has name = hs.any fun h => Text.sameName h.1 name := by
  rw [has, find?, Option.isSome_map, List.isSome_find?]

theorem has_iff : hs.has name = true ↔ ∃ h ∈ hs, Text.sameName h.1 name = true := by
  rw [has_eq_any, List.any_eq_true]

theorem has_eq_false_iff : hs.has name = false ↔ ∀ h ∈ hs, Text.sameName h.1 name = false := by
  simp [has_eq_any]

theorem other_of_mem_remove {h : String × String} (hmem : h ∈ hs.remove name) :
    Text.sameName h.1 name = false := by
  simpa using (List.mem_filter.mp hmem).2

/-- A field whose very spelling is missing is put somewhere among the others. -/
theorem exists_insert (absent : ∀ h ∈ hs, h.1 ≠ name) (value : String) : ∃ before after,
    hs = before ++ after ∧ hs.insert name value = before ++ (name, value) :: after := by
  have behind : (hs.dropWhile (·.1 < name)).dropWhile (·.1 == name) =
      hs.dropWhile (·.1 < name) := by
    cases hrest : hs.dropWhile (·.1 < name) with
    | nil => rfl
    | cons g rest =>
      apply List.dropWhile_cons_of_neg
      intro same
      have there : g ∈ hs := (List.dropWhile_sublist _).subset (hrest ▸ List.mem_cons_self)
      exact absent g there (eq_of_beq same)
  refine ⟨hs.takeWhile (·.1 < name), hs.dropWhile (·.1 < name),
    List.takeWhile_append_dropWhile.symm, ?_⟩
  rw [insert, behind]

/-- What is set stands somewhere among what has other names. -/
theorem exists_set (hs : Headers) (name value : String) : ∃ before after,
    hs.remove name = before ++ after ∧ hs.set name value = before ++ (name, value) :: after := by
  refine exists_insert (fun h hmem same => ?_) value
  have spelled := other_of_mem_remove hmem
  rw [same, Text.sameName, beq_self_eq_true] at spelled
  cases spelled

theorem mem_set {h : String × String} (there : h ∈ hs.set name value) :
    h = (name, value) ∨ h ∈ hs := by
  obtain ⟨before, after, removed, set⟩ := exists_set hs name value
  have old {part : Headers} (sub : part ⊆ before ++ after) (there : h ∈ part) : h ∈ hs :=
    (List.mem_filter.mp (removed ▸ sub there : h ∈ hs.remove name)).1
  rw [set] at there
  rcases List.mem_append.mp there with early | late
  · exact .inr (old (List.subset_append_left _ _) early)
  · exact (List.mem_cons.mp late).imp_right (old (List.subset_append_right _ _))

/-- A name that is there in no spelling is added. -/
theorem set_perm (h : hs.has name = false) (value : String) :
    (hs.set name value).Perm ((name, value) :: hs) := by
  have unchanged : hs.remove name = hs :=
    List.filter_eq_self.mpr fun g hg => by rw [has_eq_false_iff.mp h g hg]; rfl
  obtain ⟨before, after, removed, set⟩ := exists_set hs name value
  rw [set, ← unchanged, removed]
  exact List.perm_middle

/-- What was set is the only header of its name. -/
theorem filter_set (hs : Headers) (name value : String) :
    (hs.set name value).filter (Text.sameName ·.1 name) = [(name, value)] := by
  obtain ⟨before, after, removed, set⟩ := exists_set hs name value
  have gone {part : Headers} (sub : part ⊆ before ++ after) :
      part.filter (Text.sameName ·.1 name) = [] := by
    apply List.filter_eq_nil_iff.mpr
    intro h hh
    have other := other_of_mem_remove (removed ▸ sub hh)
    simp [other]
  rw [set, List.filter_append, List.filter_cons_of_pos (by simp [Text.sameName]),
    gone (List.subset_append_left _ _), gone (List.subset_append_right _ _), List.nil_append]

/-- Headers of other names stay as they are. -/
theorem filter_set_other (hs : Headers) (name value : String) :
    (hs.set name value).filter (!Text.sameName ·.1 name) =
      hs.filter (!Text.sameName ·.1 name) := by
  obtain ⟨before, after, removed, set⟩ := exists_set hs name value
  have kept : (hs.remove name).filter (!Text.sameName ·.1 name) = hs.remove name := by
    apply List.filter_eq_self.mpr
    intro h hh
    rw [other_of_mem_remove hh]
    rfl
  rw [set, List.filter_append, List.filter_cons_of_neg (by simp [Text.sameName]),
    ← List.filter_append, ← removed, kept]
  rfl

/-! ### Several spellings -/

section Spellings

variable {more : Headers} {h : String × String}

/-- The field is the last one of its name, whatever the spelling. -/
def Last (hs : List (String × String)) (name value : String) : Prop :=
  ∃ before after, hs = before ++ (name, value) :: after ∧
    ∀ h ∈ after, Text.sameName h.1 name = false

/-- In key order, it is the one with the greatest spelling. -/
theorem last_iff (ascending : hs.Pairwise (·.1 < ·.1)) : Last hs name value ↔
    (name, value) ∈ hs ∧ ∀ h ∈ hs, Text.sameName h.1 name = true → h.1 ≤ name := by
  constructor
  · rintro ⟨before, after, rfl, others⟩
    refine ⟨by simp, fun h hh same => ?_⟩
    rcases List.mem_append.mp hh with early | late
    · have before := (List.pairwise_append.mp ascending).2.2 h early _ List.mem_cons_self
      exact String.not_lt.mp (String.lt_asymm before)
    rcases List.mem_cons.mp late with rfl | later
    · exact String.le_refl _
    · rw [others h later] at same
      cases same
  · rintro ⟨there, greatest⟩
    obtain ⟨before, after, rfl⟩ := List.append_of_mem there
    refine ⟨before, after, rfl, fun h hh => ?_⟩
    cases same : Text.sameName h.1 name with
    | false => rfl
    | true =>
      have behind := (List.pairwise_cons.mp (List.pairwise_append.mp ascending).2.1).1 h hh
      exact absurd (greatest h (by simp [hh]) same) (String.not_le.mpr behind)

theorem Last.append_right (h : Last more name value) (hs : Headers) :
    Last (hs ++ more) name value := by
  obtain ⟨before, after, rfl, others⟩ := h
  exact ⟨hs ++ before, after, (List.append_assoc ..).symm, others⟩

theorem Last.append_left (h : Last hs name value)
    (unused : ∀ f ∈ more, Text.sameName f.1 name = false) : Last (hs ++ more) name value := by
  obtain ⟨before, after, rfl, others⟩ := h
  refine ⟨before, after ++ more, by simp, fun f hf => ?_⟩
  rcases List.mem_append.mp hf with early | late
  · exact others f early
  · exact unused f late

theorem mem_set_self (hs : Headers) (name value : String) : (name, value) ∈ hs.set name value := by
  obtain ⟨before, after, -, set⟩ := exists_set hs name value
  rw [set]
  exact List.mem_append_right _ List.mem_cons_self

theorem mem_remove_of_other (there : h ∈ hs) (other : Text.sameName h.1 name = false) :
    h ∈ hs.remove name :=
  List.mem_filter.mpr ⟨there, by rw [other]; rfl⟩

theorem mem_set_of_other (there : h ∈ hs) (other : Text.sameName h.1 name = false)
    (value : String) : h ∈ hs.set name value := by
  obtain ⟨before, after, removed, set⟩ := exists_set hs name value
  have kept := mem_remove_of_other there other
  rw [removed] at kept
  rw [set]
  exact List.mem_append.mpr ((List.mem_append.mp kept).imp_right (List.mem_cons_of_mem _))

/-- At most one field more, of a name that is not there. -/
inductive AtMostOneMore (hs : Headers) : Headers → Prop
  | same : AtMostOneMore hs hs
  | added {name value hs'} (absent : ∀ h ∈ hs, Text.sameName h.1 name = false)
      (perm : hs'.Perm ((name, value) :: hs)) : AtMostOneMore hs hs'

end Spellings

/-! ### One spelling -/

/-- No two names differ in the case of their letters alone. -/
def OneSpelling (hs : Headers) : Prop := hs.Pairwise fun a b => Text.sameName a.1 b.1 = false

instance : DecidablePred OneSpelling := fun hs =>
  inferInstanceAs (Decidable (hs.Pairwise fun a b : String × String => Text.sameName a.1 b.1 = false))

/-- Where the fields have a header of this name, they have it in this very spelling. -/
def Agrees (hs : Headers) (name : String) : Prop :=
  ∀ h ∈ hs, Text.sameName h.1 name = true → h.1 = name

instance : Std.Symm fun a b : String × String => Text.sameName a.1 b.1 = false where
  symm a b apart := by rwa [Text.sameName_comm]

theorem oneSpelling_perm {hs' : Headers} (h : hs.Perm hs') : hs.OneSpelling ↔ hs'.OneSpelling :=
  h.pairwise_iff fun {a b} other => by rwa [Text.sameName_comm]

theorem oneSpelling_cons_iff {h : String × String} : OneSpelling (h :: hs) ↔
    (∀ g ∈ hs, Text.sameName g.1 h.1 = false) ∧ hs.OneSpelling := by
  simp only [OneSpelling, List.pairwise_cons, Text.sameName_comm h.1]

/-- Where headers have one spelling each, a name belongs to one of them. -/
theorem OneSpelling.eq_of_sameName (distinct : hs.OneSpelling) {g h : String × String} (hg : g ∈ hs)
    (hh : h ∈ hs) (same : Text.sameName g.1 h.1 = true) : g = h := by
  refine Decidable.byContradiction fun other => ?_
  have apart : Text.sameName g.1 h.1 = false := List.Pairwise.forall distinct hg hh other
  rw [apart] at same
  cases same

theorem OneSpelling.remove (h : hs.OneSpelling) (name : String) : (hs.remove name).OneSpelling :=
  h.filter _

theorem OneSpelling.set (h : hs.OneSpelling) (name value : String) :
    (hs.set name value).OneSpelling := by
  obtain ⟨before, after, removed, set⟩ := exists_set hs name value
  rw [set, oneSpelling_perm List.perm_middle, ← removed, oneSpelling_cons_iff]
  exact ⟨fun g hg => other_of_mem_remove hg, h.remove name⟩

theorem insertNew_of_any (there : ∃ h ∈ hs, h.1 = name) : hs.insertNew name value = hs := by
  have found : hs.any (·.1 == name) = true := by simpa using there
  rw [insertNew, if_pos found]

theorem insertNew_of_absent (absent : ∀ h ∈ hs, h.1 ≠ name) :
    hs.insertNew name value = hs.insert name value := by
  have missing : hs.any (·.1 == name) = false := by simpa using absent
  rw [insertNew, missing, if_neg Bool.false_ne_true]

/-- The very spelling is there, or the field is put among the others. -/
theorem insertNew_cases (hs : Headers) (name value : String) :
    ((∃ h ∈ hs, h.1 = name) ∧ hs.insertNew name value = hs) ∨
    ((∀ h ∈ hs, h.1 ≠ name) ∧ ∃ before after, hs = before ++ after ∧
      hs.insertNew name value = before ++ (name, value) :: after) := by
  by_cases there : ∃ h ∈ hs, h.1 = name
  · exact .inl ⟨there, insertNew_of_any there⟩
  · have absent : ∀ h ∈ hs, h.1 ≠ name := fun h hh same => there ⟨h, hh, same⟩
    exact .inr ⟨absent, insertNew_of_absent absent ▸ exists_insert absent value⟩

/-- What is there stays. -/
theorem sublist_insertNew (hs : Headers) (name value : String) :
    hs.Sublist (hs.insertNew name value) := by
  rcases insertNew_cases hs name value with ⟨-, same⟩ | ⟨-, before, after, parts, inserted⟩
  · exact same.symm ▸ List.Sublist.refl hs
  · rw [inserted]
    exact parts ▸ List.Sublist.append_left (List.sublist_cons_self _ _) before

theorem mem_insertNew {h : String × String} (hh : h ∈ hs.insertNew name value) :
    h ∈ hs ∨ h = (name, value) := by
  rcases insertNew_cases hs name value with ⟨-, same⟩ | ⟨-, before, after, parts, inserted⟩
  · exact .inl (same ▸ hh)
  · rw [inserted] at hh
    rw [parts]
    rcases List.mem_append.mp hh with early | late
    · exact .inl (List.mem_append_left _ early)
    · rcases List.mem_cons.mp late with rfl | later
      · exact .inr rfl
      · exact .inl (List.mem_append_right _ later)

/-- One field more: it must not be there in another spelling. -/
theorem oneSpelling_insertNew_iff (distinct : hs.OneSpelling) (value : String) :
    (hs.insertNew name value).OneSpelling ↔ hs.Agrees name := by
  rcases insertNew_cases hs name value with
    ⟨⟨h, hh, rfl⟩, same⟩ | ⟨absent, before, after, rfl, inserted⟩
  · rw [same]
    refine iff_of_true distinct fun g hg spelled => ?_
    rw [distinct.eq_of_sameName hg hh spelled]
  · rw [inserted, oneSpelling_perm List.perm_middle, oneSpelling_cons_iff]
    constructor
    · rintro ⟨other, -⟩ g hg spelled
      rw [other g hg] at spelled
      cases spelled
    · intro agrees
      refine ⟨fun g hg => ?_, distinct⟩
      cases spelled : Text.sameName g.1 name with
      | false => rfl
      | true => exact absurd (agrees g hg spelled) (absent g hg)

/-- The field that is put in does not matter to other names. -/
theorem agrees_insertNew_iff {other : String} (apart : Text.sameName name other = false) :
    (hs.insertNew name value).Agrees other ↔ hs.Agrees other := by
  constructor
  · exact fun agrees h hh => agrees h ((sublist_insertNew hs name value).subset hh)
  · intro agrees h hh spelled
    rcases mem_insertNew hh with old | rfl
    · exact agrees h old spelled
    · rw [apart] at spelled
      cases spelled

/-- The fields one after the other, each unless its very spelling is there. -/
def addNew (hs more : Headers) : Headers := more.foldl (fun hs h => hs.insertNew h.1 h.2) hs

theorem sublist_addNew (hs more : Headers) : hs.Sublist (hs.addNew more) := by
  induction more generalizing hs with
  | nil => exact List.Sublist.refl hs
  | cons h more ih => exact (sublist_insertNew hs h.1 h.2).trans (ih _)

/-- Several fields more, which have one spelling each: none of them must be there in another one. -/
theorem oneSpelling_addNew_iff {more : Headers} (distinct : hs.OneSpelling)
    (others : more.OneSpelling) :
    (hs.addNew more).OneSpelling ↔ ∀ h ∈ more, hs.Agrees h.1 := by
  induction more generalizing hs with
  | nil => simpa [addNew] using distinct
  | cons h more ih =>
    obtain ⟨apart, rest⟩ := oneSpelling_cons_iff.mp others
    have added : hs.addNew (h :: more) = (hs.insertNew h.1 h.2).addNew more := rfl
    rw [added, List.forall_mem_cons, ← oneSpelling_insertNew_iff distinct h.2]
    constructor
    · intro result
      have first : (hs.insertNew h.1 h.2).OneSpelling := result.sublist (sublist_addNew _ more)
      refine ⟨first, fun g hg => ?_⟩
      have other : Text.sameName h.1 g.1 = false := by rw [Text.sameName_comm, apart g hg]
      exact (agrees_insertNew_iff other).mp ((ih first rest).mp result g hg)
    · rintro ⟨first, agrees⟩
      refine (ih first rest).mpr fun g hg => ?_
      have other : Text.sameName h.1 g.1 = false := by rw [Text.sameName_comm, apart g hg]
      exact (agrees_insertNew_iff other).mpr (agrees g hg)

end Headers

end ScreenFlow
