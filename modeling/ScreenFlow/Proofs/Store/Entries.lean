import ScreenFlow.Proofs.Json.Fields
import ScreenFlow.Store.Entries

/-!
# What entries hold

Entries are a map by their keys: setting and removing one key leaves the others alone, and keeps the
keys in order.

* `find?_insert`, `find?_erase`: what is found afterwards;
* `Ascending`: the order of the keys, kept by `ascending_insert` and `ascending_erase`.
-/

namespace ScreenFlow.Entries

variable {es : Entries} {key k : String} {e : Entry}

@[simp] theorem find?_nil (key : String) : find? [] key = none := rfl

theorem find?_cons (e : String × Entry) (es : Entries) (key : String) :
    find? (e :: es) key = if e.1 = key then some e.2 else find? es key := by
  by_cases h : e.1 = key <;> simp [find?, h]

theorem find?_append (es fs : Entries) (key : String) :
    find? (es ++ fs) key = (find? es key).or (find? fs key) := by
  induction es with
  | nil => rfl
  | cons e es ih =>
    rw [List.cons_append, find?_cons, find?_cons, ih]
    split <;> rfl

theorem find?_eq_none_iff : find? es key = none ↔ ∀ e ∈ es, e.1 ≠ key := by
  simp [find?]

/-- An entry that does not expire is live at any time. -/
theorem live?_of_lasting {text : Option String} {now : Int}
    (h : es.find? key = text.map fun t => { value := t }) : es.live? now key = text := by
  cases text with
  | none => simp [live?, h]
  | some t => simp [live?, h, Entry.isExpired, Option.filter]

/-! ### Setting and removing a key -/

theorem find?_erase_self (es : Entries) (key : String) : (es.erase key).find? key = none := by
  simp [find?_eq_none_iff, erase]

theorem find?_erase_of_ne (es : Entries) (h : k ≠ key) : (es.erase key).find? k = es.find? k := by
  induction es with
  | nil => rfl
  | cons e es ih =>
    rw [find?_cons, ← ih, erase, List.filter_cons]
    by_cases he : e.1 = key
    · simp [he, Ne.symm h, erase]
    · simp [he, find?_cons, erase]

theorem find?_erase (es : Entries) (key k : String) :
    (es.erase key).find? k = if k = key then none else es.find? k := by
  split
  · rename_i h
    rw [h, find?_erase_self]
  · rename_i h
    exact find?_erase_of_ne es h

theorem find?_insert (es : Entries) (key k : String) (e : Entry) :
    (es.insert key e).find? k = if k = key then some e else es.find? k := by
  have parts := find?_append ((es.erase key).takeWhile (·.1 < key))
    ((es.erase key).dropWhile (·.1 < key))
  rw [List.takeWhile_append_dropWhile] at parts
  rw [insert, find?_append, find?_cons]
  split
  · rename_i h
    subst h
    have absent : find? ((es.erase key).takeWhile (·.1 < key)) key = none :=
      (Option.or_eq_none_iff.mp ((parts key).symm.trans (find?_erase_self es key))).1
    rw [absent, if_pos rfl, Option.none_or]
  · rename_i h
    rw [if_neg (Ne.symm h), ← parts, find?_erase_of_ne es (Ne.symm h)]

/-! ### The order of the keys -/

def Ascending (es : Entries) : Prop := (es.map (·.1)).Pairwise (· < ·)

theorem ascending_nil : Ascending [] := .nil

theorem ascending_erase (h : es.Ascending) : (es.erase key).Ascending :=
  List.Pairwise.sublist (List.filter_sublist.map _) h

/-- Behind the keys that are smaller, all are greater if the key itself does not occur. -/
theorem lt_of_mem_dropWhile (h : es.Ascending) (absent : ∀ f ∈ es, f.1 ≠ key) :
    ∀ f ∈ es.dropWhile (·.1 < key), key < f.1 := by
  induction es with
  | nil => simp
  | cons f es ih =>
    obtain ⟨above, sorted⟩ := List.pairwise_cons.mp h
    rw [List.dropWhile_cons]
    split
    · exact ih sorted fun g hg => absent g (List.mem_cons_of_mem f hg)
    · rename_i stops
      have first : key < f.1 := Json.lt_of_ne_of_not_lt (by simpa using stops) (absent f (by simp))
      intro g hg
      rcases List.mem_cons.mp hg with rfl | later
      · exact first
      · exact String.lt_trans first (above g.1 (List.mem_map_of_mem later))

theorem ascending_insert (h : es.Ascending) : (es.insert key e).Ascending := by
  have rest : (es.erase key).Ascending := ascending_erase h
  have absent : ∀ f ∈ es.erase key, f.1 ≠ key := find?_eq_none_iff.mp (find?_erase_self es key)
  have above := lt_of_mem_dropWhile rest absent
  have below : ∀ f ∈ (es.erase key).takeWhile (·.1 < key), f.1 < key := fun f hf => by
    simpa using List.all_eq_true.mp List.all_takeWhile f hf
  rw [Ascending, List.pairwise_map, ← List.takeWhile_append_dropWhile (p := (·.1 < key))
    (l := es.erase key), List.pairwise_append] at rest
  obtain ⟨before, after, -⟩ := rest
  rw [insert, Ascending, List.pairwise_map]
  refine List.pairwise_append.mpr ⟨before, List.pairwise_cons.mpr ⟨above, after⟩, ?_⟩
  intro f hf g hg
  rcases List.mem_cons.mp hg with rfl | later
  · exact below f hf
  · exact String.lt_trans (below f hf) (above g later)

end ScreenFlow.Entries
