import ScreenFlow.Json.Record
import ScreenFlow.Proofs.Json.Reading
import ScreenFlow.Proofs.Json.Fields

/-!
# Decoding what was printed

A record is printed as the fields that it has, and read field by field. A value is kept by printing
and reading it if its brackets are few enough and its numbers are what their digits say.

* `RecordReader.next_present`: a reader of records finds the field that was printed;
* `Json.value_reread_iff`: exactly which values are kept.
-/

namespace ScreenFlow

namespace Json

theorem rereadItems_eq (items : List Json) (depth : Nat) :
    rereadItems items depth = items.map (·.reread depth) := by
  induction items with
  | nil => rfl
  | cons v rest ih => rw [rereadItems, ih, List.map_cons]

theorem rereadFields_eq (fields : List (String × Json)) (depth : Nat) :
    rereadFields fields depth = fields.map fun f => (f.1, f.2.reread depth) := by
  induction fields with
  | nil => rfl
  | cons f rest ih => rw [rereadFields, ih, List.map_cons]

@[simp] theorem reread_null (depth : Nat) : Json.null.reread depth = .null := rfl

@[simp] theorem reread_bool (b : Bool) (depth : Nat) : (Json.bool b).reread depth = .bool b := rfl

@[simp] theorem reread_num (n : Number) (depth : Nat) : (Json.num n).reread depth = n.reread := rfl

@[simp] theorem reread_str (s : String) (depth : Nat) : (Json.str s).reread depth = .str s := rfl

@[simp] theorem reread_arr (items : List Json) (depth : Nat) :
    (Json.arr items).reread (depth + 1) = .arr .json (items.map (·.reread depth)) := by
  rw [reread, rereadItems_eq]

@[simp] theorem reread_obj (fields : List (String × Json)) (depth : Nat) :
    (Json.obj fields).reread (depth + 1) = .obj .json (fields.map fun f => (f.1, f.2.reread depth)) := by
  rw [reread, rereadFields_eq]

end Json

/-! ### Records -/

/-- Reads a field that may be absent or null. -/
def Decoder.field {α : Type} (d : Decoder α) (o : Option Source) : Option (Option α) :=
  o.elim (some none) d.option

theorem Decoder.field_map {α : Type} {d : Decoder α} {f : α → String}
    (h : ∀ a, d (.str (f a)) = some a) (o : Option α) :
    d.field (o.map fun a => .str (f a)) = some o := by
  cases o with
  | none => rfl
  | some a => simp [field, option, h]

theorem Decoder.field_string (o : Option String) : Decoder.string.field (o.map .str) = some o :=
  Decoder.field_map (f := id) (fun _ => rfl) o

/-- A number that fits is read back as it was. -/
theorem Decoder.int64_reread {i : Int} (h : Bits.inInt64 i = true) :
    Decoder.int64 (Number.int i).reread = some i := by
  have fits : Number.fitsInteger i = true := by
    obtain ⟨low, high⟩ := Bool.and_eq_true_iff.mp h
    refine Bool.and_eq_true_iff.mpr ⟨low, decide_eq_true ?_⟩
    have : Bits.maxInt64 < Bits.values 64 := by decide
    have := of_decide_eq_true high
    omega
  rw [Number.reread_int fits, Decoder.int64, Number.toInt64?, if_pos h]

theorem Decoder.field_int64 {o : Option Int} (h : ∀ i ∈ o, Bits.inInt64 i = true) :
    Decoder.int64.field (o.map fun i => (Number.int i).reread) = some o := by
  cases o with
  | none => rfl
  | some i =>
    have read := Decoder.int64_reread (h i rfl)
    cases hi : (Number.int i).reread with
    | num n => simp [field, option, hi, hi ▸ read]
    | _ => simp [hi, Decoder.int64] at read

namespace RecordReader

/-- The fields of a record, where each of them may be left out. -/
def present (fields : List (String × Option Source)) : List (String × Source) :=
  fields.flatMap fun f => f.2.toList.map fun v => (f.1, v)

theorem filter_present {fields : List (String × Option Source)} (nodup : (fields.map (·.1)).Nodup)
    (name : String) :
    ((present fields).filter fun f => [name].contains f.1) =
      ((fields.lookup name).join.toList.map fun v => (name, v)) := by
  induction fields with
  | nil => rfl
  | cons f rest ih =>
    obtain ⟨k, o⟩ := f
    rw [List.map_cons, List.nodup_cons] at nodup
    rw [present, List.flatMap_cons, List.filter_append, ← present, ih nodup.2, List.lookup_cons]
    by_cases h : k = name
    · subst h
      have absent : rest.lookup k = none := by
        rw [List.lookup_eq_none_iff]
        intro p hp
        simpa using fun e : k = p.1 => nodup.1 (e ▸ List.mem_map_of_mem (f := (·.1)) hp)
      cases o <;> simp [absent]
    · have other : (name == k) = false := by simpa using Ne.symm h
      cases o <;> simp [h, other]

theorem next_present {fields : List (String × Option Source)} (nodup : (fields.map (·.1)).Nodup)
    (name : String) :
    next [name] (.named (present fields)) =
      some ((fields.lookup name).join, .named (present fields)) := by
  simp only [next, filter_present nodup]
  cases (fields.lookup name).join <;> rfl

section Run

variable {fields : List (String × Option Source)} (nodup : (fields.map (·.1)).Nodup) {α β : Type}
  (name : String) (d : Decoder α)

include nodup

theorem bind_required (k : α → RecordReader β) :
    (required name d >>= k).run (.named (present fields)) = (do
      let a ← (fields.lookup name).join >>= d
      (k a).run (.named (present fields))) := by
  simp only [required, StateT.run_bind]
  rw [show (next [name]).run (.named (present fields)) = _ from next_present nodup name]
  cases (fields.lookup name).join with
  | none => rfl
  | some v => cases h : d v <;> simp [h, failure]

theorem bind_withDefault (default : α) (k : α → RecordReader β) :
    (withDefault [name] default d >>= k).run (.named (present fields)) = (do
      let a ← (fields.lookup name).join.elim (some default) d
      (k a).run (.named (present fields))) := by
  simp only [withDefault, StateT.run_bind]
  rw [show (next [name]).run (.named (present fields)) = _ from next_present nodup name]
  cases (fields.lookup name).join with
  | none => rfl
  | some v => cases h : d v <;> simp [h]

theorem bind_optional (k : Option α → RecordReader β) :
    (optional name d >>= k).run (.named (present fields)) = (do
      let a ← d.field (fields.lookup name).join
      (k a).run (.named (present fields))) :=
  bind_withDefault nodup name d.option none k

theorem bind_optionalByName (k : Option α → RecordReader β) :
    (optionalByName name d >>= k).run (.named (present fields)) = (do
      let a ← d.field (fields.lookup name).join
      (k a).run (.named (present fields))) :=
  bind_optional nodup name d k

end Run

end RecordReader

/-! ### Values that are kept -/

namespace Json

mutual

/-- How many brackets lie around the innermost part of a value. -/
def nesting : Json → Nat
  | .arr items => nestingItems items + 1
  | .obj fields => nestingFields fields + 1
  | _ => 0

def nestingItems : List Json → Nat
  | [] => 0
  | v :: rest => max (nesting v) (nestingItems rest)

def nestingFields : List (String × Json) → Nat
  | [] => 0
  | (_, v) :: rest => max (nesting v) (nestingFields rest)

end

mutual

/-- Every number in the value is what its digits say. -/
def Exact : Json → Prop
  | .num n => n.reread = .num n
  | .arr items => ExactItems items
  | .obj fields => ExactFields fields
  | _ => True

def ExactItems : List Json → Prop
  | [] => True
  | v :: rest => Exact v ∧ ExactItems rest

def ExactFields : List (String × Json) → Prop
  | [] => True
  | (_, v) :: rest => Exact v ∧ ExactFields rest

end

/-- What is read of a number is a number or nothing. -/
theorem toJson?_reread_number {n : Number} {w : Json} (h : n.reread.toJson? = some w) :
    ∃ m, n.reread = .num m ∧ w = .num m := by
  rw [n.reread_eq] at h ⊢
  cases hv : n.numeral.value? with
  | none => simp [hv, Source.toJson?] at h
  | some k => exact ⟨k, rfl, by simpa [hv, Source.toJson?] using h.symm⟩

theorem keys_fieldsToJson? {fs ws : List (String × Json)} {depth : Nat}
    (h : Source.fieldsToJson? (rereadFields fs depth) = some ws) :
    ws.map (·.1) = fs.map (·.1) := by
  induction fs generalizing ws with
  | nil => simp_all [rereadFields, Source.fieldsToJson?]
  | cons f rest ih =>
    simp only [rereadFields, Source.fieldsToJson?, Option.bind_eq_bind, Option.bind_eq_some_iff,
      Option.pure_def, Option.some.injEq] at h
    obtain ⟨w, -, ws', hws, rfl⟩ := h
    simp [ih hws]

mutual

/-- Only what is not too deep can be read. -/
theorem nesting_of_toJson? : ∀ {v w : Json} {depth : Nat},
    (v.reread depth).toJson? = some w → v.nesting ≤ depth
  | .null, _, _, _ | .bool _, _, _, _ | .str _, _, _, _ | .num _, _, _, _ => Nat.zero_le _
  | .arr _, _, 0, h | .obj _, _, 0, h => by cases h
  | .arr items, w, depth + 1, h => by
    simp only [reread, Source.toJson?, Option.map_eq_some_iff] at h
    obtain ⟨ws, hws, rfl⟩ := h
    exact Nat.succ_le_succ (nesting_of_itemsToJson? hws)
  | .obj fields, w, depth + 1, h => by
    simp only [reread, Source.toJson?, Option.map_eq_some_iff] at h
    obtain ⟨ws, hws, rfl⟩ := h
    exact Nat.succ_le_succ (nesting_of_fieldsToJson? hws)

theorem nesting_of_itemsToJson? : ∀ {vs ws : List Json} {depth : Nat},
    Source.itemsToJson? (rereadItems vs depth) = some ws → nestingItems vs ≤ depth
  | [], _, _, _ => Nat.zero_le _
  | v :: rest, ws, depth, h => by
    simp only [rereadItems, Source.itemsToJson?, Option.bind_eq_bind, Option.bind_eq_some_iff] at h
    obtain ⟨w, hw, ws', hws, -⟩ := h
    exact Nat.max_le.mpr ⟨nesting_of_toJson? hw, nesting_of_itemsToJson? hws⟩

theorem nesting_of_fieldsToJson? : ∀ {fs ws : List (String × Json)} {depth : Nat},
    Source.fieldsToJson? (rereadFields fs depth) = some ws → nestingFields fs ≤ depth
  | [], _, _, _ => Nat.zero_le _
  | (k, v) :: rest, ws, depth, h => by
    simp only [rereadFields, Source.fieldsToJson?, Option.bind_eq_bind, Option.bind_eq_some_iff] at h
    obtain ⟨w, hw, ws', hws, -⟩ := h
    exact Nat.max_le.mpr ⟨nesting_of_toJson? hw, nesting_of_fieldsToJson? hws⟩

end

mutual

/-- A settled value is read back only if its numbers are exact. -/
theorem exact_of_toJson? : ∀ {v w : Json} {depth : Nat}, v.Settled →
    (v.reread depth).toJson? = some w → w.normalize = v → v.Exact
  | .null, _, _, _, _, _ | .bool _, _, _, _, _, _ | .str _, _, _, _, _, _ => trivial
  | .num n, w, depth, hv, h, hw => by
    obtain ⟨m, hm, rfl⟩ := toJson?_reread_number h
    rw [Exact, hm]
    cases m with
    | int i => rw [Json.num.inj (show Json.num (.int i) = .num n from hw)]
    | double bits =>
      rw [normalize] at hw
      split at hw
      · rw [Json.num.inj hw]
      · cases hw
  | .arr _, _, 0, _, h, _ | .obj _, _, 0, _, h, _ => by cases h
  | .arr items, w, depth + 1, hv, h, hw => by
    simp only [reread, Source.toJson?, Option.map_eq_some_iff] at h
    obtain ⟨ws, hws, rfl⟩ := h
    rw [normalize] at hw
    exact exactItems_of_toJson? (settled_arr_iff.mp hv) hws (Json.arr.inj hw)
  | .obj fields, w, depth + 1, hv, h, hw => by
    simp only [reread, Source.toJson?, Option.map_eq_some_iff] at h
    obtain ⟨ws, hws, rfl⟩ := h
    have ascending : Ascending (normalizeFields ws) := by
      rw [ascending_congr ((map_normalizeFields ws).trans (keys_fieldsToJson? hws))]
      exact (settled_obj_iff.mp hv).1
    rw [normalize, extend_nil ascending] at hw
    exact exactFields_of_toJson? (settled_obj_iff.mp hv).2 hws (Json.obj.inj hw)

theorem exactItems_of_toJson? : ∀ {vs ws : List Json} {depth : Nat}, (∀ v ∈ vs, v.Settled) →
    Source.itemsToJson? (rereadItems vs depth) = some ws → normalizeItems ws = vs → ExactItems vs
  | [], _, _, _, _, _ => trivial
  | v :: rest, ws, depth, hv, h, hw => by
    simp only [rereadItems, Source.itemsToJson?, Option.bind_eq_bind, Option.bind_eq_some_iff,
      Option.pure_def, Option.some.injEq] at h
    obtain ⟨w, hw', ws', hws, rfl⟩ := h
    rw [normalizeItems] at hw
    rw [List.forall_mem_cons] at hv
    exact ⟨exact_of_toJson? hv.1 hw' (List.cons.inj hw).1,
      exactItems_of_toJson? hv.2 hws (List.cons.inj hw).2⟩

theorem exactFields_of_toJson? : ∀ {fs ws : List (String × Json)} {depth : Nat},
    (∀ f ∈ fs, f.2.Settled) → Source.fieldsToJson? (rereadFields fs depth) = some ws →
    normalizeFields ws = fs → ExactFields fs
  | [], _, _, _, _, _ => trivial
  | (k, v) :: rest, ws, depth, hv, h, hw => by
    simp only [rereadFields, Source.fieldsToJson?, Option.bind_eq_bind, Option.bind_eq_some_iff,
      Option.pure_def, Option.some.injEq] at h
    obtain ⟨w, hw', ws', hws, rfl⟩ := h
    rw [normalizeFields] at hw
    rw [List.forall_mem_cons] at hv
    exact ⟨exact_of_toJson? hv.1 hw' (Prod.mk.inj (List.cons.inj hw).1).2,
      exactFields_of_toJson? hv.2 hws (List.cons.inj hw).2⟩

end

mutual

theorem toJson?_reread : ∀ {v : Json} {depth : Nat}, v.nesting ≤ depth → v.Exact →
    (v.reread depth).toJson? = some v
  | .null, _, _, _ | .bool _, _, _, _ | .str _, _, _, _ => rfl
  | .num n, _, _, h => by rw [reread, show n.reread = .num n from h]; rfl
  | .arr _, 0, h, _ | .obj _, 0, h, _ => by simp [nesting] at h
  | .arr items, depth + 1, hn, he => by
    rw [reread, Source.toJson?, itemsToJson?_reread (Nat.le_of_succ_le_succ hn) he]
    rfl
  | .obj fields, depth + 1, hn, he => by
    rw [reread, Source.toJson?, fieldsToJson?_reread (Nat.le_of_succ_le_succ hn) he]
    rfl

theorem itemsToJson?_reread : ∀ {vs : List Json} {depth : Nat}, nestingItems vs ≤ depth →
    ExactItems vs → Source.itemsToJson? (rereadItems vs depth) = some vs
  | [], _, _, _ => rfl
  | v :: rest, depth, hn, he => by
    obtain ⟨hv, hrest⟩ := Nat.max_le.mp hn
    simp [rereadItems, Source.itemsToJson?, toJson?_reread hv he.1, itemsToJson?_reread hrest he.2]

theorem fieldsToJson?_reread : ∀ {fs : List (String × Json)} {depth : Nat},
    nestingFields fs ≤ depth → ExactFields fs →
    Source.fieldsToJson? (rereadFields fs depth) = some fs
  | [], _, _, _ => rfl
  | (k, v) :: rest, depth, hn, he => by
    obtain ⟨hv, hrest⟩ := Nat.max_le.mp hn
    simp [rereadFields, Source.fieldsToJson?, toJson?_reread hv he.1,
      fieldsToJson?_reread hrest he.2]

end

/-- Printed and read, a settled value is the same exactly if it is not too deep and its numbers are
what their digits say. -/
theorem value_reread_iff {v : Json} (hv : v.Settled) {depth : Nat} :
    Decoder.value (v.reread depth) = some v ↔ v.nesting ≤ depth ∧ v.Exact := by
  constructor
  · intro h
    obtain ⟨w, hw, hn⟩ := Option.map_eq_some_iff.mp h
    exact ⟨nesting_of_toJson? hw, exact_of_toJson? hv hw hn⟩
  · rintro ⟨hn, he⟩
    rw [Decoder.value, toJson?_reread hn he, Option.map_some, hv]

/-- What is read of its text is the settled value itself exactly if its numbers are exact. -/
theorem ofText_render_iff {v w : Json} (hv : v.Settled) (h : ofText v.render = .ok w) :
    w = v ↔ v.Exact := by
  have read : Decoder.value (v.reread Reader.maxDepth) = some w := (decodeText_render _ v).mp h
  constructor
  · rintro rfl
    exact ((value_reread_iff hv).mp read).2
  · intro exact_
    obtain ⟨u, hu, -⟩ := Option.map_eq_some_iff.mp read
    have same := (value_reread_iff hv).mpr ⟨nesting_of_toJson? hu, exact_⟩
    exact Option.some.inj (read.symm.trans same)

end Json

end ScreenFlow
