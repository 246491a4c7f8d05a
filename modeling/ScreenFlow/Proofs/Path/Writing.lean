import ScreenFlow.AppState
import ScreenFlow.Path
import ScreenFlow.Proofs.Json.Fields

/-!
# Writing at a path

A write goes down its path segment by segment and puts every value back on the way up. The state of
an application is written so. It begins as an object, whatever it is made from; a write at a path
without a segment puts its value in the state's place, and one that begins with an index puts an array
there.

* `child?`, `put`: one segment, read and written; `write_cons` takes a write apart;
* `reach?`: what stands at a path when every key is a key and every index an index;
* `reach?_write`, `write_write`: what was written is there, and of two writes the later one counts;
* `written_laws`: what a write at a path text does, and that it neither runs out of an array nor
  lengthens one by more than `Path.maxGrowth`;
* `AppState.isObject_set`: whether one write leaves an object;
* `snapshots_objects_iff`: the state stays an object exactly as long as every write leaves one;
* `not_staysObject`: one write at the empty path is enough to lose it.
-/

namespace ScreenFlow.Json

variable {v new new' c w : Json} {s t : Segment} {path rest l : Path} {text : String}

/-! ### One segment -/

/-- The value under a key of an object or at an index of an array. -/
def child? (v : Json) (s : Segment) : Option Json :=
  match s, v with
  | .key k, .obj fields => lookup fields k
  | .index i, .arr items => items[i]?
  | _, _ => none

/-- The value with `c` put under a key or at an index. One that is no object, or no array, makes way
for an empty one. -/
def put (v : Json) (s : Segment) (c : Json) : Json :=
  match s with
  | .key k => .obj (insert (v.fields?.getD []) k c)
  | .index i => .arr ((pad (v.items?.getD []) (i + 1)).set i c)

/-- What a write at `rest` begins with below a segment. -/
def entry (v : Json) (s : Segment) (rest : Path) : Json :=
  match v.child? s with
  | some c => if c.isNull then blankFor rest else c
  | none => blankFor rest

theorem length_pad (items : List Json) (n : Nat) : (pad items n).length = max items.length n := by
  rw [pad, List.length_append, List.length_replicate]
  omega

theorem getElem?_pad (items : List Json) (n i : Nat) :
    (pad items n)[i]? = if i < items.length then items[i]? else if i < n then some .null else none := by
  rw [pad, List.getElem?_append, List.getElem?_replicate]
  split
  · rfl
  · congr 1
    rw [eq_iff_iff]
    omega

theorem pad_of_le {items : List Json} {n : Nat} (h : n ≤ items.length) : pad items n = items := by
  rw [pad, Nat.sub_eq_zero_of_le h, List.replicate_zero, List.append_nil]

theorem child?_key (v : Json) (k : String) : v.child? (.key k) = lookup (v.fields?.getD []) k := by
  cases v <;> rfl

theorem child?_index (v : Json) (i : Nat) : v.child? (.index i) = (v.items?.getD [])[i]? := by
  cases v <;> simp [child?, items?]

theorem write_cons (v : Json) (s : Segment) (rest : Path) (new : Json) :
    v.write (s :: rest) new = v.put s ((v.entry s rest).write rest new) := by
  cases s with
  | key k =>
    rw [write, put, entry, child?_key]
    cases lookup (v.fields?.getD []) k with
    | none => rfl
    | some c => cases rest <;> simp [write]
  | index i =>
    rw [write, put, entry, child?_index, getElem?_pad]
    cases here : (v.items?.getD [])[i]? with
    | none =>
      have beyond := List.getElem?_eq_none_iff.mp here
      cases rest <;> simp [write, isNull, Nat.not_lt.mpr beyond]
    | some c =>
      have within := (List.getElem?_eq_some_iff.mp here).1
      cases rest <;> simp [write, within]

@[simp] theorem child?_put (v : Json) (s : Segment) (c : Json) : (v.put s c).child? s = some c := by
  cases s with
  | key k => simp [put, child?, lookup_insert]
  | index i =>
    have room : i < (pad (v.items?.getD []) (i + 1)).length := by
      rw [length_pad]
      omega
    simp [put, child?, room]

/-- Beside what was put in there is what was there before, or a null that fills an array up. -/
theorem child?_put_of_ne (apart : t ≠ s) (h : (v.put s c).child? t = some w) :
    v.child? t = some w ∨ w = .null := by
  cases s with
  | key k =>
    cases t with
    | index i => simp [put, child?] at h
    | key k' =>
      rw [put, child?, lookup_insert, if_neg (by simpa using apart)] at h
      rw [child?_key]
      exact .inl h
  | index i =>
    cases t with
    | key k' => simp [put, child?] at h
    | index j =>
      have other : i ≠ j := fun same => apart (congrArg Segment.index same.symm)
      rw [put, child?, List.getElem?_set_ne other, getElem?_pad] at h
      rw [child?_index]
      split at h
      · exact .inl h
      · split at h
        · exact .inr (Option.some.inj h).symm
        · cases h

/-- Overwriting changes nothing where the key is not there. -/
theorem overwrite_absent {fields : List (String × Json)} {k : String}
    (absent : ∀ f ∈ fields, f.1 ≠ k) (b : Json) :
    fields.map (fun f => if f.1 == k then (k, b) else f) = fields :=
  (List.map_congr_left fun f hf => if_neg (by simpa using absent f hf)).trans (List.map_id' fields)

theorem insert_insert (fields : List (String × Json)) (k : String) (a b : Json) :
    insert (insert fields k a) k b = insert fields k b := by
  have there {fs : List (String × Json)} (h : ∃ f ∈ fs, f.1 = k) (x : Json) :
      insert fs k x = fs.map fun f => if f.1 == k then (k, x) else f := by
    rw [insert, if_pos (by simpa using h)]
  by_cases present : ∃ f ∈ fields, f.1 = k
  · have still : ∃ f ∈ fields.map (fun f => if f.1 == k then (k, a) else f), f.1 = k := by
      obtain ⟨f, hf, same⟩ := present
      exact ⟨_, List.mem_map_of_mem hf, (overwrite_key f).trans same⟩
    rw [there present a, there still b, there present b, List.map_map]
    refine List.map_congr_left fun f _ => ?_
    rw [Function.comp_apply, overwrite_key]
    split <;> rfl
  · have absent : ∀ f ∈ fields, f.1 ≠ k := fun f hf same => present ⟨f, hf, same⟩
    have before : ∀ f ∈ fields.takeWhile (·.1 < k), f.1 ≠ k :=
      fun f hf => absent f ((List.takeWhile_sublist _).subset hf)
    have after : ∀ f ∈ fields.dropWhile (·.1 < k), f.1 ≠ k :=
      fun f hf => absent f ((List.dropWhile_sublist _).subset hf)
    have fresh (x : Json) : insert fields k x =
        fields.takeWhile (·.1 < k) ++ (k, x) :: fields.dropWhile (·.1 < k) := by
      rw [insert, if_neg (by simpa using present)]
    rw [fresh a, there ⟨(k, a), by simp, rfl⟩ b, fresh b, List.map_append, List.map_cons,
      overwrite_absent before, overwrite_absent after, if_pos (beq_self_eq_true k)]

theorem put_put (v : Json) (s : Segment) (c c' : Json) : (v.put s c).put s c' = v.put s c' := by
  cases s with
  | key k => simp [put, fields?, insert_insert]
  | index i =>
    have long : i + 1 ≤ ((pad (v.items?.getD []) (i + 1)).set i c).length := by
      rw [List.length_set, length_pad]
      omega
    rw [put, put, put, items?, Option.getD_some, pad_of_le long, List.set_set]

/-! ### Whole paths -/

/-- The value that a path leads to when each of its keys meets an object and each of its indexes an
array. -/
def reach? (v : Json) : Path → Option Json
  | [] => some v
  | s :: rest => (v.child? s).bind (·.reach? rest)

theorem reach?_cons :
    v.reach? (s :: rest) = some w ↔ ∃ c, v.child? s = some c ∧ c.reach? rest = some w :=
  Option.bind_eq_some_iff

theorem step?_of_child? (h : v.child? s = some c) : v.step? s = some c := by
  cases s <;> cases v <;> simp_all [child?, step?]

theorem at?_of_reach? (h : v.reach? path = some w) : v.at? path = some w := by
  induction path generalizing v with
  | nil => exact h
  | cons s rest ih =>
    obtain ⟨c, here, below⟩ := reach?_cons.mp h
    rw [at?, step?_of_child? here]
    exact ih below

/-- What was written is there. -/
theorem reach?_write (v : Json) (path : Path) (new : Json) :
    (v.write path new).reach? path = some new := by
  induction path generalizing v with
  | nil => rfl
  | cons s rest ih =>
    rw [write_cons]
    exact reach?_cons.mpr ⟨_, child?_put .., ih _⟩

theorem isNull_put (v : Json) (s : Segment) (c : Json) : (v.put s c).isNull = false := by
  cases s <;> rfl

/-- Of two writes at the same place the later one counts. -/
theorem write_write (v : Json) (path : Path) (new new' : Json) :
    (v.write path new).write path new' = v.write path new' := by
  induction path generalizing v with
  | nil => rfl
  | cons s rest ih =>
    rw [write_cons, write_cons, write_cons, put_put, entry, child?_put]
    congr 1
    dsimp only
    cases rest with
    | nil => rfl
    | cons t rest =>
      rw [if_neg (by rw [write_cons, isNull_put]; nofun)]
      exact ih _

/-! ### Room for indexes -/

/-- The index, if it is one, lies less than `Path.maxGrowth` past the end of the array. -/
def hasRoom (v : Option Json) : Segment → Bool
  | .key _ => true
  | .index i => i - ((v.bind items?).getD []).length < Path.maxGrowth

theorem withinBounds_cons (v : Option Json) (s : Segment) (rest : Path) :
    withinBounds v (s :: rest) = (hasRoom v s && withinBounds (v.bind (·.child? s)) rest) := by
  cases s with
  | key k =>
    rw [withinBounds, hasRoom, Bool.true_and]
    congr 1
    rcases v with _ | v
    · rfl
    · cases v <;> rfl
  | index i =>
    have same : ((v.bind items?).getD [])[i]? = v.bind (·.child? (.index i)) := by
      rcases v with _ | v
      · rfl
      · exact (child?_index v i).symm
    rw [withinBounds, hasRoom, same]
    split
    case isTrue far => simp [Nat.not_lt.mpr far]
    case isFalse near => simp [Nat.not_le.mp near]

/-- Below what is not there, there is nothing, as below a null. -/
theorem withinBounds_blank (path rest : Path) :
    withinBounds (some (blankFor rest)) path = withinBounds none path := by
  cases path with
  | nil => rfl
  | cons s path =>
    rw [withinBounds_cons, withinBounds_cons]
    unfold blankFor
    split <;> cases s <;> rfl

theorem withinBounds_entry (v : Json) (s : Segment) (rest : Path) :
    withinBounds (some (v.entry s rest)) rest = withinBounds (v.child? s) rest := by
  unfold entry
  split
  case h_1 c here =>
    split
    case isTrue null =>
      cases c with
      | null =>
        rw [withinBounds_blank, here]
        cases rest with
        | nil => rfl
        | cons t rest =>
          rw [withinBounds_cons, withinBounds_cons]
          cases t <;> rfl
      | _ => cases null
    case isFalse => rw [here]
  case h_2 none => rw [withinBounds_blank, none]

/-- Where something is reached there is room. -/
theorem withinBounds_of_reach? (h : v.reach? path = some w) : withinBounds (some v) path = true := by
  induction path generalizing v with
  | nil => rfl
  | cons s rest ih =>
    obtain ⟨c, here, below⟩ := reach?_cons.mp h
    rw [withinBounds_cons, Option.bind_some, here, ih below, Bool.and_true]
    cases s with
    | key k => rfl
    | index i =>
      rw [child?_index] at here
      have within := (List.getElem?_eq_some_iff.mp here).1
      have none : i - (v.items?.getD []).length = 0 := by omega
      simp [hasRoom, none, Path.maxGrowth]

/-! ### How far arrays grow -/

/-- The items of the array that stands at a path; none if there is no array. -/
def arrayAt (v : Json) (l : Path) : List Json := ((v.reach? l).bind items?).getD []

theorem arrayAt_of_reach? {items : List Json} (h : v.reach? l = some (.arr items)) :
    v.arrayAt l = items := by
  rw [arrayAt, h]
  rfl

/-- In what a write begins with, an array is one that was there or is empty. -/
theorem reach?_entry {items : List Json} (h : (v.entry s rest).reach? l = some (.arr items)) :
    v.reach? (s :: l) = some (.arr items) ∨ items = [] := by
  have blank (h : (blankFor rest).reach? l = some (.arr items)) : items = [] := by
    unfold blankFor at h
    cases l with
    | nil => split at h <;> cases h; rfl
    | cons t l =>
      obtain ⟨c, here, -⟩ := reach?_cons.mp h
      split at here <;> cases t <;> cases here
  unfold entry at h
  split at h
  case h_1 c here =>
    split at h
    · exact .inr (blank h)
    · exact .inl (reach?_cons.mpr ⟨c, here, h⟩)
  case h_2 => exact .inr (blank h)

theorem length_arrayAt_entry (v : Json) (s : Segment) (rest l : Path) :
    ((v.entry s rest).arrayAt l).length ≤ (v.arrayAt (s :: l)).length := by
  cases found : (v.entry s rest).reach? l with
  | none => simp [arrayAt, found]
  | some w =>
    cases w with
    | arr items =>
      rw [arrayAt_of_reach? found]
      rcases reach?_entry found with there | rfl
      · exact Nat.le_of_eq (congrArg List.length (arrayAt_of_reach? there).symm)
      · exact Nat.zero_le _
    | _ => simp [arrayAt, found, items?]

/-- Outside of what is written, an array that is there afterwards is at most `Path.maxGrowth` longer
than the one that was there before. -/
theorem length_le_of_write {items : List Json} (bounds : withinBounds (some v) path = true)
    (outside : ¬ path <+: l) (there : (v.write path new).reach? l = some (.arr items)) :
    items.length ≤ (v.arrayAt l).length + Path.maxGrowth := by
  induction path generalizing v l with
  | nil => exact absurd List.nil_prefix outside
  | cons s rest ih =>
    rw [withinBounds_cons, Bool.and_eq_true, Option.bind_some, ← withinBounds_entry] at bounds
    rw [write_cons] at there
    cases l with
    | nil =>
      cases s with
      | key k => cases there
      | index i =>
        have room : i - (v.items?.getD []).length < Path.maxGrowth := by simpa [hasRoom] using bounds.1
        cases there
        rw [List.length_set, length_pad, arrayAt, reach?, Option.bind_some]
        omega
    | cons t l =>
      obtain ⟨c, here, below⟩ := reach?_cons.mp there
      by_cases same : t = s
      · subst same
        obtain rfl : _ = c := Option.some.inj ((child?_put ..).symm.trans here)
        have longer := ih bounds.2 (fun inner => outside (List.cons_prefix_cons.mpr ⟨rfl, inner⟩)) below
        have shorter := length_arrayAt_entry v t rest l
        omega
      · rcases child?_put_of_ne same here with before | rfl
        · rw [arrayAt_of_reach? (reach?_cons.mpr ⟨c, before, below⟩)]
          exact Nat.le_add_right ..
        · cases l with
          | nil => cases below
          | cons u l =>
            obtain ⟨_, none, -⟩ := reach?_cons.mp below
            cases u <;> cases none

/-! ### On a machine -/

/-- The items up to an index. A length that does not fit 64 bits is not tried. -/
def grow (items : List Json) (i : Nat) : List Json :=
  if i + 1 < Bits.values 64 then pad items (i + 1) else items

/-- `write` where an index out of range is the end of the program. -/
def write? (v : Json) (path : Path) (new : Json) : Option Json :=
  match path with
  | [] => some new
  | .key k :: rest => ((v.entry (.key k) rest).write? rest new).map (v.put (.key k))
  | .index i :: rest =>
    let items := grow (v.items?.getD []) i
    items[i]?.bind fun c =>
      ((if c.isNull then blankFor rest else c).write? rest new).map fun x => .arr (items.set i x)

/-- `setPath` where an index out of range is the end of the program. -/
def setPath? (v : Json) (text : String) (new : Json) : Option (Bool × Json) :=
  let path := Path.parse text
  if withinBounds (some v) path then (v.write? path new).map (true, ·) else some (false, v)

/-- Every array fits in memory: what is allocated at once has fewer than 2 ^ 63 bytes, so an array has
fewer items. -/
def FitsMemory (v : Json) : Prop :=
  ∀ l items, v.reach? l = some (.arr items) → items.length < Bits.values 63

theorem FitsMemory.entry (h : v.FitsMemory) (s : Segment) (rest : Path) :
    (v.entry s rest).FitsMemory := by
  intro l items there
  rcases reach?_entry there with before | rfl
  · exact h _ _ before
  · decide

theorem FitsMemory.length_lt (h : v.FitsMemory) : (v.items?.getD []).length < Bits.values 63 := by
  cases v with
  | arr items => exact h [] items rfl
  | _ => exact Nat.pow_pos Nat.two_pos

/-- A write that has room never runs out of an array. -/
theorem write?_eq (fits : v.FitsMemory) (bounds : withinBounds (some v) path = true) :
    v.write? path new = some (v.write path new) := by
  induction path generalizing v with
  | nil => rfl
  | cons s rest ih =>
    rw [withinBounds_cons, Bool.and_eq_true, Option.bind_some, ← withinBounds_entry] at bounds
    have below := ih (fits.entry s rest) bounds.2
    rw [write_cons]
    cases s with
    | key k => rw [write?, below, Option.map_some]
    | index i =>
      have room : i - (v.items?.getD []).length < Path.maxGrowth := by simpa [hasRoom] using bounds.1
      have fit : i + 1 < Bits.values 64 := by
        have short := fits.length_lt
        have wider : Bits.values 63 + Path.maxGrowth < Bits.values 64 := by decide
        omega
      have there : (grow (v.items?.getD []) i)[i]? =
          some ((v.child? (.index i)).getD .null) := by
        rw [grow, if_pos fit, getElem?_pad, child?_index]
        split
        case isTrue within => rw [List.getElem?_eq_getElem within]; rfl
        case isFalse beyond =>
          rw [if_pos (Nat.lt_succ_self i), List.getElem?_eq_none (Nat.not_lt.mp beyond)]
          rfl
      have begun : (if ((v.child? (.index i)).getD .null).isNull then blankFor rest
          else (v.child? (.index i)).getD .null) = v.entry (.index i) rest := by
        rw [Json.entry]
        cases v.child? (.index i) <;> rfl
      rw [write?, there, Option.bind_some, begun, below, Option.map_some, put, grow, if_pos fit]

/-! ### Path texts -/

theorem setPath_eq (v : Json) (text : String) (new : Json) :
    v.setPath text new = if withinBounds (some v) (Path.parse text) then
      (true, v.write (Path.parse text) new) else (false, v) := by
  rw [setPath, writeAt?]
  split <;> simp_all

theorem setPath_of_bounds (bounds : withinBounds (some v) (Path.parse text) = true) :
    v.setPath text new = (true, v.write (Path.parse text) new) := by
  rw [setPath_eq, if_pos bounds]

/-- **What a write at a path does.** One that happened is read back, and a later write there makes it
as if it had not been; one that is refused changes nothing. No index is ever out of range, and outside
of what was written no array has grown by more than `Path.maxGrowth`. -/
theorem written_laws (root : Json) (text : String) (v w : Json) :
    ((root.setPath text v).1 = true →
      (root.setPath text v).2.getPath? text = some v ∧
      (root.setPath text v).2.setPath text w = root.setPath text w) ∧
    ((root.setPath text v).1 = false → (root.setPath text v).2 = root) ∧
    (root.FitsMemory → root.setPath? text v = some (root.setPath text v)) ∧
    ∀ l items, (root.setPath text v).2.reach? l = some (.arr items) → ¬ Path.parse text <+: l →
      items.length ≤ (root.arrayAt l).length + Path.maxGrowth := by
  cases bounds : withinBounds (some root) (Path.parse text) with
  | true =>
    have there := reach?_write root (Path.parse text) v
    rw [setPath_of_bounds bounds, setPath_of_bounds bounds]
    refine ⟨fun _ => ⟨at?_of_reach? there, ?_⟩, nofun, fun fits => ?_, fun l items here outside => ?_⟩
    · rw [setPath_of_bounds (withinBounds_of_reach? there), write_write]
    · simp only [setPath?, bounds, if_pos, write?_eq fits bounds, Option.map_some]
    · exact length_le_of_write bounds outside here
  | false =>
    rw [setPath_eq root text v, if_neg (by simp [bounds])]
    refine ⟨nofun, fun _ => rfl, fun _ => ?_, fun l items here outside => ?_⟩
    · simp [setPath?, bounds]
    · rw [arrayAt_of_reach? here]
      exact Nat.le_add_right ..

/-- An array that is not there yet is filled up. -/
theorem written_laws_fresh :
    let written := (null.setPath "[2]" (.bool true)).2
    (written.getPath? "[2]" = some (.bool true) ∧
      written.setPath "[2]" (.bool false) = null.setPath "[2]" (.bool false)) ∧
    null.setPath? "[2]" (.bool true) = some (true, .arr [.null, .null, .bool true]) ∧
    ∀ items, written.reach? [] = some (.arr items) → items.length ≤ 0 + Path.maxGrowth := by
  obtain ⟨later, -, onMachine, grown⟩ := written_laws .null "[2]" (.bool true) (.bool false)
  have empty : null.FitsMemory := by
    intro l items there
    cases l with
    | nil => cases there
    | cons s l =>
      obtain ⟨c, here, -⟩ := reach?_cons.mp there
      cases s <;> cases here
  exact ⟨later rfl, onMachine empty, fun items there => grown [] items there (by decide)⟩

end ScreenFlow.Json

/-! ## Snapshots of the application state -/

namespace ScreenFlow.AppState

open Json

variable {s : AppState} {calls : List (String × Json)}

/-- The state after writes, one after the other. -/
def setAll (s : AppState) (calls : List (String × Json)) : AppState :=
  calls.foldl (fun s c => s.set c.1 c.2) s

/-- A write leaves an object an object: at the top it writes an object, below the top it goes through
a key, or through an index that is too far out to be written at all. -/
def leavesObject (text : String) (value : Json) : Bool :=
  match Path.parse text with
  | [] => value.isObject
  | .key _ :: _ => true
  | .index i :: rest => !withinBounds none (.index i :: rest)

theorem isObject_ofJson (initial : Json) : (ofJson initial).root.isObject = true := by
  rw [ofJson]
  split
  case isTrue object => exact object
  case isFalse => rfl

theorem setAll_append (s : AppState) (earlier later : List (String × Json)) :
    s.setAll (earlier ++ later) = (s.setAll earlier).setAll later := List.foldl_append

/-- An object has no items, so an index into it has as much room as one into nothing. -/
theorem withinBounds_object (object : s.root.isObject = true) (i : Nat) (rest : Path) :
    withinBounds (some s.root) (.index i :: rest) = withinBounds none (.index i :: rest) := by
  obtain ⟨root⟩ := s
  cases root with
  | obj fields => rfl
  | _ => cases object

theorem isObject_set (object : s.root.isObject = true) (text : String) (value : Json) :
    (s.set text value).root.isObject = leavesObject text value := by
  rw [set, setPath_eq, leavesObject]
  match Path.parse text with
  | [] => rfl
  | .key k :: rest =>
    dsimp only
    split
    · rw [write_cons]; rfl
    · exact object
  | .index i :: rest =>
    dsimp only
    rw [withinBounds_object object]
    cases withinBounds none (.index i :: rest) with
    | true => rw [if_pos rfl, write_cons]; rfl
    | false => exact object

theorem isObject_setAll (object : s.root.isObject = true)
    (leaves : ∀ c ∈ calls, leavesObject c.1 c.2 = true) : (s.setAll calls).root.isObject = true := by
  induction calls generalizing s with
  | nil => exact object
  | cons c rest ih =>
    obtain ⟨first, others⟩ := List.forall_mem_cons.mp leaves
    exact ih ((isObject_set object ..).trans first) others

/-- **The state is an object in every snapshot** exactly if every write leaves one. -/
theorem snapshots_objects_iff (initial : Json) (calls : List (String × Json)) :
    (∀ earlier, earlier <+: calls → ((ofJson initial).setAll earlier).root.isObject = true) ↔
      ∀ c ∈ calls, leavesObject c.1 c.2 = true := by
  constructor
  · intro objects c hc
    obtain ⟨before, after, rfl⟩ := List.append_of_mem hc
    have now := objects (before ++ [c]) ⟨after, by simp⟩
    have before := objects before (List.prefix_append ..)
    rw [setAll_append] at now
    exact (isObject_set before ..).symm.trans now
  · rintro leaves earlier ⟨later, rfl⟩
    exact isObject_setAll (isObject_ofJson initial) fun c hc => leaves c (List.mem_append_left _ hc)

/-- Whatever is written, the state stays an object. -/
def StaysObject : Prop :=
  ∀ initial calls, ((ofJson initial).setAll calls).root.isObject = true

/-- A number that is written at the empty path is the state. -/
theorem not_staysObject : ¬ StaysObject := fun stays =>
  absurd (stays .empty [("", .num (.int 3))]) Bool.false_ne_true

end ScreenFlow.AppState
