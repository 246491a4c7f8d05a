import ScreenFlow.Proofs.Path.Writing

/-!
# Writing where something stands

A read takes a key that is made of digits for an index of an array; a write takes it for a key.

* `locate?`: the location that a path is read at, spelled with keys and indexes as they are taken;
* `write_same`, `at?_write_of_apart`: a path that is taken alike by both is updated in place;
* `updates_in_place_iff`: no other path is;
* `not_updatesWhatIsRead`: an array that is addressed by a key is lost.
-/

namespace ScreenFlow.Json

variable {v new c w old : Json} {s t : Segment} {path rest other l m : Path}

/-! ### Locations -/

/-- What a segment is taken for when it is read. -/
def spell (v : Json) (s : Segment) : Segment :=
  match v, s with
  | .arr _, .key k => ((Text.natBelow? 64 k.toList).map Segment.index).getD (.key k)
  | _, s => s

theorem step?_eq (v : Json) (s : Segment) : v.step? s = v.child? (v.spell s) := by
  cases s with
  | index i => cases v <;> rfl
  | key k =>
    cases v with
    | arr items =>
      rw [step?, spell]
      cases Text.natBelow? 64 k.toList <;> rfl
    | _ => rfl

/-- The location of what a path reads. -/
def locate? (v : Json) : Path → Option Path
  | [] => some []
  | s :: rest => (v.step? s).bind fun c => (c.locate? rest).map (v.spell s :: ·)

theorem locate?_cons : v.locate? (s :: rest) = some l ↔
    ∃ c below, v.step? s = some c ∧ c.locate? rest = some below ∧ v.spell s :: below = l := by
  simp only [locate?, Option.bind_eq_some_iff, Option.map_eq_some_iff, exists_and_left]

theorem at?_cons : v.at? (s :: rest) = some w ↔ ∃ c, v.step? s = some c ∧ c.at? rest = some w :=
  Option.bind_eq_some_iff

/-- The location leads to what the path reads. -/
theorem reach?_of_locate? (h : v.locate? path = some l) : v.reach? l = v.at? path := by
  induction path generalizing v l with
  | nil => obtain rfl := Option.some.inj h; rfl
  | cons s rest ih =>
    obtain ⟨c, below, here, there, rfl⟩ := locate?_cons.mp h
    rw [reach?, at?, ← step?_eq, here]
    exact ih there

theorem locate?_of_at? (h : v.at? path = some w) : ∃ l, v.locate? path = some l := by
  induction path generalizing v with
  | nil => exact ⟨[], rfl⟩
  | cons s rest ih =>
    obtain ⟨c, here, there⟩ := at?_cons.mp h
    obtain ⟨l, hl⟩ := ih there
    exact ⟨_, locate?_cons.mpr ⟨c, l, here, hl, rfl⟩⟩

theorem spell_of_child? (h : v.child? s = some c) : v.spell s = s := by
  cases s <;> cases v <;> first | rfl | cases h

theorem locate?_of_reach? (h : v.reach? path = some w) : v.locate? path = some path := by
  induction path generalizing v with
  | nil => rfl
  | cons s rest ih =>
    obtain ⟨c, here, there⟩ := reach?_cons.mp h
    exact locate?_cons.mpr ⟨c, rest, step?_of_child? here, ih there, by rw [spell_of_child? here]⟩

/-- Neither location lies at the other or below it. -/
def Apart (v : Json) (path other : Path) : Prop :=
  ∀ l m, v.locate? path = some l → v.locate? other = some m → ¬ l <+: m ∧ ¬ m <+: l

/-! ### In place -/

theorem insert_lookup {fields : List (String × Json)} {k : String} (ascending : Ascending fields)
    (h : lookup fields k = some c) : insert fields k c = fields := by
  obtain ⟨f, found, rfl⟩ := Option.map_eq_some_iff.mp h
  obtain ⟨same, before, after, rfl, earlier⟩ := List.find?_eq_some_iff_append.mp found
  obtain rfl := eq_of_beq same
  have absent : ∀ g ∈ before, g.1 ≠ f.1 := fun g hg => by simpa using earlier g hg
  obtain ⟨-, tail, -⟩ := List.pairwise_append.mp ascending
  have later : ∀ g ∈ after, g.1 ≠ f.1 :=
    fun g hg => (String.ne_of_lt ((List.pairwise_cons.mp tail).1 g hg)).symm
  rw [insert, if_pos (by simp), List.map_append, List.map_cons, overwrite_absent absent,
    overwrite_absent later, if_pos same]

theorem put_child (normal : v.Normal) (h : v.child? s = some c) : v.put s c = v := by
  cases s with
  | key k =>
    cases v with
    | obj fields => exact congrArg Json.obj (insert_lookup normal.1 h)
    | _ => cases h
  | index i =>
    cases v with
    | arr items =>
      have here : items[i]? = some c := h
      obtain ⟨within, rfl⟩ := List.getElem?_eq_some_iff.mp here
      rw [put, items?, Option.getD_some, pad_of_le within]
      exact congrArg Json.arr (List.set_getElem_self within)
    | _ => cases h

theorem normalItems_iff {items : List Json} : NormalItems items ↔ ∀ c ∈ items, c.Normal := by
  induction items with
  | nil => simp [NormalItems]
  | cons c rest ih => simp [NormalItems, ih]

theorem normalFields_iff {fields : List (String × Json)} :
    NormalFields fields ↔ ∀ f ∈ fields, f.2.Normal := by
  induction fields with
  | nil => simp [NormalFields]
  | cons f rest ih => simp [NormalFields, ih]

theorem Normal.child (normal : v.Normal) (h : v.child? s = some c) : c.Normal := by
  cases s with
  | key k =>
    cases v with
    | obj fields =>
      obtain ⟨f, found, rfl⟩ := Option.map_eq_some_iff.mp h
      exact normalFields_iff.mp normal.2 f (List.mem_of_find?_eq_some found)
    | _ => cases h
  | index i =>
    cases v with
    | arr items => exact normalItems_iff.mp normal c (List.mem_of_getElem? h)
    | _ => cases h

/-- Where the path goes on, a write begins with what is there. -/
theorem write_cons_of_at? (here : v.child? s = some c) (below : c.at? rest = some w) :
    v.write (s :: rest) new = v.put s (c.write rest new) := by
  rw [write_cons, entry, here]
  cases rest with
  | nil => rfl
  | cons t rest =>
    have goesOn : c.isNull = false := by
      obtain ⟨d, there, -⟩ := at?_cons.mp below
      cases c with
      | null => cases t <;> cases there
      | _ => rfl
    dsimp only
    rw [goesOn, if_neg Bool.false_ne_true]

/-- What stands there already may be written again. -/
theorem write_same (normal : v.Normal) (h : v.reach? path = some old) : v.write path old = v := by
  induction path generalizing v with
  | nil => exact (Option.some.inj h).symm
  | cons s rest ih =>
    obtain ⟨c, here, below⟩ := reach?_cons.mp h
    rw [write_cons_of_at? here (at?_of_reach? below), ih (normal.child here) below]
    exact put_child normal here

/-- A write that takes a key for a key where a read takes it for an index loses the array. -/
theorem write_ne (read : v.at? path = some old) (lost : v.reach? path = none) :
    v.write path new ≠ v := by
  induction path generalizing v with
  | nil => cases lost
  | cons s rest ih =>
    obtain ⟨c, step, below⟩ := at?_cons.mp read
    intro same
    cases here : v.child? s with
    | some c' =>
      obtain rfl : c' = c := Option.some.inj ((step?_of_child? here).symm.trans step)
      have deeper : c'.reach? rest = none := by simpa [reach?, here] using lost
      rw [write_cons_of_at? here below] at same
      have there := child?_put v s (c'.write rest new)
      rw [same, here] at there
      exact ih below deeper (Option.some.inj there).symm
    | none =>
      rw [write_cons] at same
      cases s with
      | index i => cases v <;> simp_all [step?, child?]
      | key k =>
        cases v with
        | obj fields => cases here.symm.trans step
        | arr items => cases same
        | _ => cases step

/-! ### Elsewhere -/

/-- What is put in place of something leaves everything beside it. -/
theorem child?_put_beside (here : v.child? s = some c) (apart : t ≠ s) (new : Json) :
    (v.put s new).child? t = v.child? t := by
  cases s with
  | key k =>
    cases v with
    | obj fields =>
      cases t with
      | index i => rfl
      | key k' => exact lookup_insert.trans (if_neg (by simpa using apart))
    | _ => cases here
  | index i =>
    cases v with
    | arr items =>
      have within := (List.getElem?_eq_some_iff.mp here).1
      cases t with
      | key k => rfl
      | index j =>
        have other : i ≠ j := fun same => apart (congrArg Segment.index same.symm)
        rw [put, items?, Option.getD_some, pad_of_le within]
        exact List.getElem?_set_ne other
    | _ => cases here

theorem spell_put (here : v.child? s = some c) (new : Json) (t : Segment) :
    (v.put s new).spell t = v.spell t := by
  cases s with
  | key k =>
    cases v with
    | obj fields => rfl
    | _ => cases here
  | index i =>
    cases v with
    | arr items => cases t <;> rfl
    | _ => cases here

theorem at?_write_of_apart (there : v.reach? path = some old) (located : v.locate? other = some l)
    (below : ¬ path <+: l) (above : ¬ l <+: path) : (v.write path new).at? other = v.at? other := by
  induction path generalizing v other l with
  | nil => exact absurd List.nil_prefix below
  | cons s rest ih =>
    obtain ⟨c, here, reached⟩ := reach?_cons.mp there
    rw [write_cons_of_at? here (at?_of_reach? reached)]
    cases other with
    | nil =>
      obtain rfl := Option.some.inj located
      exact absurd List.nil_prefix above
    | cons t other =>
      obtain ⟨d, m, step, inner, rfl⟩ := locate?_cons.mp located
      rw [at?, at?, step?_eq, step?_eq, spell_put here]
      by_cases same : v.spell t = s
      · rw [step?_eq, same, here] at step
        obtain rfl := Option.some.inj step
        rw [same, child?_put, here, Option.bind_some, Option.bind_some]
        refine ih reached inner (fun h => below ?_) (fun h => above ?_)
        · rw [same]; exact List.cons_prefix_cons.mpr ⟨rfl, h⟩
        · rw [same]; exact List.cons_prefix_cons.mpr ⟨rfl, h⟩
      · rw [child?_put_beside here same]

/-! ### Path texts -/

/-- Writing what is read there changes nothing, every value can be written there, and then every path
that is read elsewhere is read as before. -/
def UpdatesInPlace (root : Json) (text : String) (old : Json) : Prop :=
  (root.setPath text old).2 = root ∧
  ∀ v, (root.setPath text v).1 = true ∧
    ∀ other w, root.getPath? other = some w → Apart root (Path.parse text) (Path.parse other) →
      (root.setPath text v).2.getPath? other = some w

/-- **A path that is read is updated in place** exactly if each of its keys meets an object, so that
none is taken for an index. -/
theorem updates_in_place_iff (root : Json) (normal : root.Normal) (text : String) (old : Json)
    (read : root.getPath? text = some old) :
    UpdatesInPlace root text old ↔ (root.reach? (Path.parse text)).isSome = true := by
  constructor
  · rintro ⟨same, written⟩
    refine Classical.byContradiction fun lost => ?_
    have bounds : withinBounds (some root) (Path.parse text) = true := by
      have happened := (written old).1
      rw [setPath_eq] at happened
      split at happened
      · assumption
      · cases happened
    rw [setPath_of_bounds bounds] at same
    exact write_ne read (by simpa using lost) same
  · intro there
    obtain ⟨w, reached⟩ := Option.isSome_iff_exists.mp there
    obtain rfl : w = old := Option.some.inj ((at?_of_reach? reached).symm.trans read)
    have bounds := withinBounds_of_reach? reached
    refine ⟨?_, fun v => ?_⟩
    · rw [setPath_of_bounds bounds]
      exact write_same normal reached
    · rw [setPath_of_bounds bounds]
      refine ⟨rfl, fun other w' seen apart => ?_⟩
      obtain ⟨l, located⟩ := locate?_of_at? seen
      obtain ⟨below, above⟩ := apart _ l (locate?_of_reach? reached) located
      exact (at?_write_of_apart reached located below above).trans seen

/-- Two named rows of a table. -/
def rows : Json := .obj [("rows", .arr [.obj [("name", .str "a")], .obj [("name", .str "b")]])]

theorem rows_normal : rows.Normal := by
  simp [rows, Normal, NormalFields, NormalItems, Ascending]

/-- A row that is written by its index; its neighbour, read by a key of digits, stays. -/
theorem updates_in_place_iff_index :
    rows.Normal ∧ rows.getPath? "rows[0].name" = some (.str "a") ∧
    (rows.setPath "rows[0].name" (.str "c")).2.getPath? "rows.1.name" = some (.str "b") := by
  refine ⟨rows_normal, rfl, ?_⟩
  have inPlace := (updates_in_place_iff _ rows_normal "rows[0].name" (.str "a") rfl).mpr rfl
  refine (inPlace.2 (.str "c")).2 "rows.1.name" (.str "b") rfl ?_
  intro l m located elsewhere
  have first : rows.locate? (Path.parse "rows[0].name") =
      some [.key "rows", .index 0, .key "name"] := rfl
  have second : rows.locate? (Path.parse "rows.1.name") =
      some [.key "rows", .index 1, .key "name"] := rfl
  obtain rfl := Option.some.inj (first.symm.trans located)
  obtain rfl := Option.some.inj (second.symm.trans elsewhere)
  decide

/-- Whatever is read is updated in place. -/
def UpdatesWhatIsRead : Prop :=
  ∀ (root : Json) (text : String) (old : Json), root.Normal → root.getPath? text = some old →
    UpdatesInPlace root text old

/-- Writing back what a key of digits reads makes an object of the array, and the second row is gone. -/
theorem not_updatesWhatIsRead : ¬ UpdatesWhatIsRead := by
  intro inPlace
  have same := (inPlace rows "rows.0.name" (.str "a") rows_normal rfl).1
  have lost : (rows.setPath "rows.0.name" (.str "a")).2 =
      .obj [("rows", .obj [("0", .obj [("name", .str "a")])])] := rfl
  exact absurd (lost.symm.trans same) nofun

end ScreenFlow.Json
