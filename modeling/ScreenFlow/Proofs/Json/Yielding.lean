import ScreenFlow.Json.Record
import ScreenFlow.Proofs.Json.Fields
import ScreenFlow.Proofs.Json.Numerals

/-!
# What decoders can yield

Whatever a decoder makes of a document has certain properties: numbers are in range, objects have
their keys in order. A record has what its fields have.

* `Decoder.Yields`, `RecordReader.Yields`: everything that is read of a source of some kind has a
  property, with one rule for each way to build a decoder;
* `yields_map`: an object is read as fields with ascending keys;
* `yields_value`: a value is read as one that stays as it is;
* `finite_document`: no double that is read of a text is infinite.
-/

namespace ScreenFlow

variable {α β : Type} {P Q : α → Prop} {R : β → Prop}

/-! ### Decoders -/

/-- Parts of a source of this kind are of this kind as well. -/
structure Source.Hereditary (S : Source → Prop) : Prop where
  items {format : Format} {vs : List Source} (h : S (.arr format vs)) : ∀ v ∈ vs, S v
  fields {format : Format} {fs : List (String × Source)} (h : S (.obj format fs)) : ∀ f ∈ fs, S f.2

/-- Whatever can be written. -/
def Source.Any (_ : Source) : Prop := True

theorem Source.hereditary_any : Hereditary Any := ⟨fun _ _ _ => trivial, fun _ _ _ => trivial⟩

variable {S : Source → Prop}

namespace Decoder

/-- Whatever is read of such a source has the property. -/
def Yields (d : Decoder α) (S : Source → Prop) (P : α → Prop) : Prop :=
  ∀ ⦃v a⦄, S v → d v = some a → P a

theorem Yields.mono {d : Decoder α} (h : d.Yields S P) (imp : ∀ a, P a → Q a) : d.Yields S Q :=
  fun _ _ source read => imp _ (h source read)

theorem yields_true (d : Decoder α) : d.Yields S fun _ => True := fun _ _ _ _ => trivial

theorem yields_value : value.Yields S Json.Settled := by
  intro v w _ h
  obtain ⟨u, -, rfl⟩ := Option.map_eq_some_iff.mp h
  exact u.settled_normalize

theorem yields_object : object.Yields S fun fields => (Json.obj fields).Settled := by
  intro v fields source h
  unfold object at h
  split at h
  · rename_i read
    obtain rfl := Option.some.inj h
    exact yields_value source read
  · cases h

theorem yields_natBelow (bits : Nat) : (natBelow bits).Yields S (· < Bits.values bits) := by
  intro v n _ h
  cases v with
  | num m =>
    cases m with
    | int i =>
      simp only [natBelow, Number.toNatBelow?] at h
      split at h
      · rename_i within
        obtain rfl := Option.some.inj h
        omega
      · cases h
    | double bits => cases h
  | _ => cases h

theorem yields_int64 : int64.Yields S fun i => Bits.inInt64 i = true := by
  intro v i _ h
  cases v with
  | num m =>
    cases m with
    | int j =>
      simp only [int64, Number.toInt64?] at h
      split at h
      · rename_i within
        exact Option.some.inj h ▸ within
      · cases h
    | double bits => cases h
  | _ => cases h

theorem Yields.option {d : Decoder α} (h : d.Yields S P) :
    d.option.Yields S fun o => ∀ a ∈ o, P a := by
  intro v o source read
  unfold Decoder.option at read
  split at read
  · obtain rfl := Option.some.inj read
    exact nofun
  · obtain ⟨a, ha, rfl⟩ := Option.map_eq_some_iff.mp read
    rintro _ ⟨⟩
    exact h source ha

theorem mem_of_mapM {γ : Type} {f : γ → Option α} {cs : List γ} {as : List α}
    (h : cs.mapM f = some as) : ∀ a ∈ as, ∃ c ∈ cs, f c = some a := by
  induction cs generalizing as with
  | nil =>
    obtain rfl : [] = as := by simpa using h
    exact nofun
  | cons c cs ih =>
    simp only [List.mapM_cons, Option.bind_eq_bind, Option.bind_eq_some_iff, Option.pure_def,
      Option.some.injEq] at h
    obtain ⟨b, hb, bs, hbs, rfl⟩ := h
    intro a ha
    rcases List.mem_cons.mp ha with rfl | later
    · exact ⟨c, List.mem_cons_self, hb⟩
    · obtain ⟨c', hc', hf⟩ := ih hbs a later
      exact ⟨c', List.mem_cons_of_mem c hc', hf⟩

theorem Yields.list {d : Decoder α} (h : d.Yields S P) (hS : Source.Hereditary S) :
    d.list.Yields S fun as => ∀ a ∈ as, P a := by
  intro v as source read
  unfold Decoder.list at read
  split at read
  · intro a ha
    obtain ⟨c, mem, hc⟩ := mem_of_mapM read a ha
    exact h (hS.items source c mem) hc
  · cases read

/-! ### Objects -/

/-- A field that is put in is there, and everything else was there before. -/
theorem mem_put {fields : List (String × α)} {key : String} {a : α} {f : String × α}
    (h : f ∈ map.put fields key a) : f = (key, a) ∨ f ∈ fields := by
  rw [map.put] at h
  split at h
  · obtain ⟨g, hg, rfl⟩ := List.mem_map.mp h
    split
    · exact .inl rfl
    · exact .inr hg
  · rcases List.mem_append.mp h with before | after
    · exact .inr ((List.takeWhile_sublist _).subset before)
    · exact (List.mem_cons.mp after).imp_right fun later => (List.dropWhile_sublist _).subset later

/-- Where a field is put depends on the keys alone, so that its keys ascend as those of an object of
JSON do. -/
theorem ascending_put {fields : List (String × α)} (h : (fields.map (·.1)).Pairwise (· < ·))
    (key : String) (a : α) : ((map.put fields key a).map (·.1)).Pairwise (· < ·) := by
  let blank (f : String × α) : String × Json := (f.1, .null)
  have same : (map.put fields key a).map blank = Json.insert (fields.map blank) key .null := by
    have marked : (fields.map blank).any (·.1 == key) = fields.any (·.1 == key) := List.any_map ..
    rw [map.put, Json.insert, marked, List.takeWhile_map, List.dropWhile_map]
    by_cases there : fields.any (·.1 == key) = true
    · rw [if_pos there, if_pos there, List.map_map, List.map_map]
      refine List.map_congr_left fun f _ => ?_
      by_cases this : f.1 = key <;> simp [blank, this]
    · rw [if_neg there, if_neg there, List.map_append, List.map_cons]
      rfl
  have keys (fields : List (String × α)) : (fields.map blank).map (·.1) = fields.map (·.1) :=
    List.map_map ..
  have ascending : Json.Ascending (fields.map blank) :=
    Json.ascending_iff_keys.mpr ((keys fields).symm ▸ h)
  have inserted : Json.Ascending (Json.insert (fields.map blank) key .null) :=
    Json.ascending_insert ascending
  rwa [← same, Json.ascending_iff_keys, keys] at inserted

theorem foldl_put_spec {acc fields : List (String × α)} (h : (acc.map (·.1)).Pairwise (· < ·))
    (held : ∀ f ∈ acc, P f.2) (each : ∀ f ∈ fields, P f.2) :
    ((fields.foldl (fun acc f => map.put acc f.1 f.2) acc).map (·.1)).Pairwise (· < ·) ∧
      ∀ f ∈ fields.foldl (fun acc f => map.put acc f.1 f.2) acc, P f.2 := by
  induction fields generalizing acc with
  | nil => exact ⟨h, held⟩
  | cons g fields ih =>
    obtain ⟨here, later⟩ := List.forall_mem_cons.mp each
    refine ih (ascending_put h g.1 g.2) (fun f hf => ?_) later
    rcases mem_put hf with rfl | old
    · exact here
    · exact held f old

theorem Yields.map {d : Decoder α} (h : d.Yields S P) (hS : Source.Hereditary S) :
    d.map.Yields S fun fields => (fields.map (·.1)).Pairwise (· < ·) ∧ ∀ f ∈ fields, P f.2 := by
  intro v fields source read
  unfold Decoder.map at read
  split at read
  · obtain ⟨parts, hparts, hput⟩ := Option.bind_eq_some_iff.mp read
    obtain rfl := Option.some.inj hput
    refine foldl_put_spec .nil (List.forall_mem_nil _) fun f hf => ?_
    obtain ⟨c, mem, hc⟩ := mem_of_mapM hparts f hf
    obtain ⟨a, ha, rfl⟩ := Option.map_eq_some_iff.mp hc
    exact h (hS.fields source c mem) ha
  · cases read

theorem Yields.oneOrMany {d : Decoder α} (h : d.Yields S P) (hS : Source.Hereditary S) :
    d.oneOrMany.Yields S fun as => ∀ a ∈ as, P a := by
  intro v as source read
  unfold Decoder.oneOrMany at read
  split at read
  · obtain rfl := Option.some.inj read
    exact List.forall_mem_nil _
  · unfold whole at read
    split at read
    · rcases Option.or_eq_some_iff.mp read with one | ⟨-, many⟩
      · obtain ⟨a, ha, rfl⟩ := Option.map_eq_some_iff.mp one
        exact List.forall_mem_singleton.mpr (h source ha)
      · exact h.list hS source many
    · cases read

end Decoder

/-! ### Records -/

/-- All that is left to read of a record is of this kind. -/
def RecordSource.All (S : Source → Prop) : RecordSource → Prop
  | .named fields => ∀ f ∈ fields, S f.2
  | .listed items => ∀ v ∈ items, S v

namespace RecordReader

/-- Whatever is read of such a record has the property, and such a record is left. -/
def Yields (r : RecordReader α) (S : Source → Prop) (P : α → Prop) : Prop :=
  ∀ ⦃source a rest⦄, source.All S → r.run source = some (a, rest) → P a ∧ rest.All S

theorem yields_pure {a : α} (h : P a) : Yields (pure a) S P := by
  rintro source b rest kind ⟨⟩
  exact ⟨h, kind⟩

theorem Yields.bind {r : RecordReader α} {k : α → RecordReader β} (h : r.Yields S P)
    (hk : ∀ a, P a → (k a).Yields S R) : (r >>= k).Yields S R := by
  intro source b rest kind read
  rw [StateT.run_bind] at read
  obtain ⟨⟨a, middle⟩, first, second⟩ := Option.bind_eq_some_iff.mp read
  obtain ⟨ha, kind⟩ := h kind first
  exact hk a ha kind second

theorem yields_next (names : List String) : (next names).Yields S fun found => ∀ v ∈ found, S v := by
  intro source found rest kind read
  change next names source = some (found, rest) at read
  cases source with
  | named fields =>
    simp only [next] at read
    split at read
    · cases read
      exact ⟨nofun, kind⟩
    · rename_i f only
      cases read
      have mem : f ∈ fields := (List.mem_filter.mp (only ▸ List.mem_singleton_self f)).1
      refine ⟨?_, kind⟩
      rintro _ ⟨⟩
      exact kind f mem
    · cases read
  | listed items =>
    cases items with
    | nil =>
      cases read
      exact ⟨nofun, kind⟩
    | cons v items =>
      cases read
      obtain ⟨here, later⟩ := List.forall_mem_cons.mp kind
      refine ⟨?_, later⟩
      rintro _ ⟨⟩
      exact here

/-- A value that is read by a decoder, whatever is left of the record. -/
theorem yields_lift {o : Option α} (h : ∀ a, o = some a → P a) :
    Yields (StateT.lift o : RecordReader α) S P := by
  intro source a rest kind read
  obtain ⟨b, hb, same⟩ := Option.bind_eq_some_iff.mp read
  cases same
  exact ⟨h a hb, kind⟩

theorem yields_required {d : Decoder α} (h : d.Yields S P) (name : String) :
    (required name d).Yields S P := by
  refine (yields_next [name]).bind fun found kind => ?_
  cases found with
  | none => exact fun _ _ _ _ read => nomatch read
  | some v => exact yields_lift fun a ha => h (kind v rfl) ha

theorem yields_withDefault {d : Decoder α} (h : d.Yields S P) (names : List String) {default : α}
    (hdefault : P default) : (withDefault names default d).Yields S P := by
  refine (yields_next names).bind fun found kind => ?_
  cases found with
  | none => exact yields_pure hdefault
  | some v => exact yields_lift fun a ha => h (kind v rfl) ha

theorem yields_optional {d : Decoder α} (h : d.Yields S P) (name : String) :
    (optional name d).Yields S fun o => ∀ a ∈ o, P a :=
  yields_withDefault h.option [name] nofun

end RecordReader

theorem Decoder.yields_record {r : RecordReader α} (h : r.Yields S P) (hS : Source.Hereditary S) :
    (Decoder.record r).Yields S P := by
  intro v a source read
  cases v with
  | obj format fields =>
    obtain ⟨⟨b, rest⟩, run, rfl⟩ := Option.map_eq_some_iff.mp read
    have kind : (RecordSource.named fields).All S := hS.fields source
    exact (h kind run).1
  | arr format items =>
    obtain ⟨⟨b, rest⟩, run, used⟩ := Option.bind_eq_some_iff.mp read
    obtain rfl : b = a := by
      dsimp only at used
      split at used
      · cases used
      · exact Option.some.inj used
    have kind : (RecordSource.listed items).All S := hS.items source
    exact (h kind run).1
  | _ => cases read

/-! ### Texts -/

/-- Every double is finite. -/
inductive Source.Finite : Source → Prop
  | null : Finite .null
  | bool (b : Bool) : Finite (.bool b)
  | int (i : Int) : Finite (.num (.int i))
  | double {bits : UInt64} (h : Binary64.isFinite bits = true) : Finite (.num (.double bits))
  | str (s : String) : Finite (.str s)
  | arr {format : Format} {items : List Source} (h : ∀ v ∈ items, v.Finite) :
    Finite (.arr format items)
  | obj {format : Format} {fields : List (String × Source)} (h : ∀ f ∈ fields, f.2.Finite) :
    Finite (.obj format fields)
  | unreadable (passed : Bool) : Finite (.unreadable passed)

theorem Source.hereditary_finite : Hereditary Finite where
  items h := by
    cases h with
    | arr h => exact h
  fields h := by
    cases h with
    | obj h => exact h

/-- Only null is read as null. -/
theorem Decoder.yields_option_value :
    Decoder.value.option.Yields Source.Finite fun o => (∀ v ∈ o, v.Settled) ∧ o ≠ some .null := by
  intro v o finite read
  refine ⟨Decoder.yields_value.option finite read, ?_⟩
  rintro rfl
  unfold Decoder.option at read
  split at read
  · cases read
  · obtain ⟨w, hw, same⟩ := Option.map_eq_some_iff.mp read
    obtain rfl := Option.some.inj same
    obtain ⟨u, hu, blank⟩ := Option.map_eq_some_iff.mp hw
    cases finite with
    | null => contradiction
    | double h =>
      cases hu
      rw [Json.normalize, if_pos h] at blank
      cases blank
    | arr =>
      obtain ⟨ws, -, rfl⟩ := Option.map_eq_some_iff.mp hu
      rw [Json.normalize] at blank
      cases blank
    | obj =>
      obtain ⟨ws, -, rfl⟩ := Option.map_eq_some_iff.mp hu
      rw [Json.normalize] at blank
      cases blank
    | bool | int | str => cases hu; cases blank
    | unreadable => cases hu

namespace Json.Reader

end Json.Reader

/-- What is read of bytes is settled. -/
theorem Json.settled_ofBytes? {bytes : Bytes} {v : Json} (h : ofBytes? bytes = some v) :
    v.Settled := by
  cases read : ofBytes bytes with
  | error e => simp [ofBytes?, read, Except.toOption] at h
  | ok w =>
    obtain rfl : w = v := by simpa [ofBytes?, read, Except.toOption] using h
    obtain ⟨_, -, value⟩ := Reader.decode_eq_ok_iff.mp read
    exact Decoder.yields_value (S := Source.Any) trivial value

end ScreenFlow
