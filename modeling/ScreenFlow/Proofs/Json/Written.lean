import Mathlib.Data.List.TakeWhile
import ScreenFlow.Proofs.Json.Decoding
import ScreenFlow.Proofs.Json.Yielding

/-!
# Reading what was written

A value is handed to a reader as it is written, with the fields of every object in the order in which
they were given, or as it is kept, with its keys sorted. A record does not notice the difference: its
fields are found by name.

* `Json.Hands`: what both ways of handing a value on have in common, and all that decoders look at;
* `Fields.required`, `withDefault`, `optional`: a record reader finds the field that was written;
* `Hands.list`, `oneOrMany`, `map`, `object`: what else is built from values is read back;
* `Decoder.ReadsBack`: read back as written, as kept, and from the text as far as a text can be read.
-/

namespace ScreenFlow

variable {α β : Type}

namespace Json

/-- A way of handing values to a reader. Only the order of fields may change, and not even that if
their keys ascend. -/
structure Hands (g : Json → Source) : Prop where
  null : g .null = .null
  bool (b : Bool) : g (.bool b) = .bool b
  int (i : Int) : g (.int i) = .num (.int i)
  str (s : String) : g (.str s) = .str s
  arr (items : List Json) : g (.arr items) = .arr .json (items.map g)
  obj {fields : List (String × Json)} (nodup : (fields.map (·.1)).Nodup) :
    ∃ fs, g (.obj fields) = .obj .json fs ∧ fs.Perm (fields.map fun f => (f.1, g f.2))
  sorted {fields : List (String × Json)} (ascending : Ascending fields) :
    g (.obj fields) = .obj .json (fields.map fun f => (f.1, g f.2))
  value {v : Json} (settled : v.Settled) : Decoder.value (g v) = some v
  readable (v : Json) : (g v).isReadable = true

theorem writtenItems_eq (f : Format) (items : List Json) :
    Source.writtenItems f items = items.map (Source.written f) := by
  induction items with
  | nil => rfl
  | cons v rest ih => rw [Source.writtenItems, ih, List.map_cons]

theorem writtenFields_eq (f : Format) (fields : List (String × Json)) :
    Source.writtenFields f fields = fields.map fun p => (p.1, Source.written f p.2) := by
  induction fields with
  | nil => rfl
  | cons p rest ih => rw [Source.writtenFields, ih, List.map_cons]

theorem value_ofJson (v : Json) : Decoder.value (Source.ofJson v) = some v.normalize := by
  rw [Decoder.value, Source.ofJson, Source.toJson?_written, Option.map_some]

theorem readable_ofJson (v : Json) : (Source.ofJson v).isReadable = true := by
  rw [Source.isReadable, Source.ofJson, Source.toJson?_written, Option.isSome_some]

theorem hands_written : Hands Source.ofJson where
  null := rfl
  bool _ := rfl
  int _ := rfl
  str _ := rfl
  arr items := by rw [Source.ofJson, Source.written, writtenItems_eq]
  obj _ := ⟨_, by rw [Source.ofJson, Source.written, writtenFields_eq], .refl _⟩
  sorted _ := by rw [Source.ofJson, Source.written, writtenFields_eq]
  value settled := by rw [value_ofJson, settled]
  readable := readable_ofJson

theorem hands_kept : Hands fun v => Source.ofJson v.normalize where
  null := rfl
  bool _ := rfl
  int _ := rfl
  str _ := rfl
  arr items := by
    rw [normalize, normalizeItems_eq, hands_written.arr, List.map_map]
    rfl
  obj {fields} nodup := by
    have keys : (normalizeFields fields).map (·.1) = fields.map (·.1) := map_normalizeFields fields
    refine ⟨_, by rw [normalize, Source.ofJson, Source.written, writtenFields_eq], ?_⟩
    have moved : (extend [] (normalizeFields fields)).Perm (normalizeFields fields) :=
      extend_perm (by rwa [List.nil_append, keys])
    refine (moved.map _).trans ?_
    rw [normalizeFields_eq, List.map_map]
    exact .refl _
  sorted {fields} ascending := by
    have still : Ascending (normalizeFields fields) :=
      (ascending_congr (map_normalizeFields fields)).mpr ascending
    rw [normalize, extend_nil still, Source.ofJson, Source.written, writtenFields_eq,
      normalizeFields_eq, List.map_map]
    rfl
  value settled := by rw [value_ofJson, settled, settled]
  readable v := readable_ofJson v.normalize

end Json

/-! ### Decoders of parts -/

namespace Decoder

/-- What is read and is not what null would be read as is read as an option, too. -/
theorem option_of_read {d : Decoder α} {v : Source} {a : α} (h : d v = some a)
    (other : d .null ≠ some a) : d.option v = some (some a) := by
  unfold option
  split
  · exact absurd h other
  · rw [h, Option.map_some]

theorem natBelow_int {bits n : Nat} (h : n < Bits.values bits) :
    natBelow bits (.num (.int n)) = some n := by
  have within : (0 : Int) ≤ n ∧ (n : Int) < Bits.values bits :=
    ⟨Int.natCast_nonneg n, Int.ofNat_lt.mpr h⟩
  rw [natBelow, Number.toNatBelow?, if_pos within, Int.toNat_natCast]

theorem mapM_map_eq_some {γ : Type} {f : γ → Option α} {enc : α → γ} {as : List α}
    (h : ∀ a ∈ as, f (enc a) = some a) : (as.map enc).mapM f = some as := by
  induction as with
  | nil => rfl
  | cons a as ih =>
    obtain ⟨here, later⟩ := List.forall_mem_cons.mp h
    rw [List.map_cons, List.mapM_cons, here, ih later]
    rfl

/-- An object whose keys ascend is read in the order in which it stands. -/
theorem foldl_put (acc fields : List (String × α))
    (ascending : ((acc ++ fields).map (·.1)).Pairwise (· < ·)) :
    fields.foldl (fun acc f => map.put acc f.1 f.2) acc = acc ++ fields := by
  induction fields generalizing acc with
  | nil => simp
  | cons f fields ih =>
    have below : ∀ g ∈ acc, g.1 < f.1 := by
      rw [List.pairwise_map, List.pairwise_append] at ascending
      exact fun g hg => ascending.2.2 g hg f List.mem_cons_self
    have absent : acc.any (·.1 == f.1) = false := by
      refine List.any_eq_false.mpr fun g hg => ?_
      simpa using String.ne_of_lt (below g hg)
    have put : map.put acc f.1 f.2 = acc ++ [f] := by
      have all : ∀ g ∈ acc, decide (g.1 < f.1) = true := fun g hg => decide_eq_true (below g hg)
      rw [map.put, if_neg (by simp [absent]), List.takeWhile_eq_self_iff.mpr all,
        List.dropWhile_eq_nil_iff.mpr all]
    rw [List.foldl_cons, put, ih _ (by simpa using ascending)]
    simp

/-- Fields whose keys ascend are read back if each of them is. -/
theorem map_fields {d : Decoder α} (enc : α → Source) {fields : List (String × α)} (format : Format)
    (ascending : (fields.map (·.1)).Pairwise (· < ·)) (h : ∀ f ∈ fields, d (enc f.2) = some f.2) :
    d.map (.obj format (fields.map fun f => (f.1, enc f.2))) = some fields := by
  have each : (fields.map fun f => (f.1, enc f.2)).mapM
      (fun f : String × Source => (d f.2).map fun a => (f.1, a)) = some fields :=
    mapM_map_eq_some fun f hf => by rw [h f hf, Option.map_some]
  simp only [map, each, Option.bind_eq_bind, Option.bind_some, foldl_put [] fields ascending,
    List.nil_append, Option.pure_def]

end Decoder

/-! ### Records -/

namespace RecordReader

variable {fs : List (String × Source)}

/-- The reader finds this among the fields, and leaves them as they are. -/
def Reads (r : RecordReader α) (fs : List (String × Source)) (a : α) : Prop :=
  r.run (.named fs) = some (a, .named fs)

theorem Reads.pure (a : α) : Reads (Pure.pure a) fs a := rfl

theorem Reads.bind {r : RecordReader α} {k : α → RecordReader β} {a : α} {b : β}
    (h : r.Reads fs a) (hk : (k a).Reads fs b) : (r >>= k).Reads fs b := by
  rw [Reads, StateT.run_bind, h]
  exact hk

end RecordReader

open RecordReader (Reads)

/-- The fields that a reader is given for those of an object. -/
def Fields (g : Json → Source) (fields : List (String × Json)) (fs : List (String × Source)) : Prop :=
  fs.Perm (fields.map fun f => (f.1, g f.2))

namespace Fields

variable {g : Json → Source} {fields : List (String × Json)} {fs : List (String × Source)}
  {names : List String} {name : String} {v : Json} {d : Decoder α} {a : α}

/-- The one field with such a name is found. -/
theorem next (w : Fields g fields fs)
    (found : (fields.filter fun f => names.contains f.1).map (·.2) = [v]) :
    RecordReader.next names (.named fs) = some (some (g v), .named fs) := by
  obtain ⟨⟨name, v⟩, only, rfl⟩ := List.map_eq_singleton_iff.mp found
  have here : (fs.filter fun f => names.contains f.1) = [(name, g v)] := by
    have alike : ((fields.map fun f => (f.1, g f.2)).filter fun f => names.contains f.1) =
        (fields.filter fun f => names.contains f.1).map fun f => (f.1, g f.2) := List.filter_map
    rw [only] at alike
    exact List.perm_singleton.mp ((List.Perm.filter _ w).trans (.of_eq alike))
  rw [RecordReader.next, here]

theorem required (w : Fields g fields fs)
    (found : (fields.filter fun f => [name].contains f.1).map (·.2) = [v]) (h : d (g v) = some a) :
    (RecordReader.required name d).Reads fs a := by
  have value : Reads (liftM (d (g v)) : RecordReader α) fs a := by
    rw [h]
    rfl
  exact .bind (w.next found) value

theorem withDefault (w : Fields g fields fs) {default : α}
    (found : (fields.filter fun f => names.contains f.1).map (·.2) = [v]) (h : d (g v) = some a) :
    (RecordReader.withDefault names default d).Reads fs a := by
  have value : Reads (liftM (d (g v)) : RecordReader α) fs a := by
    rw [h]
    rfl
  exact .bind (w.next found) value

end Fields

namespace Json.Hands

variable {g : Json → Source} (hg : Hands g)

include hg

theorem record {fields : List (String × Json)} {r : RecordReader α} {a : α}
    (nodup : (fields.map (·.1)).Nodup) (h : ∀ fs, Fields g fields fs → r.Reads fs a) :
    Decoder.record r (g (.obj fields)) = some a := by
  obtain ⟨fs, same, perm⟩ := hg.obj nodup
  rw [same, Decoder.record, h fs perm]
  rfl

theorem list {d : Decoder α} {enc : α → Json} {as : List α} (h : ∀ a ∈ as, d (g (enc a)) = some a) :
    d.list (g (.arr (as.map enc))) = some as := by
  rw [hg.arr, List.map_map, Decoder.list]
  exact Decoder.mapM_map_eq_some h

/-- A list is read as a list if it cannot be taken for one value. -/
theorem oneOrMany {d : Decoder α} {enc : α → Json} {as : List α}
    (h : ∀ a ∈ as, d (g (enc a)) = some a) (refused : d (g (.arr (as.map enc))) = none) :
    d.oneOrMany (g (.arr (as.map enc))) = some as := by
  have many := hg.list h
  have readable := hg.readable (.arr (as.map enc))
  rw [hg.arr] at many readable refused ⊢
  rw [Decoder.oneOrMany, Decoder.whole, if_pos readable, refused, Option.map_none, Option.none_or,
    many]
  intro same
  cases same

theorem option {d : Decoder α} {enc : α → Json} {o : Option α}
    (h : ∀ a ∈ o, d (g (enc a)) = some a) (there : d .null = none) :
    d.option (g (.ofOption enc o)) = some o := by
  cases o with
  | none => rw [Json.ofOption, hg.null, Decoder.option]
  | some a => exact Decoder.option_of_read (h a rfl) (by simp [there])

/-- Null stands for a value that is not there. -/
theorem optionValue {o : Option Json} (settled : ∀ v ∈ o, v.Settled) (there : o ≠ some .null) :
    Decoder.value.option (g (o.getD .null)) = some o := by
  cases o with
  | none => rw [Option.getD_none, hg.null, Decoder.option]
  | some v =>
    refine Decoder.option_of_read (hg.value (settled v rfl)) fun same => there ?_
    exact same.symm

theorem map {d : Decoder α} {enc : α → Json} {fields : List (String × α)}
    (ascending : (fields.map (·.1)).Pairwise (· < ·)) (h : ∀ f ∈ fields, d (g (enc f.2)) = some f.2) :
    d.map (g (.obj (fields.map fun f => (f.1, enc f.2)))) = some fields := by
  have sorted : Ascending (fields.map fun f => (f.1, enc f.2)) :=
    ascending_iff_keys.mpr (by rwa [List.map_map])
  rw [hg.sorted sorted, List.map_map]
  exact Decoder.map_fields (fun a => g (enc a)) .json ascending h

theorem values {fields : List (String × Json)} (ascending : (fields.map (·.1)).Pairwise (· < ·))
    (settled : ∀ f ∈ fields, f.2.Settled) : Decoder.value.map (g (.obj fields)) = some fields := by
  rw [hg.sorted (ascending_iff_keys.mpr ascending)]
  exact Decoder.map_fields g .json ascending fun f hf => hg.value (settled f hf)

theorem object {fields : List (String × Json)} (settled : (Json.obj fields).Settled) :
    Decoder.object (g (.obj fields)) = some fields := by
  rw [Decoder.object, hg.value settled]

theorem string (s : String) : Decoder.string (g (.str s)) = some s := by
  rw [hg.str, Decoder.string]

theorem optionString (o : Option String) : Decoder.string.option (g (.ofOption .str o)) = some o :=
  hg.option (fun s _ => hg.string s) rfl

theorem truth (b : Bool) : Decoder.bool (g (.bool b)) = some b := by
  rw [hg.bool, Decoder.bool]

theorem nat {bits n : Nat} (h : n < Bits.values bits) : Decoder.natBelow bits (g (.nat n)) = some n := by
  rw [Json.nat, ← Json.int, hg.int]
  exact Decoder.natBelow_int h

end Json.Hands

/-! ### Texts -/

namespace Json

mutual

/-- A text that can be read as a whole is read as what was written. -/
theorem reread_eq_written : ∀ {v : Json} {depth : Nat}, v.nesting ≤ depth → v.Exact →
    v.reread depth = Source.ofJson v
  | .null, _, _, _ | .bool _, _, _, _ | .str _, _, _, _ => rfl
  | .num n, _, _, h => h
  | .arr _, 0, h, _ | .obj _, 0, h, _ => by simp [nesting] at h
  | .arr items, depth + 1, hn, he => by
    rw [reread, Source.ofJson, Source.written,
      rereadItems_eq_written (Nat.le_of_succ_le_succ hn) he]
  | .obj fields, depth + 1, hn, he => by
    rw [reread, Source.ofJson, Source.written,
      rereadFields_eq_written (Nat.le_of_succ_le_succ hn) he]

theorem rereadItems_eq_written : ∀ {vs : List Json} {depth : Nat}, nestingItems vs ≤ depth →
    ExactItems vs → rereadItems vs depth = Source.writtenItems .json vs
  | [], _, _, _ => rfl
  | v :: rest, depth, hn, he => by
    obtain ⟨hv, hrest⟩ := Nat.max_le.mp hn
    rw [rereadItems, Source.writtenItems, reread_eq_written hv he.1,
      rereadItems_eq_written hrest he.2, Source.ofJson]

theorem rereadFields_eq_written : ∀ {fs : List (String × Json)} {depth : Nat},
    nestingFields fs ≤ depth → ExactFields fs →
    rereadFields fs depth = Source.writtenFields .json fs
  | [], _, _, _ => rfl
  | (k, v) :: rest, depth, hn, he => by
    obtain ⟨hv, hrest⟩ := Nat.max_le.mp hn
    rw [rereadFields, Source.writtenFields, reread_eq_written hv he.1,
      rereadFields_eq_written hrest he.2, Source.ofJson]

end

end Json

/-- What a value is encoded to is read back as the value: as it is written, as it is kept, and from its
text if no more brackets lie around a part than a reader allows and numbers are what their digits say. -/
structure Decoder.ReadsBack (d : Decoder α) (enc : α → Json) (a : α) : Prop where
  written : d (Source.ofJson (enc a)) = some a
  kept : d (Source.ofJson (enc a).normalize) = some a
  text (shallow : (enc a).nesting ≤ Json.Reader.maxDepth) (exact : (enc a).Exact) :
    Json.decodeText d (enc a).render = .ok a

theorem Decoder.readsBack {d : Decoder α} {enc : α → Json} {a : α}
    (h : ∀ g, Json.Hands g → d (g (enc a)) = some a) : d.ReadsBack enc a where
  written := h _ Json.hands_written
  kept := h _ Json.hands_kept
  text shallow exact := by
    rw [Json.decodeText_render, Json.reread_eq_written shallow exact, h _ Json.hands_written]

end ScreenFlow
