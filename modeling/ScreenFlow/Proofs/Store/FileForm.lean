import ScreenFlow.Proofs.Json.Indented
import ScreenFlow.Proofs.Json.Written
import ScreenFlow.Proofs.Store.Entries
import ScreenFlow.Store.File

/-!
# Entries in a file

What is written to the file is read as the same entries, and entries that do not expire differ exactly
if something is announced.

* `FileStore.ofBytes_toBytes`: the bytes of a file are read as what was written;
* `FileStore.differences_eq_nil_iff`: nothing is announced exactly between equal entries.
-/

namespace ScreenFlow

open RecordReader (present)

/-! ### The written form -/

namespace Entry

/-- The expiry can be written down. -/
def Fits (e : Entry) : Prop := ∀ t ∈ e.expiresAt, Bits.inInt64 t = true

/-- The fields of an entry as they are read. -/
def sourceFields (e : Entry) : List (String × Option Source) :=
  [("value", some (.str e.value)), ("expiresAt", e.expiresAt.map fun t => (Number.int t).reread)]

theorem toJson_reread (e : Entry) (depth : Nat) :
    e.toJson.reread (depth + 1) = .obj .json (present e.sourceFields) := by
  cases h : e.expiresAt <;> simp [toJson, h, present, sourceFields, Json.int]

theorem decode_reread {e : Entry} (fits : e.Fits) (depth : Nat) :
    Entry.decode (e.toJson.reread (depth + 1)) = some e := by
  have nodup : (e.sourceFields.map (·.1)).Nodup := by simp [sourceFields]
  rw [toJson_reread]
  simp only [decode, Decoder.record, RecordReader.bind_required nodup,
    RecordReader.bind_optional nodup]
  simp [sourceFields, List.lookup_cons, Decoder.string, Decoder.field_int64 fits]

theorem nesting_toJson (e : Entry) : e.toJson.nesting = 1 := by
  cases h : e.expiresAt <;> simp [toJson, h, Json.nesting, Json.nestingFields, Json.int]

end Entry

namespace Entries

variable {es fs : Entries}

/-- Entries can be written down. -/
def Fits (es : Entries) : Prop := ∀ e ∈ es, e.2.Fits

theorem decode_reread (ascending : es.Ascending) (fits : es.Fits) (depth : Nat) :
    Entries.decode (es.toJson.reread (depth + 2)) = some es := by
  rw [toJson, Json.reread_obj, List.map_map]
  exact Decoder.map_fields (fun e : Entry => e.toJson.reread (depth + 1)) .json ascending
    fun e he => Entry.decode_reread (fits e he) depth

theorem nesting_toJson (es : Entries) : es.toJson.nesting ≤ 2 := by
  have fields : Json.nestingFields (es.map fun e => (e.1, e.2.toJson)) ≤ 1 := by
    induction es with
    | nil => simp [Json.nestingFields]
    | cons e es ih =>
      rw [List.map_cons, Json.nestingFields, Entry.nesting_toJson]
      exact Nat.max_le.mpr ⟨Nat.le_refl 1, ih⟩
  exact Nat.succ_le_succ fields

/-! ### Lasting entries -/

/-- None of the entries expires. -/
def Lasting (es : Entries) : Prop := ∀ e ∈ es, e.2.expiresAt = none

theorem Lasting.fits (h : es.Lasting) : es.Fits := fun e he => by
  rw [Entry.Fits, h e he]
  exact nofun

theorem Lasting.erase (h : es.Lasting) (key : String) : (es.erase key).Lasting :=
  fun e he => h e (List.mem_filter.mp he).1

theorem Lasting.insert (h : es.Lasting) (key value : String) : (es.insert key { value }).Lasting := by
  intro e he
  rcases List.mem_append.mp he with before | after
  · exact h.erase key e ((List.takeWhile_sublist _).subset before)
  · rcases List.mem_cons.mp after with rfl | after
    · rfl
    · exact h.erase key e ((List.dropWhile_sublist _).subset after)

theorem Lasting.find? {key : String} {e : Entry} (h : es.Lasting) (found : es.find? key = some e) :
    e.expiresAt = none := by
  obtain ⟨f, hf, rfl⟩ := Option.map_eq_some_iff.mp found
  exact h f (List.mem_of_find?_eq_some hf)

/-- What is found is what is live. -/
theorem Lasting.find?_eq (h : es.Lasting) (now : Int) (key : String) :
    es.find? key = (es.live? now key).map fun value => { value } := by
  cases found : es.find? key with
  | none => simp [Entries.live?, found]
  | some e =>
    have lasts := h.find? found
    have same : e = { value := e.value } := by rw [← lasts]
    simp [Entries.live?, found, Entry.isExpired, lasts, Option.filter, ← same]

theorem find?_of_mem (ascending : es.Ascending) {e : String × Entry} (he : e ∈ es) :
    es.find? e.1 = some e.2 := by
  induction es with
  | nil => cases he
  | cons f es ih =>
    obtain ⟨above, sorted⟩ := List.pairwise_cons.mp ascending
    rw [find?_cons]
    rcases List.mem_cons.mp he with rfl | later
    · exact if_pos rfl
    · have : f.1 ≠ e.1 := String.ne_of_lt (above e.1 (List.mem_map_of_mem later))
      rw [if_neg this, ih sorted later]

theorem mem_of_find? {key : String} {e : Entry} (h : es.find? key = some e) : (key, e) ∈ es := by
  obtain ⟨f, hf, rfl⟩ := Option.map_eq_some_iff.mp h
  have same : f.1 = key := by simpa using List.find?_some hf
  exact same ▸ List.mem_of_find?_eq_some hf

/-- Entries are determined by what is found in them. -/
theorem Ascending.ext (h : es.Ascending) (h' : fs.Ascending)
    (same : ∀ key, es.find? key = fs.find? key) : es = fs := by
  have sorted {gs : Entries} (h : gs.Ascending) : gs.Pairwise fun e f => e.1 < f.1 :=
    List.pairwise_map.mp h
  have nodup {gs : Entries} (h : gs.Ascending) : gs.Nodup :=
    (sorted h).imp fun {e f} (lt : e.1 < f.1) (same : e = f) => String.lt_irrefl _ (same ▸ lt)
  have perm : es.Perm fs := (List.perm_ext_iff_of_nodup (nodup h) (nodup h')).mpr fun e =>
    ⟨fun he => mem_of_find? ((same e.1).symm.trans (find?_of_mem h he)),
      fun he => mem_of_find? ((same e.1).trans (find?_of_mem h' he))⟩
  exact perm.eq_of_pairwise (fun _ _ _ _ lt gt => absurd gt (String.lt_asymm lt)) (sorted h) (sorted h')

end Entries

/-! ### The file -/

namespace FileStore

variable {es fs : Entries}

/-- What is written is read. -/
theorem ofBytes_toBytes (ascending : es.Ascending) (fits : es.Fits) :
    ofBytes (some (toBytes es)) = .ok es := by
  have read : Json.decodeBytes Entries.decode (toBytes es) = .ok es :=
    (Json.decodeBytes_pretty Entries.decode (Nat.le_trans es.nesting_toJson (by decide))).mpr
      (Entries.decode_reread ascending fits _)
  have filled : toBytes es ≠ [] := by
    intro empty
    have written : Utf8.decodePieces (toBytes es) = Json.indented 0 es.toJson :=
      Utf8.decodePieces_encodeChars _
    rw [empty, Utf8.decodePieces] at written
    have filled := Json.Reader.indented_length_pos 0 es.toJson
    rw [← written] at filled
    exact Nat.lt_irrefl 0 filled
  obtain ⟨b, bytes, h⟩ := List.exists_cons_of_ne_nil filled
  rw [h] at read
  rw [h, ofBytes, read]
  · rfl
  · exact fun empty => by cases empty

/-- A key whose live value differs is announced. -/
theorem mem_differences {now : Int} {key : String}
    (differs : es.live? now key ≠ fs.live? now key) :
    ⟨key, fs.live? now key⟩ ∈ differences now es fs := by
  have listed : key ∈ (es ++ fs.filter fun e => (es.find? e.1).isNone).map (·.1) := by
    cases found : es.find? key with
    | some e =>
      have he := Entries.mem_of_find? found
      exact List.mem_map.mpr ⟨_, List.mem_append_left _ he, rfl⟩
    | none =>
      cases found' : fs.find? key with
      | some f =>
        have hf := Entries.mem_of_find? found'
        exact List.mem_map.mpr
          ⟨_, List.mem_append_right _ (List.mem_filter.mpr ⟨hf, by simp [found]⟩), rfl⟩
      | none => exact absurd (by simp [Entries.live?, found, found']) differs
  exact List.mem_filterMap.mpr ⟨key, List.mem_mergeSort.mpr listed, if_neg (by simpa using differs)⟩

/-- Nothing is announced exactly between equal entries. -/
theorem differences_eq_nil_iff (now : Int) (h : es.Ascending) (h' : fs.Ascending) (lasts : es.Lasting)
    (lasts' : fs.Lasting) : differences now es fs = [] ↔ es = fs := by
  constructor
  · intro silent
    have same (key : String) : es.live? now key = fs.live? now key := by
      by_contra differs
      have told := mem_differences differs
      rw [silent] at told
      cases told
    refine h.ext h' fun key => ?_
    rw [lasts.find?_eq now key, lasts'.find?_eq now key, same key]
  · rintro rfl
    exact List.filterMap_eq_nil_iff.mpr fun key _ => by simp

end FileStore

end ScreenFlow
