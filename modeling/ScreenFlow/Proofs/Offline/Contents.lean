import Mathlib.Data.List.Forall2
import ScreenFlow.Offline.Queue
import ScreenFlow.Proofs.Json.Decoding
import ScreenFlow.Proofs.Offline.Stages
import ScreenFlow.Proofs.Screen.Parts

/-!
# What the queue contains

The text of a queue is read as the events that were written, in the order of their stamps. An event
keeps its identity and its stamp; only its values may come back changed, or make the whole queue
unreadable.

* `OfflineEvent.decode_reread`: what an event is read back as;
* `ofText_toText_iff`: what the text of a queue is read as;
* `Filed`: events of different ids, in the order of their stamps;
* `Filed.append`, `Filed.remaining`: a queue with a new event at its end, and what a pass leaves of one;
* `Descends`: what becomes of an accepted event in the queue.
-/

/-! ## The stored form -/

namespace ScreenFlow

theorem EventKind.decode_name (k : EventKind) : decode (.str k.name) = some k := by
  cases k <;> rfl

namespace OfflineEvent

open RecordReader (present)

/-- The fields of an event as they are read, where so many brackets may still open. -/
def sourceFields (e : OfflineEvent) (depth : Nat) : List (String × Option Source) :=
  [("id", some (.str e.id)), ("kind", some (.str e.kind.name)), ("dsId", some (.str e.dsId)),
    ("operation", e.operation.map .str), ("query", e.query.map .str),
    ("method", e.method.map fun m => .str m.name), ("url", e.url.map .str),
    ("variables", e.vars.map (·.reread depth)), ("body", e.body.map (·.reread depth)),
    ("encoding", e.encoding.map fun b => .str b.name),
    ("queryParams", e.queryParams.map fun ps => (Json.obj ps).reread depth),
    ("headers", e.headers.map fun hs => (Json.obj (hs.map fun h => (h.1, .str h.2))).reread depth),
    ("credentials", e.credentials.map fun c => .str c.name),
    ("sessionAuth", if e.sessionAuth then some (.bool true) else none),
    ("statePath", e.statePath.map .str), ("responseType", e.responseType.map fun t => .str t.name),
    ("createdAt", some (Number.int e.createdAt).reread)]

theorem toJson_reread (e : OfflineEvent) (depth : Nat) :
    e.toJson.reread (depth + 1) = .obj .json (present (e.sourceFields depth)) := by
  have part {α : Type} (name : String) (f : α → Json) (a : Option α) :
      (field name f a).map (fun x => (x.1, x.2.reread depth)) =
        (a.map fun x => (f x).reread depth).toList.map fun v => (name, v) := by
    cases a <;> rfl
  simp only [toJson, Json.reread_obj, List.map_append, part]
  cases h : e.sessionAuth <;> simp [h, present, sourceFields, EventKind.toJson, Json.int, Method.toJson,
    BodyEncoding.toJson, Cookies.toJson, ResponseType.toJson]

/-- An event is read back field by field. -/
theorem decode_reread (e : OfflineEvent) (depth : Nat) :
    OfflineEvent.decode (e.toJson.reread (depth + 1)) = (do
      let vars ← Decoder.value.field (e.vars.map (·.reread depth))
      let body ← Decoder.value.field (e.body.map (·.reread depth))
      let queryParams ← (Decoder.map .value).field
        (e.queryParams.map fun ps => (Json.obj ps).reread depth)
      let headers ← (Decoder.map .string).field
        (e.headers.map fun hs => (Json.obj (hs.map fun h => (h.1, .str h.2))).reread depth)
      let createdAt ← Decoder.int64 (Number.int e.createdAt).reread
      return { e with vars, body, queryParams, headers, createdAt }) := by
  have nodup : ((e.sourceFields depth).map (·.1)).Nodup := by
    simp [sourceFields]
  rw [toJson_reread]
  simp only [decode, Decoder.record, RecordReader.bind_required nodup,
    RecordReader.bind_optional nodup, RecordReader.bind_withDefault nodup]
  have sessionAuth : ((if e.sessionAuth then some (Source.bool true) else none).elim (some false)
      Decoder.bool) = some e.sessionAuth := by cases e.sessionAuth <;> rfl
  simp only [sourceFields, List.lookup_cons, String.reduceBEq, BEq.rfl, Option.join_some,
    Option.bind_eq_bind, Option.bind_some, Decoder.string, EventKind.decode_name, sessionAuth,
    Decoder.field_string, Decoder.field_map Method.decode_name,
    Decoder.field_map BodyEncoding.decode_name, Decoder.field_map Cookies.decode_name,
    Decoder.field_map ResponseType.decode_name, Option.elim_some, StateT.run_pure, Option.pure_def,
    Option.map_bind, Function.comp_def, Option.map_some]

/-- How many brackets may still open inside a queued event. -/
def maxNesting : Nat := Json.Reader.maxDepth - 2

/-- What an event is read back as from the text of a queue, if it can be read. -/
def reread? (e : OfflineEvent) : Option OfflineEvent :=
  decode (e.toJson.reread (maxNesting + 1))

/-- What is read back is the same event, but for the values in it. -/
theorem reread?_same {e e' : OfflineEvent} (h : e.reread? = some e') :
    e' = { e with vars := e'.vars, body := e'.body, queryParams := e'.queryParams,
                  headers := e'.headers } := by
  rw [reread?, decode_reread] at h
  simp only [Option.bind_eq_bind, Option.bind_eq_some_iff] at h
  obtain ⟨vars, -, body, -, queryParams, -, headers, -, createdAt, hstamp, h⟩ := h
  obtain rfl : createdAt = e.createdAt := by
    unfold Decoder.int64 at hstamp
    split at hstamp
    · rename_i n hn
      cases n with
      | int i =>
        rw [Number.toInt64?] at hstamp
        split at hstamp
        · rw [← Option.some.inj hstamp]
          exact Number.reread_int_inj hn
        · cases hstamp
      | double bits => cases hstamp
    · cases hstamp
  cases h
  rfl

end OfflineEvent

namespace OfflineQueue

/-- The text of a queue is read event by event. -/
theorem decodeText_toText_iff {es fs : List OfflineEvent} :
    Json.decodeText (Decoder.list OfflineEvent.decode) (toText es) = .ok fs ↔
      es.mapM OfflineEvent.reread? = some fs := by
  have each : (fun e : OfflineEvent => OfflineEvent.decode (e.toJson.reread 126)) =
      OfflineEvent.reread? := rfl
  rw [toText, Json.decodeText_render, Json.Reader.maxDepth, Json.reread_arr, List.map_map,
    Decoder.list, List.mapM_map, ← each]
  simp only [Function.comp_def]

/-- What is read of the text of a queue is sorted by stamp. -/
theorem ofText_toText_iff {es es' : List OfflineEvent} :
    ofText (toText es) = .ok es' ↔
      ∃ fs, es.mapM OfflineEvent.reread? = some fs ∧ es' = sortByStamp fs := by
  rw [ofText]
  cases h : Json.decodeText (Decoder.list OfflineEvent.decode) (toText es) with
  | ok fs => simp [decodeText_toText_iff.mp h, eq_comm]
  | error e =>
    have unread (fs : List OfflineEvent) : es.mapM OfflineEvent.reread? ≠ some fs := fun hf => by
      simp [decodeText_toText_iff.mpr hf] at h
    simp [unread]

/-- What is read back of a queue are the events that were written, one for one. -/
theorem forall₂_of_mapM {es fs : List OfflineEvent} (h : es.mapM OfflineEvent.reread? = some fs) :
    List.Forall₂ (fun e e' => e.reread? = some e') es fs := by
  induction es generalizing fs with
  | nil => simp_all
  | cons e es ih =>
    simp only [List.mapM_cons, Option.bind_eq_bind, Option.bind_eq_some_iff, Option.pure_def,
      Option.some.injEq] at h
    obtain ⟨e', he, fs', hfs, rfl⟩ := h
    exact .cons he (ih hfs)

end OfflineQueue

end ScreenFlow

/-! ## The events -/

namespace ScreenFlow.OfflineQueue

variable {es fs seen failed queued : List OfflineEvent} {e f : OfflineEvent}

/-- What reading an event back never changes, and a queue is ordered by. -/
def key (e : OfflineEvent) : String × Int := (e.id, e.createdAt)

/-- No id comes twice, and stamps ascend. -/
structure Filed (es : List OfflineEvent) : Prop where
  ids : (es.map (·.id)).Nodup
  ascending : es.Pairwise (·.createdAt < ·.createdAt)

theorem Filed.iff_keys :
    Filed es ↔ ((es.map key).map (·.1)).Nodup ∧ (es.map key).Pairwise (·.2 < ·.2) := by
  rw [List.map_map, List.pairwise_map]
  exact ⟨fun h => ⟨h.ids, h.ascending⟩, fun h => ⟨h.1, h.2⟩⟩

theorem Filed.congr (h : Filed es) (same : fs.map key = es.map key) : Filed fs := by
  rw [iff_keys, same, ← iff_keys]
  exact h

theorem Filed.sublist (h : Filed es) (sub : fs.Sublist es) : Filed fs :=
  ⟨h.ids.sublist (sub.map _), h.ascending.sublist sub⟩

theorem map_id_of_keys (same : fs.map key = es.map key) : fs.map (·.id) = es.map (·.id) := by
  have h := congrArg (List.map (·.1)) same
  simpa [Function.comp_def, key] using h

theorem sortByStamp_of_ascending (h : es.Pairwise (·.createdAt ≤ ·.createdAt)) :
    sortByStamp es = es :=
  List.mergeSort_of_pairwise (h.imp decide_eq_true)

theorem sortByStamp_of_filed (h : Filed es) : sortByStamp es = es :=
  sortByStamp_of_ascending (h.ascending.imp Int.le_of_lt)

/-! ### Reading back -/

/-- An empty queue is not stored. -/
def textOf (es : List OfflineEvent) : Option String := if es.isEmpty then none else some (toText es)

theorem key_of_reread (h : e.reread? = some f) : key f = key e := by
  rw [OfflineEvent.reread?_same h]
  rfl

theorem keys_of_reread (h : es.mapM OfflineEvent.reread? = some fs) : fs.map key = es.map key := by
  have each := forall₂_of_mapM h
  clear h
  induction each with
  | nil => rfl
  | cons here _ ih => rw [List.map_cons, List.map_cons, key_of_reread here, ih]

theorem ascending_of_keys (same : fs.map key = es.map key)
    (h : es.Pairwise (·.createdAt ≤ ·.createdAt)) : fs.Pairwise (·.createdAt ≤ ·.createdAt) := by
  have stamps : (fs.map key).Pairwise (·.2 ≤ ·.2) := by
    rw [same, List.pairwise_map]
    exact h
  rw [List.pairwise_map] at stamps
  exact stamps

/-- Whoever reads a queue that is in the order of its stamps reads its events back in their order. -/
theorem queueOf_textOf_of_ascending (h : es.Pairwise (·.createdAt ≤ ·.createdAt)) :
    queueOf (.ok (textOf es)) = .ok fs ↔ es.mapM OfflineEvent.reread? = some fs := by
  cases es with
  | nil => simp [textOf, queueOf, eq_comm]
  | cons e es =>
    change ofText (toText (e :: es)) = .ok fs ↔ _
    have sorted {read : List OfflineEvent}
        (hread : (e :: es).mapM OfflineEvent.reread? = some read) : sortByStamp read = read :=
      sortByStamp_of_ascending (ascending_of_keys (keys_of_reread hread) h)
    rw [ofText_toText_iff]
    constructor
    · rintro ⟨read, hread, rfl⟩
      rwa [sorted hread]
    · intro hread
      exact ⟨fs, hread, (sorted hread).symm⟩

theorem queueOf_textOf (h : Filed es) :
    queueOf (.ok (textOf es)) = .ok fs ↔ es.mapM OfflineEvent.reread? = some fs :=
  queueOf_textOf_of_ascending (h.ascending.imp Int.le_of_lt)

/-! ### A new event -/

theorem le_newest (m : Int) :
    m ≤ es.foldl (fun m e => max m e.createdAt) m ∧
      ∀ e ∈ es, e.createdAt ≤ es.foldl (fun m e => max m e.createdAt) m := by
  induction es generalizing m with
  | nil => simp
  | cons e es ih =>
    obtain ⟨start, each⟩ := ih (max m e.createdAt)
    refine ⟨by rw [List.foldl_cons]; omega, fun f hf => ?_⟩
    rcases List.mem_cons.mp hf with rfl | hf
    · rw [List.foldl_cons]
      omega
    · exact each f hf

/-- A new stamp is later than every stamp in the queue. -/
theorem lt_nextStamp (now last : Int) (he : e ∈ es) : e.createdAt < nextStamp now last es := by
  have newest := (le_newest ((es.head?.map (·.createdAt)).getD 0)).2 e he
  simp only [nextStamp]
  omega

theorem Filed.append {stamp : Int} (h : Filed es) (fresh : e.id ∉ es.map (·.id))
    (later : ∀ f ∈ es, f.createdAt < stamp) : Filed (es ++ [{ e with createdAt := stamp }]) := by
  constructor
  · rw [List.map_append, List.nodup_append]
    refine ⟨h.ids, by simp, ?_⟩
    rintro id hid _ hnew rfl
    obtain rfl : id = e.id := List.mem_singleton.mp hnew
    exact fresh hid
  · rw [List.pairwise_append]
    refine ⟨h.ascending, by simp, fun f hf g hg => ?_⟩
    rw [List.mem_singleton.mp hg]
    exact later f hf

/-! ### What a pass leaves -/

/-- What was seen is gone but for the failures, and what came later stays. -/
theorem remaining_eq {old new : List OfflineEvent} (h : Filed (old ++ new))
    (same : old.map key = seen.map key) (sub : failed.Sublist seen) :
    remaining seen failed (old ++ new) = failed ++ new ∧ Filed (failed ++ new) := by
  have known (e : OfflineEvent) : seen.any (·.id == e.id) = true ↔ e.id ∈ old.map (·.id) := by
    rw [map_id_of_keys same]
    simp
  have apart := (List.nodup_append.mp (List.map_append ▸ h.ids)).2.2
  have gone : old.filter (fun e => !(seen.any (·.id == e.id))) = [] := by
    refine List.filter_eq_nil_iff.mpr fun e he => ?_
    simp [(known e).mpr (List.mem_map_of_mem he)]
  have kept : new.filter (fun e => !(seen.any (·.id == e.id))) = new := by
    refine List.filter_eq_self.mpr fun e he => ?_
    rw [Bool.not_eq_true', Bool.eq_false_iff, ne_eq, known]
    exact fun hmem => apart e.id hmem e.id (List.mem_map_of_mem he) rfl
  have seen_new : Filed (seen ++ new) := h.congr (by rw [List.map_append, List.map_append, same])
  have filed : Filed (failed ++ new) := seen_new.sublist (sub.append_right new)
  refine ⟨?_, filed⟩
  rw [remaining, List.filter_append, gone, kept, List.nil_append, sortByStamp_of_filed filed]

/-! ### What becomes of an event -/

/-- An accepted event gets a stamp, and is read back from time to time. -/
inductive Descends (e : OfflineEvent) : OfflineEvent → Prop
  | stamped (stamp : Int) : Descends e { e with createdAt := stamp }
  | reread {f g : OfflineEvent} (h : Descends e f) (read : f.reread? = some g) : Descends e g

theorem Descends.id_eq (h : Descends e f) : f.id = e.id := by
  induction h with
  | stamped => rfl
  | reread _ read ih => rw [OfflineEvent.reread?_same read, ← ih]

/-- Each of the events has become of an accepted one. -/
def Stems (accepted es : List OfflineEvent) : Prop := ∀ f ∈ es, ∃ e ∈ accepted, Descends e f

theorem Stems.mono {accepted accepted' : List OfflineEvent} (h : Stems accepted es)
    (more : accepted ⊆ accepted') (fewer : fs ⊆ es) : Stems accepted' fs := by
  intro f hf
  obtain ⟨e, he, descends⟩ := h f (fewer hf)
  exact ⟨e, more he, descends⟩

theorem Stems.reread {accepted : List OfflineEvent} (h : Stems accepted es)
    (read : es.mapM OfflineEvent.reread? = some fs) : Stems accepted fs := by
  have each := forall₂_of_mapM read
  clear read
  induction each with
  | nil => exact fun _ hf => absurd hf List.not_mem_nil
  | @cons e f es fs here _ ih =>
    intro g hg
    rcases List.mem_cons.mp hg with rfl | hg
    · obtain ⟨a, ha, descends⟩ := h e List.mem_cons_self
      exact ⟨a, ha, descends.reread here⟩
    · exact ih (h.mono (fun _ ha => ha) (List.subset_cons_self e es)) g hg

end ScreenFlow.OfflineQueue
