import ScreenFlow.Proofs.Screen.Parts
import ScreenFlow.Proofs.Screen.Places

/-!
# Screens survive encoding

What a handler or a screen is written as is read back as the same handler or screen. A handler is a
tree, and is read in as many steps as the document nests; that suffices, because the document of a
handler nests at least as deeply as the handler.

* `EventHandler.depth_le`: the steps suffice;
* `EventHandler.decode_toJson`, `Screen.decode_toJson`: read back, whichever way it is handed on;
* `EventHandler.yields_decode`, `Screen.yields_decode`: what is read can be read back;
* `screens_survive_encoding`: for all handlers and screens, and for what is read of any text.
-/

namespace ScreenFlow

open Dispatch (Branch)
open Json (Hands)

variable {g : Json → Source} {S : Source → Prop}

/-! ### How deep documents are -/

namespace Source

theorem depth_le_depthItems {vs : List Source} {v : Source} (mem : v ∈ vs) :
    v.depth ≤ depthItems vs := by
  induction vs with
  | nil => cases mem
  | cons w vs ih =>
    rw [depthItems]
    rcases List.mem_cons.mp mem with rfl | later
    · exact Nat.le_max_left _ _
    · exact Nat.le_trans (ih later) (Nat.le_max_right _ _)

theorem depth_le_depthFields {fs : List (String × Source)} {f : String × Source} (mem : f ∈ fs) :
    f.2.depth ≤ depthFields fs := by
  induction fs with
  | nil => cases mem
  | cons f' fs ih =>
    rw [depthFields]
    rcases List.mem_cons.mp mem with rfl | later
    · exact Nat.le_max_left _ _
    · exact Nat.le_trans (ih later) (Nat.le_max_right _ _)

end Source

theorem Json.Hands.depth_item (hg : Hands g) {items : List Json} {v : Json} (mem : v ∈ items) :
    (g v).depth < (g (.arr items)).depth := by
  rw [hg.arr, Source.depth]
  exact Nat.lt_succ_of_le (Source.depth_le_depthItems (List.mem_map_of_mem mem))

theorem Json.Hands.depth_field (hg : Hands g) {fields : List (String × Json)}
    (nodup : (fields.map (·.1)).Nodup) {key : String} {v : Json} (mem : (key, v) ∈ fields) :
    (g v).depth < (g (.obj fields)).depth := by
  obtain ⟨fs, same, perm⟩ := hg.obj nodup
  have there : (key, g v) ∈ fs :=
    perm.mem_iff.mpr (List.mem_map_of_mem (f := fun f => (f.1, g f.2)) mem)
  rw [same, Source.depth]
  exact Nat.lt_succ_of_le (Source.depth_le_depthFields there)

/-! ### Handlers -/

/-- What is declared about a main action is as it is kept. -/
structure ActionSpec.Settled (s : ActionSpec) : Prop where
  params : (Json.obj s.params).Settled
  successTransition : ∀ t ∈ s.successTransition, t.Settled
  errorTransition : ∀ t ∈ s.errorTransition, t.Settled
  response : ∀ r ∈ s.response, r.Settled
  optimistic : ∀ p ∈ s.optimistic, p.Settled

namespace EventHandler

/-- Every handler of the tree is as it is kept. -/
inductive Settled : EventHandler → Prop
  | tree {h : EventHandler} (own : h.spec.Settled)
    (subs : ∀ (b : Branch), ∀ sub ∈ b.of h, sub.Settled) : Settled h

theorem toJsonAll_eq (hs : List EventHandler) : toJsonAll hs = hs.map toJson := by
  induction hs with
  | nil => rfl
  | cons h hs ih => rw [toJsonAll, ih, List.map_cons]

/-- The handlers of a branch nest less deeply than the whole. -/
theorem depth_of_branch {limit : Nat} {h : EventHandler} (deep : h.depth ≤ limit + 1) {b : Branch}
    {sub : EventHandler} (mem : sub ∈ b.of h) : sub.depth ≤ limit := by
  obtain ⟨n, there⟩ := List.mem_iff_getElem?.mp mem
  exact Nat.not_lt.mp fun deeper =>
    Nat.not_lt.mpr deep (lt_depth_succ_iff.mpr ⟨b, n, sub, there, deeper⟩)

/-- The name of the field that holds a branch. -/
def branchName : Branch → String
  | .before => "before"
  | .success => "success"
  | .error => "error"
  | .finally_ => "finally"

/-- The fields that a handler is written as. -/
def writtenFields (h : EventHandler) : List (String × Json) :=
  [("action", h.spec.action.toJson), ("dataSourceId", .ofOption .str h.spec.dataSourceId),
    ("params", .obj h.spec.params), ("before", .arr (h.before.map toJson)),
    ("success", .arr (h.success.map toJson)), ("error", .arr (h.error.map toJson)),
    ("finally", .arr (h.finally_.map toJson)),
    ("successTransition", .ofOption Transition.toJson h.spec.successTransition),
    ("errorTransition", .ofOption Transition.toJson h.spec.errorTransition),
    ("response", .ofOption ResponseHandling.toJson h.spec.response),
    ("optimistic", .arr (h.spec.optimistic.map StatePatch.toJson)),
    ("successMessage", .ofOption .str h.spec.successMessage),
    ("errorMessage", .ofOption .str h.spec.errorMessage),
    ("isLogin", .bool h.spec.isLogin), ("isLogout", .bool h.spec.isLogout)]

theorem toJson_eq (h : EventHandler) : h.toJson = .obj h.writtenFields := by
  obtain ⟨own, before, success, error, finally_⟩ := h
  simp only [toJson, toJsonAll_eq]
  rfl

theorem nodup_writtenFields (h : EventHandler) : (h.writtenFields.map (·.1)).Nodup := by
  simp [writtenFields]

theorem branch_mem (h : EventHandler) (b : Branch) :
    (branchName b, Json.arr ((b.of h).map toJson)) ∈ h.writtenFields := by
  cases b <;> simp [branchName, Branch.of, writtenFields]

/-- The document of a handler nests at least as deeply as the handler. -/
theorem depth_le (hg : Hands g) (h : EventHandler) : h.depth ≤ (g h.toJson).depth := by
  refine Nat.not_lt.mp fun less => ?_
  have deeper : ∀ (limit : Nat) (h : EventHandler), limit < h.depth → limit < (g h.toJson).depth := by
    intro limit
    induction limit with
    | zero =>
      intro h _
      obtain ⟨fs, same, -⟩ := hg.obj h.nodup_writtenFields
      rw [toJson_eq, same, Source.depth]
      exact Nat.zero_lt_succ _
    | succ limit ih =>
      intro h deep
      obtain ⟨b, n, sub, there, deep⟩ := lt_depth_succ_iff.mp deep
      have item := hg.depth_item (List.mem_map_of_mem (f := toJson) (List.mem_of_getElem? there))
      have field := hg.depth_field h.nodup_writtenFields (h.branch_mem b)
      have := ih sub deep
      rw [toJson_eq h]
      omega
  exact Nat.lt_irrefl _ (deeper _ h less)

/-- A handler is read back in as many steps as it is deep. -/
theorem decodeWithin_toJson (hg : Hands g) {limit : Nat} {h : EventHandler} (settled : h.Settled)
    (deep : h.depth ≤ limit) : decodeWithin limit (g h.toJson) = some h := by
  induction limit generalizing h with
  | zero =>
    obtain ⟨own, before, success, error, finally_⟩ := h
    cases deep
  | succ limit ih =>
    obtain ⟨own, subs⟩ := settled
    have many (b : Branch) :
        (Decoder.list (decodeWithin limit)) (g (.arr ((b.of h).map toJson))) = some (b.of h) :=
      hg.list fun sub mem => ih (subs b sub mem) (depth_of_branch deep mem)
    have whole (fs : List (String × Source)) : RecordReader.Reads (pure (node h.spec
        (Branch.before.of h) (Branch.success.of h) (Branch.error.of h) (Branch.finally_.of h))) fs h := by
      cases h
      exact .pure _
    rw [toJson_eq]
    exact hg.record h.nodup_writtenFields fun fs w =>
      .bind (w.required (by simp [writtenFields]) (h.spec.action.decode_toJson hg)) <|
      .bind (w.withDefault (by simp [writtenFields]) (hg.optionString h.spec.dataSourceId)) <|
      .bind (w.withDefault (by simp [writtenFields]) (hg.object own.params)) <|
      .bind (w.withDefault (by simp [writtenFields, Branch.of]) (many .before)) <|
      .bind (w.withDefault (by simp [writtenFields, Branch.of]) (many .success)) <|
      .bind (w.withDefault (by simp [writtenFields, Branch.of]) (many .error)) <|
      .bind (w.withDefault (by simp [writtenFields, Branch.of]) (many .finally_)) <|
      .bind (w.withDefault (by simp [writtenFields])
        (hg.option (fun t ht => Transition.decode_toJson hg (own.successTransition t ht)) rfl)) <|
      .bind (w.withDefault (by simp [writtenFields])
        (hg.option (fun t ht => Transition.decode_toJson hg (own.errorTransition t ht)) rfl)) <|
      .bind (w.withDefault (by simp [writtenFields])
        (hg.option (fun r hr => ResponseHandling.decode_toJson hg (own.response r hr)) rfl)) <|
      .bind (w.withDefault (by simp [writtenFields]) (StatePatch.decode_many hg own.optimistic)) <|
      .bind (w.withDefault (by simp [writtenFields]) (hg.optionString h.spec.successMessage)) <|
      .bind (w.withDefault (by simp [writtenFields]) (hg.optionString h.spec.errorMessage)) <|
      .bind (w.withDefault (by simp [writtenFields]) (hg.truth h.spec.isLogin)) <|
      .bind (w.withDefault (by simp [writtenFields]) (hg.truth h.spec.isLogout)) <|
      whole fs

theorem decode_toJson (hg : Hands g) {h : EventHandler} (settled : h.Settled) :
    decode (g h.toJson) = some h :=
  decodeWithin_toJson hg settled (depth_le hg h)

theorem yields_decodeWithin (hS : Source.Hereditary S) (limit : Nat) :
    (decodeWithin limit).Yields S Settled := by
  induction limit with
  | zero => exact fun _ _ _ read => nomatch read
  | succ limit ih =>
    have many := ih.list hS
    have patches := (StatePatch.yields_decode hS).oneOrMany hS
    have transition := Transition.yields_decode hS
    refine Decoder.yields_record ?_ hS
    refine .bind (RecordReader.yields_required (Decoder.yields_true _) "action") fun _ _ => ?_
    refine .bind (RecordReader.yields_optional (Decoder.yields_true _) "dataSourceId") fun _ _ => ?_
    refine .bind (RecordReader.yields_withDefault Decoder.yields_object ["params"] rfl)
      fun _ params => ?_
    refine .bind (RecordReader.yields_withDefault many ["before"] (List.forall_mem_nil _))
      fun _ before => ?_
    refine .bind (RecordReader.yields_withDefault many ["success", "onSuccess"]
      (List.forall_mem_nil _)) fun _ success => ?_
    refine .bind (RecordReader.yields_withDefault many ["error", "onError"]
      (List.forall_mem_nil _)) fun _ error => ?_
    refine .bind (RecordReader.yields_withDefault many ["finally"] (List.forall_mem_nil _))
      fun _ finally_ => ?_
    refine .bind (RecordReader.yields_optional transition "successTransition")
      fun _ successTransition => ?_
    refine .bind (RecordReader.yields_optional transition "errorTransition")
      fun _ errorTransition => ?_
    refine .bind (RecordReader.yields_optional (ResponseHandling.yields_decode hS) "response")
      fun _ response => ?_
    refine .bind (RecordReader.yields_withDefault patches ["optimistic"] (List.forall_mem_nil _))
      fun _ optimistic => ?_
    refine .bind (RecordReader.yields_optional (Decoder.yields_true _) "successMessage")
      fun _ _ => ?_
    refine .bind (RecordReader.yields_optional (Decoder.yields_true _) "errorMessage") fun _ _ => ?_
    refine .bind (RecordReader.yields_withDefault (Decoder.yields_true _) ["isLogin"] trivial)
      fun _ _ => ?_
    refine .bind (RecordReader.yields_withDefault (Decoder.yields_true _) ["isLogout"] trivial)
      fun _ _ => RecordReader.yields_pure ?_
    refine .tree ⟨params, successTransition, errorTransition, response, optimistic⟩ fun b => ?_
    cases b with
    | before => exact before
    | success => exact success
    | error => exact error
    | finally_ => exact finally_

theorem yields_decode (hS : Source.Hereditary S) : decode.Yields S Settled :=
  fun v _ source read => yields_decodeWithin hS v.depth source read

end EventHandler

/-! ### Screens -/

namespace Screen

/-- What the screen declares is as it is kept. -/
structure Settled (s : Screen) : Prop where
  dataSources : ∀ d ∈ s.dataSources, d.Settled
  handlers : (s.handlers.map (·.1)).Pairwise (· < ·) ∧ ∀ h ∈ s.handlers, h.2.Settled
  initialState : s.initialState.Settled

/-- Some data source has a body or variables that are null. -/
def HoldsNull (s : Screen) : Prop := ∃ d ∈ s.dataSources, d.HoldsNull

theorem decode_toJson (hg : Hands g) {s : Screen} (h : s.Settled) (there : ¬ s.HoldsNull) :
    decode (g s.toJson) = some s := by
  have source (d : DataSource) (hd : d ∈ s.dataSources) : DataSource.decode (g d.toJson) = some d :=
    DataSource.decode_toJson hg (h.dataSources d hd) fun blank => there ⟨d, hd, blank⟩
  have handler (f : String × EventHandler) (hf : f ∈ s.handlers) :
      EventHandler.decode (g f.2.toJson) = some f.2 :=
    EventHandler.decode_toJson hg (h.handlers.2 f hf)
  exact hg.record (by simp) fun fs w =>
    .bind (w.withDefault (by simp) (hg.optionString s.id)) <|
    .bind (w.withDefault (by simp) (hg.list source)) <|
    .bind (w.withDefault (by simp) (hg.map h.handlers.1 handler)) <|
    .bind (w.withDefault (by simp) (hg.value h.initialState)) <|
    .bind (w.withDefault (by simp) (hg.truth s.requiresAuth)) <|
    .pure s

theorem yields_decode : decode.Yields Source.Finite fun s => s.Settled ∧ ¬ s.HoldsNull := by
  have hS := Source.hereditary_finite
  have sources := DataSource.yields_decode.list hS
  have handlers := (EventHandler.yields_decode hS).map hS
  refine Decoder.yields_record ?_ hS
  refine .bind (RecordReader.yields_optional (Decoder.yields_true _) "id") fun _ _ => ?_
  refine .bind (RecordReader.yields_withDefault sources ["dataSources"] (List.forall_mem_nil _))
    fun _ dataSources => ?_
  refine .bind (RecordReader.yields_withDefault handlers ["handlers"]
    ⟨.nil, List.forall_mem_nil _⟩) fun _ handlers => ?_
  refine .bind (RecordReader.yields_withDefault Decoder.yields_value ["initialState"] rfl)
    fun _ initialState => ?_
  refine .bind (RecordReader.yields_withDefault (Decoder.yields_true _) ["requiresAuth"] trivial)
    fun _ _ => RecordReader.yields_pure ⟨?_, ?_⟩
  · exact ⟨fun d hd => (dataSources d hd).1, handlers, initialState⟩
  · rintro ⟨d, hd, blank⟩
    exact (dataSources d hd).2 blank

end Screen

end ScreenFlow
