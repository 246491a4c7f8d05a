import ScreenFlow.Proofs.Offline.Alone
import ScreenFlow.Proofs.Offline.Contents

/-!
# One pass by itself

What a replay pass does while nothing else happens.

* `InOrder`: the same events by their stamps, those with one stamp as they stood;
* `course`: what is asked while events are replayed, one after the other;
* `comes_replay_iff`: a pass asks just this, and there is such a pass for all replies;
* `Undisturbed`: what can be seen of a pass, and what it leaves;
* `passes_undisturbed`: every pass that completes is undisturbed.
-/

namespace ScreenFlow.OfflineQueue

open Simulation (QueuePart)

variable {mayFail : Prop} {o : OfflineSettings} {s s' : State} {es fs : List OfflineEvent}

/-! ### The order of replay -/

/-- The same events in the order of their stamps. Those with one stamp stay as they stood. -/
structure InOrder (es sorted : List OfflineEvent) : Prop where
  perm : sorted.Perm es
  ascending : sorted.Pairwise (·.createdAt ≤ ·.createdAt)
  stable : ∀ stamp, sorted.filter (·.createdAt = stamp) = es.filter (·.createdAt = stamp)

theorem sortByStamp_perm (es : List OfflineEvent) : (sortByStamp es).Perm es :=
  List.mergeSort_perm es _

theorem sortByStamp_ascending (es : List OfflineEvent) :
    (sortByStamp es).Pairwise (·.createdAt ≤ ·.createdAt) := by
  have sorted : (sortByStamp es).Pairwise fun a b => decide (a.createdAt ≤ b.createdAt) = true :=
    List.pairwise_mergeSort (fun a b c => by simpa using Int.le_trans)
      (fun a b => by simpa using Int.le_total a.createdAt b.createdAt) es
  exact sorted.imp of_decide_eq_true

theorem inOrder_sortByStamp (es : List OfflineEvent) : InOrder es (sortByStamp es) := by
  refine ⟨sortByStamp_perm es, sortByStamp_ascending es, fun stamp => ?_⟩
  have level : (es.filter (·.createdAt = stamp)).Pairwise
      fun a b => decide (a.createdAt ≤ b.createdAt) = true := by
    refine List.pairwise_of_forall_mem_list fun a ha b hb => ?_
    have ha := of_decide_eq_true (List.mem_filter.mp ha).2
    have hb := of_decide_eq_true (List.mem_filter.mp hb).2
    exact decide_eq_true (Int.le_of_eq (ha.trans hb.symm))
  -- Events with one stamp are a sorted part already, and a merge keeps those as they are.
  have kept : (es.filter (·.createdAt = stamp)).Sublist (sortByStamp es) :=
    List.sublist_mergeSort (fun a b c => by simpa using Int.le_trans)
      (fun a b => by simpa using Int.le_total a.createdAt b.createdAt) level List.filter_sublist
  have inside := kept.filter (·.createdAt = stamp)
  simp only [List.filter_filter, Bool.and_self] at inside
  exact (inside.eq_of_length ((sortByStamp_perm es).filter _).length_eq.symm).symm

/-! ### What is stored -/

/-- The stored text lists these events, or there are none and nothing is stored. -/
def State.Holds (o : OfflineSettings) (s : State) (es : List OfflineEvent) : Prop :=
  match s.stored o.queueKey with
  | none => es = []
  | some text => Json.decodeText (Decoder.list OfflineEvent.decode) text = .ok es

theorem State.Holds.reads (h : s.Holds o es) :
    queueOf (.ok (s.stored o.queueKey)) = .ok (sortByStamp es) := by
  unfold Holds at h
  cases stored : s.stored o.queueKey with
  | none =>
    rw [stored] at h
    simp [queueOf, sortByStamp, show es = [] from h]
  | some text =>
    rw [stored] at h
    simp only [queueOf, ofText, show Json.decodeText _ text = .ok es from h]

theorem stored_saved (s : State) (es : List OfflineEvent) :
    (s.saved o es).stored o.queueKey = textOf es := by
  simp [State.saved, State.put, textOf]

theorem holds_saved_nil (s : State) : (s.saved o []).Holds o [] := by
  simp [State.Holds, State.saved, State.put]

/-! ### The course of a pass -/

/-- An event that was replayed, and what came of it. -/
abbrev Replied := OfflineEvent × Except Fault Unit

def failures (replied : List Replied) : List OfflineEvent :=
  (replied.filter (!·.2.isOk)).map (·.1)

def Pass.afterAll (p : Pass) (replied : List Replied) : Pass :=
  replied.foldl (fun p x => p.after x.2 x.1) p

/-- A pause between two events. -/
def gap (o : OfflineSettings) (more : Bool) : List (Happening interface) :=
  if more && o.throttle != 0 then [⟨.pause o.throttle, ()⟩] else []

/-- What is asked, and what is answered, while so many of `total` events are through already. -/
def course (o : OfflineSettings) (total : Nat) : Nat → List Replied → List (Happening interface)
  | _, [] => []
  | through, (e, r) :: replied =>
    ⟨.replay e, r⟩ :: ⟨.progress ⟨through + 1, total⟩, ()⟩ ::
      (gap o (!replied.isEmpty) ++ course o total (through + 1) replied)

/-- The progress of so many more events is told. -/
def State.counted (s : State) (total through : Nat) : Nat → State
  | 0 => s
  | n + 1 => (s.tell ⟨through + 1, total⟩).counted total (through + 1) n

theorem replayAll_cons {total through : Nat} {e : OfflineEvent} {p : Pass} :
    replayAll o total through (e :: es) p =
      .ask (.replay e) fun r => .ask (.progress ⟨through + 1, total⟩) fun _ =>
        if !es.isEmpty && o.throttle != 0 then
          .ask (.pause o.throttle) fun _ => replayAll o total (through + 1) es (p.after r e)
        else replayAll o total (through + 1) es (p.after r e) := by
  simp only [replayAll, Process.bind_def, ask, Process.call, Process.ask_bind, Process.done_bind]
  congr 1
  funext r
  congr 1
  funext _
  split <;> cases r <;> rfl

theorem forced_asked {α : Type} {q : Ask} {a : Answer q} {t : State} {next : Answer q → Operation α}
    {p : Operation α} {history : List (Happening interface)}
    (only : ∀ b s₁, Answers False s q b s₁ ↔ b = a ∧ s₁ = t)
    (rest : (surroundings False).Forced t (next a) history s' p) :
    (surroundings False).Forced s (.ask q next) (⟨q, a⟩ :: history) s' p :=
  .asked only rest

/-- What follows the replay of an event. -/
theorem forced_next {total through : Nat} {more : Bool} {next : Operation Pass} :
    (surroundings False).Forced s
      (.ask (.progress ⟨through + 1, total⟩) fun _ =>
        if more && o.throttle != 0 then .ask (.pause o.throttle) fun _ => next else next)
      (⟨.progress ⟨through + 1, total⟩, ()⟩ :: gap o more) (s.tell ⟨through + 1, total⟩) next := by
  refine forced_asked (t := s.tell ⟨through + 1, total⟩) (by simp [Answers]) ?_
  unfold gap
  split
  · exact forced_asked (by simp [Answers]) (.here _ _)
  · exact .here _ _

theorem comes_replayAll_iff {total through : Nat} {p p' : Pass}
    {history : List (Happening interface)} :
    (surroundings False).Comes (replayAll o total through es p) s history p' s' ↔
      ∃ replied : List Replied, replied.map (·.1) = es ∧ history = course o total through replied ∧
        p' = p.afterAll replied ∧ s' = s.counted total through replied.length := by
  induction es generalizing s through p history with
  | nil =>
    simp only [replayAll, Process.pure_def, Surroundings.comes_done_iff, List.map_eq_nil_iff,
      exists_eq_left]
    rfl
  | cons e es ih =>
    rw [replayAll_cons, Surroundings.comes_ask_iff]
    simp only [forced_next.comes_iff, ih]
    constructor
    · rintro ⟨r, _, _, rfl, rfl, _, rfl, replied, rfl, rfl, rfl, rfl⟩
      refine ⟨(e, r) :: replied, rfl, ?_, rfl, rfl⟩
      simp [course]
    · rintro ⟨replied, same, rfl, rfl, rfl⟩
      obtain ⟨⟨e', r⟩, replied, rfl, rfl, rfl⟩ := List.map_eq_cons_iff.mp same
      refine ⟨r, s, _, rfl, rfl, _, ?_, replied, rfl, rfl, rfl, rfl⟩
      simp

/-! ### A whole pass -/

/-- What is asked up to the first event, or until it is known that there is none. -/
def opening (o : OfflineSettings) (s : State) (total : Nat) : List (Happening interface) :=
  [⟨.startPass, some s.queue.passes⟩, ⟨.hasReplayer, true⟩, ⟨.takeTicket, s.queue.lock.next⟩,
    ⟨.turn s.queue.lock.next, ()⟩, ⟨.store (.get o.queueKey), .ok (s.stored o.queueKey)⟩,
    ⟨.handBack s.queue.lock.next, ()⟩, ⟨.progress ⟨0, total⟩, ()⟩]

/-- What is asked after the last event. -/
def closing (o : OfflineSettings) (s : State) (failed : List OfflineEvent) :
    List (Happening interface) :=
  [⟨.takeTicket, s.queue.lock.next⟩, ⟨.turn s.queue.lock.next, ()⟩,
    ⟨.store (.get o.queueKey), .ok (s.stored o.queueKey)⟩,
    if failed.isEmpty then ⟨.store (.delete o.queueKey), .ok (s.stored o.queueKey).isSome⟩
    else ⟨.store (.set o.queueKey (toText failed) none), .ok ()⟩,
    ⟨.handBack s.queue.lock.next, ()⟩]

namespace State

@[simp] theorem startPass_hasReplayer (s : State) :
    s.startPass.queue.hasReplayer = s.queue.hasReplayer := by
  simp only [startPass, QueuePart.startPass]
  split <;> rfl

def opened (s : State) (total : Nat) : State :=
  (s.startPass.take.handBack s.queue.lock.next).tell ⟨0, total⟩

def closed (o : OfflineSettings) (s : State) (failed : List OfflineEvent) : State :=
  (s.take.saved o failed).handBack s.queue.lock.next

/-- The state when all events of a pass are through. -/
def through (s : State) (total : Nat) : State := (s.opened total).counted total 0 total

/-- The state after a pass with these replies. -/
def passed (o : OfflineSettings) (s : State) (replied : List Replied) : State :=
  (if replied.isEmpty then s.opened 0
    else (s.through replied.length).closed o (failures replied)).endPass s.queue.passes

end State

/-- All that a pass with these replies asks, and is answered. -/
def passHistory (o : OfflineSettings) (s : State) (replied : List Replied) :
    List (Happening interface) :=
  opening o s replied.length ++
    ((if replied.isEmpty then []
      else course o replied.length 0 replied ++
        closing o (s.through replied.length) (failures replied)) ++
      [⟨.endPass s.queue.passes, ()⟩])

theorem forced_opening (free : s.Free) (idle : s.queue.running = none)
    (there : s.queue.hasReplayer = true)
    (reads : queueOf (.ok (s.stored o.queueKey)) = .ok es) :
    (surroundings False).Forced s (perform o .replay) (opening o s es.length) (s.opened es.length)
      (if es.isEmpty then ending s.queue.passes (.ok {})
        else (replayAll o es.length 0 es {}).bind (merging o s.queue.passes es)) := by
  obtain ⟨number, started⟩ := State.startPass_of_free idle
  have turn : s.startPass.take.queue.lock.hasTurn s.queue.lock.next = true := by
    rw [started]
    exact hasTurn_of_free free
  rw [perform_replay]
  refine forced_asked (q := .startPass) (t := s.startPass) (by simp [Answers, number]) ?_
  refine forced_asked (q := .hasReplayer) (a := true) (t := s.startPass)
    (by simp [Answers, there]) ?_
  refine forced_asked (q := .takeTicket) (t := s.startPass.take) (by simp [Answers, started]) ?_
  refine forced_asked (q := .turn _) (t := s.startPass.take) (by simp [Answers, turn]) ?_
  refine forced_asked (q := .store (.get _)) (t := s.startPass.take)
    (by simp [Answers, StoreAnswers, started, State.take, and_comm]) ?_
  simp only [reads]
  refine forced_asked (q := .handBack _) (t := s.startPass.take.handBack s.queue.lock.next)
    (by simp [Answers]) ?_
  refine forced_asked (q := .progress _) (t := s.opened es.length)
    (by simp [Answers, State.opened]) ?_
  exact .here _ _

/-- What was seen and has not failed is gone, if nothing has come meanwhile. -/
theorem remaining_of_same {seen failed : List OfflineEvent} (sub : failed.Sublist seen)
    (ascending : seen.Pairwise (·.createdAt ≤ ·.createdAt)) :
    remaining seen failed seen = failed := by
  have gone : seen.filter (fun e => !(seen.any (·.id == e.id))) = [] :=
    List.filter_eq_nil_iff.mpr fun e he => by simpa using ⟨e, he, rfl⟩
  rw [remaining, gone, List.append_nil, sortByStamp_of_ascending (ascending.sublist sub)]

theorem forced_merging {n : Nat} {seen : List OfflineEvent} {p : Pass} (free : s.Free)
    (reads : queueOf (.ok (s.stored o.queueKey)) = .ok seen) (sub : p.failed.Sublist seen)
    (ascending : seen.Pairwise (·.createdAt ≤ ·.createdAt)) :
    (surroundings False).Forced s (merging o n seen p) (closing o s p.failed) (s.closed o p.failed)
      (ending n (.ok p.report)) := by
  refine forced_asked (q := .takeTicket) (t := s.take) (by simp [Answers]) ?_
  refine forced_asked (q := .turn _) (t := s.take) (by simp [Answers, hasTurn_of_free free]) ?_
  refine forced_asked (q := .store (.get _)) (t := s.take)
    (by simp [Answers, StoreAnswers, State.take, and_comm]) ?_
  simp only [reads, Section.write]
  rw [remaining_of_same sub ascending, save]
  cases empty : p.failed.isEmpty with
  | true =>
    refine forced_asked (q := .store (.delete _)) (t := s.take.saved o p.failed)
      (by simp [Answers, StoreAnswers, State.saved, State.take, empty]) ?_
    exact forced_asked (q := .handBack _) (by simp [Answers, State.closed]) (.here _ _)
  | false =>
    refine forced_asked (q := .store (.set _ _ _)) (t := s.take.saved o p.failed)
      (by simp [Answers, StoreAnswers, State.saved, empty]) ?_
    exact forced_asked (q := .handBack _) (by simp [Answers, State.closed]) (.here _ _)

theorem comes_ending_iff {n : Nat} {r : Except OfflineError ReplayReport} {outcome : Outcome}
    {history : List (Happening interface)} :
    (surroundings False).Comes (ending n r) s history outcome s' ↔
      history = [⟨.endPass n, ()⟩] ∧ outcome = .replayed (r.map some) ∧ s' = s.endPass n := by
  have ends : (surroundings False).Forced s (ending n r) [⟨.endPass n, ()⟩] (s.endPass n)
      (.done (.replayed (r.map some))) :=
    forced_asked (by simp [Answers]) (.here _ _)
  rw [ends.comes_iff]
  simp only [Surroundings.comes_done_iff]
  constructor
  · rintro ⟨_, rfl, rfl, same⟩
    exact ⟨rfl, same⟩
  · rintro ⟨rfl, same⟩
    exact ⟨[], rfl, rfl, same⟩

namespace State

@[simp] theorem counted_stored (s : State) (total through n : Nat) :
    (s.counted total through n).stored = s.stored := by
  induction n generalizing s through with
  | zero => rfl
  | succ n ih => exact ih _ _

@[simp] theorem counted_lock (s : State) (total through n : Nat) :
    (s.counted total through n).queue.lock = s.queue.lock := by
  induction n generalizing s through with
  | zero => rfl
  | succ n ih => exact ih _ _

@[simp] theorem counted_running (s : State) (total through n : Nat) :
    (s.counted total through n).queue.running = s.queue.running := by
  induction n generalizing s through with
  | zero => rfl
  | succ n ih => exact ih _ _

@[simp] theorem counted_hasReplayer (s : State) (total through n : Nat) :
    (s.counted total through n).queue.hasReplayer = s.queue.hasReplayer := by
  induction n generalizing s through with
  | zero => rfl
  | succ n ih => exact ih _ _

/-- Everything that a pass needs to begin and to end undisturbed. -/
structure Idle (s : State) : Prop where
  free : s.Free
  idle : s.queue.running = none
  there : s.queue.hasReplayer = true

end State

theorem Pass.afterAll_eq (p : Pass) (replied : List Replied) :
    p.afterAll replied = ⟨p.failed ++ failures replied,
      ⟨p.report.succeeded + replied.countP (·.2.isOk),
        p.report.failed + (failures replied).length⟩⟩ := by
  induction replied generalizing p with
  | nil => simp [afterAll, failures]
  | cons x replied ih =>
    obtain ⟨e, r⟩ := x
    rw [afterAll, List.foldl_cons, ← afterAll, ih]
    cases r with
    | ok => simp [after, succeed, failures, Except.isOk, Except.toBool]; omega
    | error => simp [after, fail, failures, Except.isOk, Except.toBool]; omega

theorem Pass.afterAll_of_empty (replied : List Replied) :
    ({} : Pass).afterAll replied =
      ⟨failures replied, ⟨replied.countP (·.2.isOk), (failures replied).length⟩⟩ := by
  simpa using afterAll_eq {} replied

theorem failures_sublist (replied : List Replied) : (failures replied).Sublist (replied.map (·.1)) :=
  List.filter_sublist.map _

theorem State.opened_free (free : s.Free) (idle : s.queue.running = none) (n : Nat) :
    (s.opened n).Free := by
  have waiting := handBack_of_free free
  rw [State.Free, State.opened, (State.startPass_of_free idle).2]
  exact waiting

@[simp] theorem State.opened_stored (s : State) (n : Nat) : (s.opened n).stored = s.stored := rfl

/-- What is left to do when the queue has been read: the events, and writing back what is left. -/
theorem comes_events_iff {n : Nat} (free : s.Free)
    (reads : queueOf (.ok (s.stored o.queueKey)) = .ok es)
    (ascending : es.Pairwise (·.createdAt ≤ ·.createdAt)) {outcome : Outcome}
    {history : List (Happening interface)} :
    (surroundings False).Comes ((replayAll o es.length 0 es {}).bind (merging o n es)) s history
        outcome s' ↔
      ∃ replied : List Replied, replied.map (·.1) = es ∧
        history = course o es.length 0 replied ++
          (closing o (s.counted es.length 0 es.length) (failures replied) ++ [⟨.endPass n, ()⟩]) ∧
        outcome = .replayed
          (.ok (some ⟨replied.countP (·.2.isOk), (failures replied).length⟩)) ∧
        s' = ((s.counted es.length 0 es.length).closed o (failures replied)).endPass n := by
  have length {replied : List Replied} (same : replied.map (·.1) = es) :
      replied.length = es.length := by rw [← same, List.length_map]
  have merges {replied : List Replied} (same : replied.map (·.1) = es) :=
    forced_merging (o := o) (n := n) (s := s.counted es.length 0 es.length)
      (p := ⟨failures replied, ⟨replied.countP (·.2.isOk), (failures replied).length⟩⟩)
      (by rwa [State.Free, State.counted_lock]) (by rwa [State.counted_stored])
      (same ▸ failures_sublist replied) ascending
  rw [Surroundings.comes_bind_iff]
  constructor
  · rintro ⟨first, p, s₁, last, rfl, looped, merged⟩
    obtain ⟨replied, same, rfl, rfl, rfl⟩ := comes_replayAll_iff.mp looped
    rw [Pass.afterAll_of_empty, length same, (merges same).comes_iff] at merged
    obtain ⟨_, rfl, ends⟩ := merged
    obtain ⟨rfl, rfl, rfl⟩ := comes_ending_iff.mp ends
    exact ⟨replied, same, rfl, rfl, rfl⟩
  · rintro ⟨replied, same, rfl, rfl, rfl⟩
    refine ⟨_, _, _, _, rfl, comes_replayAll_iff.mpr ⟨replied, same, rfl, rfl, rfl⟩, ?_⟩
    rw [Pass.afterAll_of_empty, length same, (merges same).comes_iff]
    exact ⟨_, rfl, comes_ending_iff.mpr ⟨rfl, rfl, rfl⟩⟩

/-- While nothing else happens, a pass asks its events one by one, and every reply is possible. -/
theorem comes_perform_replay_iff (ready : s.Idle)
    (reads : queueOf (.ok (s.stored o.queueKey)) = .ok es)
    (ascending : es.Pairwise (·.createdAt ≤ ·.createdAt)) {outcome : Outcome}
    {history : List (Happening interface)} :
    (surroundings False).Comes (perform o .replay) s history outcome s' ↔
      ∃ replied : List Replied, replied.map (·.1) = es ∧ history = passHistory o s replied ∧
        outcome = .replayed
          (.ok (some ⟨replied.countP (·.2.isOk), (failures replied).length⟩)) ∧
        s' = s.passed o replied := by
  rw [(forced_opening ready.free ready.idle ready.there reads).comes_iff]
  cases es with
  | nil =>
    simp only [List.isEmpty_nil, ↓reduceIte, comes_ending_iff, List.map_eq_nil_iff, exists_eq_left]
    constructor
    · rintro ⟨_, rfl, rfl, rfl, rfl⟩
      exact ⟨rfl, rfl, rfl⟩
    · rintro ⟨rfl, rfl, rfl⟩
      exact ⟨_, rfl, rfl, rfl, rfl⟩
  | cons e es =>
    have filled {replied : List Replied} (same : replied.map (·.1) = e :: es) :
        replied.isEmpty = false ∧ replied.length = (e :: es).length := by
      rw [← same, List.length_map, ← List.isEmpty_map (f := (·.1)), same]
      exact ⟨rfl, rfl⟩
    simp only [List.isEmpty_cons, Bool.false_eq_true, ↓reduceIte]
    simp only [comes_events_iff (State.opened_free ready.free ready.idle _) reads ascending]
    constructor
    · rintro ⟨_, rfl, replied, same, rfl, rfl, rfl⟩
      refine ⟨replied, same, ?_, rfl, ?_⟩
      · simp [passHistory, State.through, filled same]
      · simp [State.passed, State.through, filled same]
    · rintro ⟨replied, same, rfl, rfl, rfl⟩
      refine ⟨_, ?_, replied, same, rfl, rfl, ?_⟩
      · simp [passHistory, State.through, filled same]
      · simp [State.passed, State.through, filled same]

/-! ### A store that refuses -/

/-- The store has not done what it was asked for. -/
def isRefusal (h : Happening interface) : Bool :=
  match h.question, h.answer with
  | .store (.get _), .error _ | .store (.set _ _ _), .error _ | .store (.delete _), .error _ => true
  | _, _ => false

/-- If the store refuses anything, the operation fails. -/
def Minds {α : Type} (p : Operation (Except OfflineError α)) : Prop :=
  ∀ history a, p.Ends history (.ok a) → ∀ h ∈ history, isRefusal h = false

/-- The store is not asked for anything that it might refuse. -/
def Unrefused {α : Type} (p : Operation α) : Prop := p.Asks fun q => ∀ a, isRefusal ⟨q, a⟩ = false

theorem Minds.done {α : Type} (r : Except OfflineError α) : Minds (.done r) := by
  intro history a ends
  rw [(Process.ends_done_iff.mp ends).1]
  simp

theorem Minds.bind {α β : Type} {p : Operation (Except OfflineError α)}
    {k : Except OfflineError α → Operation (Except OfflineError β)} (h : Minds p)
    (fails : ∀ f, k (.error f) = .done (.error f)) (hk : ∀ a, Minds (k (.ok a))) :
    Minds (p.bind k) := by
  intro history b ends
  obtain ⟨first, r, rest, rfl, begun, going⟩ := Process.ends_bind_iff.mp ends
  cases r with
  | error f =>
    rw [fails] at going
    cases (Process.ends_done_iff.mp going).2
  | ok a =>
    intro e he
    rcases List.mem_append.mp he with he | he
    · exact h first a begun e he
    · exact hk a rest b going e he

theorem Unrefused.bind {α β : Type} {p : Operation α} {k : α → Operation (Except OfflineError β)}
    (h : Unrefused p) (hk : ∀ a, Minds (k a)) : Minds (p.bind k) := by
  intro history b ends
  obtain ⟨first, a, rest, rfl, begun, going⟩ := Process.ends_bind_iff.mp ends
  intro e he
  rcases List.mem_append.mp he with he | he
  · exact h.of_ends begun e he e.answer
  · exact hk a rest b going e he

theorem minds_load (o : OfflineSettings) : Minds (load o) := by
  intro history es ends
  simp only [load, ask, Process.call, Process.bind_def, Process.ask_bind, Process.done_bind,
    Process.pure_def, Process.ends_ask_iff] at ends
  obtain ⟨got, rest, rfl, after⟩ := ends
  rcases got with f | _ | text
  · cases (Process.ends_done_iff.mp after).2
  · obtain ⟨rfl, -⟩ := Process.ends_done_iff.mp after
    simp [isRefusal]
  · obtain ⟨rfl, -⟩ := Process.ends_done_iff.mp after
    simp [isRefusal]

theorem minds_save (o : OfflineSettings) (es : List OfflineEvent) : Minds (save o es) := by
  intro history a ends
  unfold save at ends
  split at ends
  all_goals
    simp only [ask, Process.call, Process.bind_def, Process.ask_bind, Process.done_bind,
      Process.pure_def, Process.ends_ask_iff, Process.ends_done_iff] at ends
    obtain ⟨done, _, rfl, rfl, same⟩ := ends
    cases done with
    | error f => cases same
    | ok => simp [isRefusal]

theorem minds_exclusively {α : Type} {body : Operation (Except OfflineError α)} (h : Minds body) :
    Minds (exclusively body) := by
  intro history a ends
  simp only [exclusively, ask, Process.call, Process.bind_def, Process.ask_bind, Process.done_bind,
    Process.pure_def, Process.ends_ask_iff, Process.ends_bind_iff, Process.ends_done_iff] at ends
  obtain ⟨ticket, _, rfl, _, _, rfl, inside, r, _, rfl, ends, _, _, rfl, rfl, rfl⟩ := ends
  have quiet := h inside a ends
  simp only [List.mem_cons, List.mem_append, List.not_mem_nil, or_false]
  rintro e (rfl | rfl | he | rfl)
  · rfl
  · rfl
  · exact quiet e he
  · rfl

theorem unrefused_replayAll (total through : Nat) (p : Pass) :
    Unrefused (replayAll o total through es p) := by
  induction es generalizing through p with
  | nil => trivial
  | cons e es ih =>
    rw [replayAll_cons]
    refine ⟨fun _ => rfl, fun r => ⟨fun _ => rfl, fun _ => ?_⟩⟩
    split
    · exact ⟨fun _ => rfl, fun _ => ih _ _⟩
    · exact ih _ _

theorem minds_conclude (o : OfflineSettings) (seen : List OfflineEvent) (p : Pass) :
    Minds (conclude o seen p) :=
  minds_exclusively ((minds_load o).bind (fun _ => rfl) fun _ =>
    (minds_save o _).bind (fun _ => rfl) fun _ => .done _)

theorem minds_pass (o : OfflineSettings) : Minds (pass o) := by
  have asked : Unrefused (ask .hasReplayer) := ⟨fun _ => rfl, fun _ => trivial⟩
  refine asked.bind fun there => ?_
  cases there with
  | false => exact .done _
  | true =>
    refine (minds_exclusively (minds_load o)).bind (fun _ => rfl) fun seen => ?_
    have told : Unrefused (ask (.progress ⟨0, seen.length⟩)) := ⟨fun _ => rfl, fun _ => trivial⟩
    refine told.bind fun _ => ?_
    split
    · exact .done _
    · exact (unrefused_replayAll _ _ _).bind fun p => minds_conclude o seen p

theorem minds_replay (o : OfflineSettings) : Minds (replay o) := by
  have asked : Unrefused (ask .startPass) := ⟨fun _ => rfl, fun _ => trivial⟩
  refine asked.bind fun number => ?_
  cases number with
  | none => exact .done _
  | some n =>
    intro history report ends
    obtain ⟨first, r, rest, rfl, passed, going⟩ := Process.ends_bind_iff.mp ends
    simp only [ask, Process.call, Process.bind_def, Process.ask_bind, Process.done_bind,
      Process.pure_def, Process.ends_ask_iff, Process.ends_done_iff] at going
    obtain ⟨_, _, rfl, rfl, same⟩ := going
    cases r with
    | error f => cases same
    | ok report =>
      intro e he
      rcases List.mem_append.mp he with he | he
      · exact minds_pass o first report passed e he
      · obtain rfl := List.mem_singleton.mp he
        rfl

/-- Surroundings in which the store may fail do the same as those in which it does not, as long as it
refuses nothing. -/
theorem answers_of_unrefused {q : Ask} {a : Answer q} (h : Answers mayFail s q a s')
    (done : isRefusal ⟨q, a⟩ = false) : Answers False s q a s' := by
  cases q with
  | store q =>
    cases q with
    | get key =>
      obtain ⟨rfl, rfl | ⟨-, f, rfl⟩⟩ := h
      · exact ⟨rfl, .inl rfl⟩
      · cases done
    | set key text ttl =>
      rcases h with done' | ⟨-, ⟨f, rfl⟩, -⟩
      · exact .inl done'
      · cases done
    | delete key =>
      rcases h with done' | ⟨-, ⟨f, rfl⟩, -⟩
      · exact .inl done'
      · cases done
    | keys | isAvailable => exact h
  | _ => exact h

theorem comes_of_minds {α : Type} {p : Operation (Except OfflineError α)} (h : Minds p)
    {history : List (Happening interface)} {a : α}
    (comes : (surroundings mayFail).Comes p s history (.ok a) s') :
    (surroundings False).Comes p s history (.ok a) s' := by
  obtain ⟨ends, allows⟩ := comes
  have done := h history a ends
  refine ⟨ends, ?_⟩
  clear ends
  induction allows with
  | nil => exact .nil _
  | cons here _ ih =>
    obtain ⟨first, later⟩ := List.forall_mem_cons.mp done
    exact .cons (answers_of_unrefused here first) (ih later)

/-! ### What can be seen of a pass -/

def replyIn (h : Happening interface) : Option Replied :=
  match h.question, h.answer with
  | .replay e, r => some (e, r)
  | _, _ => none

def toldIn (h : Happening interface) : Option ReplayProgress :=
  match h.question with
  | .progress p => some p
  | _ => none

def pauseIn (h : Happening interface) : Option Duration :=
  match h.question with
  | .pause d => some d
  | _ => none

def writeIn (h : Happening interface) : Option Store.Ask :=
  match h.question with
  | .store (.set key text ttl) => some (.set key text ttl)
  | .store (.delete key) => some (.delete key)
  | _ => none

/-- How these events are stored. -/
def storing (o : OfflineSettings) (es : List OfflineEvent) : Store.Ask :=
  if es.isEmpty then .delete o.queueKey else .set o.queueKey (toText es) none

section Course

variable {total through : Nat} {replied : List Replied}

theorem gap_silent {β : Type} {f : Happening interface → Option β} (more : Bool)
    (h : f ⟨.pause o.throttle, ()⟩ = none) : (gap o more).filterMap f = [] := by
  unfold gap
  split
  · exact List.filterMap_cons_none h
  · rfl

theorem course_replies : (course o total through replied).filterMap replyIn = replied := by
  induction replied generalizing through with
  | nil => rfl
  | cons x replied ih =>
    rw [course, List.filterMap_cons_some (f := replyIn) (b := x) rfl, List.filterMap_cons_none rfl,
      List.filterMap_append, gap_silent _ rfl, ih, List.nil_append]

theorem course_told : (course o total through replied).filterMap toldIn =
    (List.range' (through + 1) replied.length).map (⟨·, total⟩) := by
  induction replied generalizing through with
  | nil => rfl
  | cons x replied ih =>
    rw [course, List.filterMap_cons_none rfl,
      List.filterMap_cons_some (f := toldIn) (b := ⟨through + 1, total⟩) rfl,
      List.filterMap_append, gap_silent _ rfl, ih, List.nil_append, List.length_cons,
      List.range'_succ, List.map_cons]

theorem course_pauses : (course o total through replied).filterMap pauseIn =
    if o.throttle = 0 then [] else List.replicate (replied.length - 1) o.throttle := by
  induction replied generalizing through with
  | nil => simp [course]
  | cons x replied ih =>
    rw [course, List.filterMap_cons_none rfl, List.filterMap_cons_none rfl,
      List.filterMap_append, ih]
    cases replied with
    | nil => simp [gap]
    | cons y replied =>
      by_cases unhurried : o.throttle = 0
      · simp [gap, unhurried]
      · simp [gap, unhurried, pauseIn, List.replicate_succ]

theorem course_writes : (course o total through replied).filterMap writeIn = [] := by
  induction replied generalizing through with
  | nil => rfl
  | cons x replied ih =>
    rw [course, List.filterMap_cons_none rfl, List.filterMap_cons_none rfl,
      List.filterMap_append, gap_silent _ rfl, ih, List.nil_append]

end Course

theorem closing_seen (o : OfflineSettings) (s : State) (failed : List OfflineEvent) :
    (closing o s failed).filterMap replyIn = [] ∧ (closing o s failed).filterMap toldIn = [] ∧
      (closing o s failed).filterMap pauseIn = [] ∧
      (closing o s failed).filterMap writeIn = [storing o failed] := by
  unfold closing storing
  split <;> exact ⟨rfl, rfl, rfl, rfl⟩

section History

variable (o : OfflineSettings) (s : State) (replied : List Replied)

theorem passHistory_replies : (passHistory o s replied).filterMap replyIn = replied := by
  have opened (n : Nat) : (opening o s n).filterMap replyIn = [] := rfl
  cases replied with
  | nil => rfl
  | cons x replied =>
    simp only [passHistory, List.filterMap_append, opened, List.isEmpty_cons, Bool.false_eq_true,
      ↓reduceIte, course_replies, (closing_seen _ _ _).1]
    exact (List.append_nil _).trans (List.append_nil _)

theorem passHistory_told : (passHistory o s replied).filterMap toldIn =
    (List.range (replied.length + 1)).map (⟨·, replied.length⟩) := by
  have opened (n : Nat) : (opening o s n).filterMap toldIn = [⟨0, n⟩] := rfl
  cases replied with
  | nil => rfl
  | cons x replied =>
    simp only [passHistory, List.filterMap_append, opened, List.isEmpty_cons, Bool.false_eq_true,
      ↓reduceIte, course_told, (closing_seen _ _ _).2.1, List.append_nil]
    rw [List.range_eq_range', List.range'_succ, List.map_cons]
    exact congrArg _ (List.append_nil _)

theorem passHistory_pauses : (passHistory o s replied).filterMap pauseIn =
    if o.throttle = 0 then [] else List.replicate (replied.length - 1) o.throttle := by
  have opened (n : Nat) : (opening o s n).filterMap pauseIn = [] := rfl
  cases replied with
  | nil => exact (ite_self []).symm
  | cons x replied =>
    simp only [passHistory, List.filterMap_append, opened, List.isEmpty_cons, Bool.false_eq_true,
      ↓reduceIte, course_pauses, (closing_seen _ _ _).2.2.1]
    exact (List.append_nil _).trans (List.append_nil _)

theorem passHistory_writes : (passHistory o s replied).filterMap writeIn =
    if replied.isEmpty then [] else [storing o (failures replied)] := by
  have opened (n : Nat) : (opening o s n).filterMap writeIn = [] := rfl
  cases replied with
  | nil => rfl
  | cons x replied =>
    simp only [passHistory, List.filterMap_append, opened, List.isEmpty_cons, Bool.false_eq_true,
      ↓reduceIte, course_writes, (closing_seen _ _ _).2.2.2]
    rfl

end History

/-- What can be seen of a pass that began with these events and was given these replies, and what it
leaves behind. -/
structure Undisturbed (o : OfflineSettings) (s : State) (es : List OfflineEvent)
    (replied : List Replied) (history : List (Happening interface))
    (r : Except OfflineError (Option ReplayReport)) (s' : State) : Prop where
  /-- Each event is replayed once, in the order of the stamps, and nothing else is. -/
  order : InOrder es (replied.map (·.1))
  replies : history.filterMap replyIn = replied
  report : r = .ok (some ⟨replied.countP (·.2.isOk), (failures replied).length⟩)
  total : replied.countP (·.2.isOk) + (failures replied).length = es.length
  told : history.filterMap toldIn = (List.range (es.length + 1)).map (⟨·, es.length⟩)
  pauses : history.filterMap pauseIn =
    if o.throttle = 0 then [] else List.replicate (es.length - 1) o.throttle
  /-- The queue is written once, and not at all if it was empty. -/
  writes : history.filterMap writeIn = if es.isEmpty then [] else [storing o (failures replied)]
  stored : s'.stored = if es.isEmpty then s.stored else (s.saved o (failures replied)).stored
  /-- The failed events are what the queue is read as from then on. -/
  left : ∀ read, queueOf (.ok (s'.stored o.queueKey)) = .ok read ↔
    (failures replied).mapM OfflineEvent.reread? = some read
  ready : s'.Idle

namespace State

/-- While a pass runs and nobody has the turn. -/
structure Passing (s : State) (n : Nat) : Prop where
  free : s.Free
  running : s.queue.running = some n
  there : s.queue.hasReplayer = true

theorem Passing.endPass {n : Nat} (h : s.Passing n) : (s.endPass n).Idle := by
  refine ⟨?_, ?_, ?_⟩
  · rw [Free, endPass_lock]
    exact h.free
  · simp [State.endPass, QueuePart.endPass, h.running]
  · rw [← h.there]
    simp [State.endPass, QueuePart.endPass, h.running, QueuePart.hasReplayer]

theorem Idle.opened (h : s.Idle) (n : Nat) : (s.opened n).Passing s.queue.passes := by
  refine ⟨opened_free h.free h.idle n, ?_, ?_⟩
  · rw [State.opened, (startPass_of_free h.idle).2]
    rfl
  · exact (startPass_hasReplayer s).trans h.there

theorem Passing.counted {n : Nat} (h : s.Passing n) (total through k : Nat) :
    (s.counted total through k).Passing n :=
  ⟨by rw [Free, counted_lock]; exact h.free, by rw [counted_running]; exact h.running,
    by rw [counted_hasReplayer]; exact h.there⟩

theorem Passing.closed {n : Nat} (h : s.Passing n) (failed : List OfflineEvent) :
    (s.closed o failed).Passing n :=
  ⟨handBack_of_free h.free, h.running, h.there⟩

theorem Idle.passed (h : s.Idle) (replied : List Replied) : (s.passed o replied).Idle := by
  refine Passing.endPass ?_
  split
  · exact h.opened 0
  · exact ((h.opened _).counted _ _ _).closed _

theorem passed_stored (s : State) (replied : List Replied) : (s.passed o replied).stored =
    if replied.isEmpty then s.stored else (s.saved o (failures replied)).stored := by
  unfold passed
  split
  · rfl
  · funext key
    simp [closed, State.endPass, State.handBack, saved, put, through, take]

end State

/-- A pass with these replies is undisturbed. -/
theorem undisturbed_passed (ready : s.Idle) (holds : s.Holds o es) {replied : List Replied}
    (same : replied.map (·.1) = sortByStamp es) :
    Undisturbed o s es replied (passHistory o s replied)
      (.ok (some ⟨replied.countP (·.2.isOk), (failures replied).length⟩)) (s.passed o replied) := by
  have length : replied.length = es.length := by
    rw [← (sortByStamp_perm es).length_eq, ← same, List.length_map]
  have empty : replied.isEmpty = es.isEmpty := by
    rw [Bool.eq_iff_iff, List.isEmpty_iff_length_eq_zero, List.isEmpty_iff_length_eq_zero, length]
  have ascending : (failures replied).Pairwise (·.createdAt ≤ ·.createdAt) :=
    (sortByStamp_ascending es).sublist (same ▸ failures_sublist replied)
  refine ⟨same ▸ inOrder_sortByStamp es, passHistory_replies o s replied, rfl, ?_,
    length ▸ passHistory_told o s replied, length ▸ passHistory_pauses o s replied,
    empty ▸ passHistory_writes o s replied, empty ▸ State.passed_stored s replied, fun read => ?_,
    ready.passed replied⟩
  · rw [← length, List.length_eq_countP_add_countP fun x : Replied => x.2.isOk, failures,
      List.length_map, ← List.countP_eq_length_filter]
    simp
  · rw [State.passed_stored]
    cases replied with
    | nil =>
      simp only [List.isEmpty_nil, ↓reduceIte, holds.reads, ← same, List.map_nil]
      simp [failures, eq_comm]
    | cons x replied =>
      simp only [List.isEmpty_cons, Bool.false_eq_true, ↓reduceIte, stored_saved]
      exact queueOf_textOf_of_ascending ascending

theorem comes_perform_iff {r : Except OfflineError (Option ReplayReport)}
    {history : List (Happening interface)} :
    (surroundings mayFail).Comes (perform o .replay) s history (.replayed r) s' ↔
      (surroundings mayFail).Comes (replay o) s history r s' := by
  rw [perform, Process.bind_def, Surroundings.comes_bind_iff]
  simp only [Process.pure_def, Surroundings.comes_done_iff, Outcome.replayed.injEq]
  constructor
  · rintro ⟨first, _, _, _, rfl, comes, rfl, rfl, rfl⟩
    rwa [List.append_nil]
  · exact fun comes => ⟨history, r, s', [], (List.append_nil _).symm, comes, rfl, rfl, rfl⟩

theorem comes_replay_iff (ready : s.Idle) (holds : s.Holds o es)
    {r : Except OfflineError (Option ReplayReport)} {history : List (Happening interface)} :
    (surroundings False).Comes (replay o) s history r s' ↔
      ∃ replied : List Replied, replied.map (·.1) = sortByStamp es ∧
        history = passHistory o s replied ∧
        r = .ok (some ⟨replied.countP (·.2.isOk), (failures replied).length⟩) ∧
        s' = s.passed o replied := by
  rw [← comes_perform_iff, comes_perform_replay_iff ready holds.reads (sortByStamp_ascending es)]
  simp only [Outcome.replayed.injEq]

theorem undisturbed_of_comes (ready : s.Idle) (holds : s.Holds o es) {report : ReplayReport}
    {history : List (Happening interface)}
    (comes : (surroundings mayFail).Comes (replay o) s history (.ok (some report)) s') :
    ∃ replied, Undisturbed o s es replied history (.ok (some report)) s' := by
  obtain ⟨replied, same, rfl, reported, rfl⟩ :=
    (comes_replay_iff ready holds).mp (comes_of_minds (minds_replay o) comes)
  rw [reported]
  exact ⟨replied, undisturbed_passed ready holds same⟩

theorem Undisturbed.holds {replied : List Replied} {history : List (Happening interface)}
    {r : Except OfflineError (Option ReplayReport)} (h : Undisturbed o s es replied history r s')
    (holds : s.Holds o es) (delivered : failures replied = []) : s'.Holds o [] := by
  cases es with
  | nil =>
    rw [State.Holds, h.stored]
    exact holds
  | cons e es =>
    rw [State.Holds, h.stored, delivered]
    exact holds_saved_nil s

/-- A pass to itself replays the events of the queue in the order of their stamps, leaves those that
fail, and tells how far it has come; if none fails, the next one has nothing to do. It completes with
all replies to its events, and always does so while the store serves. -/
theorem passes_undisturbed (ready : s.Idle) (holds : s.Holds o es) :
    (∀ replies : List (Except Fault Unit), replies.length = es.length →
      ∃ history report s', (surroundings False).Comes (replay o) s history (.ok (some report)) s' ∧
        (history.filterMap replyIn).map (·.2) = replies) ∧
    (∀ history r s', (surroundings False).Comes (replay o) s history r s' →
      ∃ report, r = .ok (some report)) ∧
    ∀ history report s',
      (surroundings mayFail).Comes (replay o) s history (.ok (some report)) s' →
      ∃ replied, Undisturbed o s es replied history (.ok (some report)) s' ∧
        (failures replied = [] → ∀ history' report' s'',
          (surroundings mayFail).Comes (replay o) s' history' (.ok (some report')) s'' →
          Undisturbed o s' [] [] history' (.ok (some report')) s'') := by
  refine ⟨fun replies length => ?_, fun history r s' comes => ?_, fun history report s' comes => ?_⟩
  · have sorted := (sortByStamp_perm es).length_eq
    refine ⟨_, _, _, (comes_replay_iff ready holds).mpr ⟨(sortByStamp es).zip replies, ?_, rfl, rfl,
      rfl⟩, ?_⟩
    · exact List.map_fst_zip (by omega)
    · rw [passHistory_replies]
      exact List.map_snd_zip (by omega)
  · obtain ⟨replied, _, _, rfl, _⟩ := (comes_replay_iff ready holds).mp comes
    exact ⟨_, rfl⟩
  · obtain ⟨replied, undisturbed⟩ := undisturbed_of_comes ready holds comes
    refine ⟨replied, undisturbed, fun delivered history' report' s'' next => ?_⟩
    obtain ⟨replied', again⟩ :=
      undisturbed_of_comes undisturbed.ready (undisturbed.holds holds delivered) next
    obtain rfl : replied' = [] := List.map_eq_nil_iff.mp again.order.perm.eq_nil
    exact again

/-- Two events, the later one first. -/
def twoQueued : List OfflineEvent :=
  [{ id := "a", kind := .rest, dsId := "d", createdAt := 2 },
    { id := "b", kind := .rest, dsId := "d", createdAt := 1 }]

/-- Of two events one fails. -/
theorem passes_undisturbed_two : ∃ history s' replied,
    (surroundings False).Comes (replay {})
      ⟨{ replayer := .dispatcher }, fun _ => some (toText twoQueued)⟩ history
      (.ok (some ⟨1, 1⟩)) s' ∧
    Undisturbed {} ⟨{ replayer := .dispatcher }, fun _ => some (toText twoQueued)⟩ twoQueued replied
      history (.ok (some ⟨1, 1⟩)) s' ∧
    history.filterMap toldIn = [⟨0, 2⟩, ⟨1, 2⟩, ⟨2, 2⟩] := by
  have reread : twoQueued.mapM OfflineEvent.reread? = some twoQueued := by
    simp only [twoQueued, List.mapM_cons, List.mapM_nil, OfflineEvent.reread?,
      OfflineEvent.decode_reread]
    rfl
  have ready : State.Idle ⟨{ replayer := .dispatcher }, fun _ => some (toText twoQueued)⟩ :=
    ⟨rfl, rfl, rfl⟩
  have holds : State.Holds {} ⟨{ replayer := .dispatcher }, fun _ => some (toText twoQueued)⟩
      twoQueued := decodeText_toText_iff.mpr reread
  obtain ⟨possible, -, seen⟩ := passes_undisturbed ready holds
  obtain ⟨history, report, s', comes, replies⟩ := possible [.error (.transport "down"), .ok ()] rfl
  obtain ⟨replied, undisturbed, -⟩ := seen history report s' comes
  rw [undisturbed.replies] at replies
  have outcome := undisturbed.report
  obtain ⟨x, _, rfl, failed, rest⟩ := List.map_eq_cons_iff.mp replies
  obtain ⟨y, _, rfl, succeeded, rest⟩ := List.map_eq_cons_iff.mp rest
  obtain rfl := List.map_eq_nil_iff.mp rest
  have counted : report = ⟨1, 1⟩ := by
    simpa [failures, failed, succeeded, Except.isOk, Except.toBool] using outcome
  subst counted
  exact ⟨history, s', _, comes, undisturbed, undisturbed.told⟩

end ScreenFlow.OfflineQueue
