import ScreenFlow.Proofs.Offline.Keeping
import ScreenFlow.Proofs.Offline.Moving

/-!
# Clearing the queue

A queue that has been cleared contains none of the events that were accepted before, unless a pass is
under way: it has read the queue already, and puts back at its end what it has failed to replay.

* `Worker.Tells`, `exists_tells`: what the stage of a call tells of what the call has been answered;
* `Goes`, `goes_of_step`: one step of a pool, with the stages of its calls;
* `Persisted`: an event of this id is stored in the queue;
* `BroughtBack`: a pass that was under way at the clearing has failed to replay the event;
* `Cleared`, `Cleared.goes`: what the queue contains since it was cleared, step by step;
* `Cleared.persisted_of_broughtBack`: an event is brought back by writing it.
-/

namespace ScreenFlow.OfflineQueue

/-! ### Failed replays -/

/-- The event whose replay failed, if that is what happened. -/
def failedBy (h : Happening interface) : Option OfflineEvent :=
  match h.question, h.answer with
  | .replay e, .error _ => some e
  | _, _ => none

def Section.failed : Section → List OfflineEvent
  | .merge _ _ _ _ p => p.failed
  | _ => []

namespace Stage

/-- The events that the call has failed to replay. -/
def failed : Stage → List OfflineEvent
  | .waiting sec _ | .reading sec _ | .writing sec _ _ => sec.failed
  | .replaying _ _ _ _ _ _ _ p | .pausing _ _ _ _ _ _ _ p => p.failed
  | .finished .. => []

def isReplaying : Stage → Bool
  | .replaying .. => true
  | _ => false

/-- Whoever clears the queue writes nothing. -/
def Empties : Stage → Prop
  | .writing .wipe _ es => es = []
  | _ => True

end Stage

section Call

variable {o : OfflineSettings} {mayFail : Prop} {s s' : State} {stage stage' : Stage} {c : Call}
  {past past' new : List (Happening interface)} {r : Operation Outcome} {e : OfflineEvent}

theorem mem_failedBy :
    e ∈ past.filterMap failedBy ↔ ∃ fault, ⟨.replay e, .error fault⟩ ∈ past := by
  rw [List.mem_filterMap]
  constructor
  · rintro ⟨⟨q, a⟩, hmem, h⟩
    cases q with
    | replay e' =>
      cases a with
      | ok u => cases h
      | error fault =>
        obtain rfl : e' = e := Option.some.inj h
        exact ⟨fault, hmem⟩
    | _ => cases h
  · exact fun ⟨fault, hmem⟩ => ⟨_, hmem, rfl⟩

/-- What does not suspend a call is no replay. -/
theorem filterMap_quiet (quiet : ∀ h ∈ new, (surroundings mayFail).suspends h.question = false) :
    new.filterMap failedBy = [] ∧ new.filterMap sentBy = [] := by
  have each : ∀ h ∈ new, failedBy h = none ∧ sentBy h = none := by
    rintro ⟨q, a⟩ hmem
    have answered := quiet _ hmem
    cases q with
    | replay => cases answered
    | _ => exact ⟨rfl, rfl⟩
  exact ⟨List.filterMap_eq_nil_iff.mpr fun h hmem => (each h hmem).1,
    List.filterMap_eq_nil_iff.mpr fun h hmem => (each h hmem).2⟩

/-- Only a call that stands at a replay asks for one. -/
theorem not_replay {q : Ask} {next : Answer q → Operation Outcome}
    (asks : .ask q next = stage.process o) (idle : stage.isReplaying = false) (a : Answer q) :
    failedBy ⟨q, a⟩ = none := by
  cases stage with
  | replaying => cases idle
  | finished => cases asks
  | waiting | pausing =>
    obtain ⟨rfl, -⟩ := Process.ask.inj asks
    rfl
  | reading sec =>
    cases sec <;> obtain ⟨rfl, -⟩ := Process.ask.inj asks <;> rfl
  | writing sec ticket es =>
    cases es <;> obtain ⟨rfl, -⟩ := Process.ask.inj asks <;> rfl

theorem Begins.failed (h : Begins o s c s' stage) : stage.failed = [] := by
  induction h with
  | back _ _ ih => exact ih
  | _ => rfl

theorem Begins.empties (h : Begins o s c s' stage) : stage.Empties := by
  induction h with
  | back _ _ ih => exact ih
  | _ => trivial

theorem Moves.empties (h : Moves o mayFail s stage s' stage') : stage'.Empties := by
  cases h <;> trivial

/-- But for a replay, a call has failed to replay what it had failed to replay before. -/
theorem Moves.failed_eq (h : Moves o mayFail s stage s' stage') (idle : stage.isReplaying = false) :
    stage'.isFinished = true ∨ stage'.failed = stage.failed := by
  cases h with
  | replayed | resting | through => cases idle
  | unreadable | nothing | written | unwritten => exact .inl rfl
  | enter | wipe | append | snapshot | merge | paused => exact .inr rfl

/-- The reply that a pass counts is the one that it got. -/
theorem failed_of_sent {sent : List OfflineEvent} {a b : Except Fault Unit}
    (same : sent ++ ([⟨.replay e, a⟩] : List (Happening interface)).filterMap sentBy =
      sentAfter b e sent) (p : Pass) :
    p.failed ++ ([⟨.replay e, a⟩] : List (Happening interface)).filterMap failedBy =
      (p.after b e).failed := by
  cases a with
  | ok =>
    cases b with
    | ok => exact List.append_nil p.failed
    | error =>
      have more : sent ++ [e] = sent := same
      simp at more
  | error =>
    cases b with
    | ok =>
      have fewer : sent ++ [] = sent ++ [e] := same
      simp at fewer
    | error => rfl

/-- What a call has failed to replay when it comes to its next stage. -/
theorem Moves.failed {q : Ask} {next : Answer q → Operation Outcome} {a : Answer q}
    (h : Moves o mayFail s stage s' stage') (stands : stage.Stands o (.ask q next) past)
    (stands' : stage'.Stands o r (past ++ [⟨q, a⟩] ++ new))
    (quiet : ∀ h ∈ new, (surroundings mayFail).suspends h.question = false)
    (before : past.filterMap failedBy = stage.failed) :
    (past ++ [(⟨q, a⟩ : Happening interface)] ++ new).filterMap failedBy =
      if stage'.isFinished then stage.failed else stage'.failed := by
  obtain ⟨unfailed, unsent⟩ := filterMap_quiet quiet
  have split (f : Happening interface → Option OfflineEvent) :
      (past ++ [(⟨q, a⟩ : Happening interface)] ++ new).filterMap f =
        past.filterMap f ++ [(⟨q, a⟩ : Happening interface)].filterMap f ++ new.filterMap f := by
    rw [List.filterMap_append, List.filterMap_append]
  have sent := stands'.sent
  rw [split, stands.sent, unsent, List.append_nil] at sent
  rw [split, before, unfailed, List.append_nil]
  cases replaying : stage.isReplaying with
  | false =>
    have idle : [(⟨q, a⟩ : Happening interface)].filterMap failedBy = [] := by
      rw [List.filterMap_cons, not_replay stands.process replaying]
      rfl
    rw [idle, List.append_nil]
    rcases h.failed_eq replaying with finished | same
    · rw [finished, if_pos rfl]
    · rw [same, ite_self]
  | true =>
    -- Only here the list grows, by the event whose reply has come.
    cases h with
    | replayed b | resting b | through b =>
      obtain ⟨rfl, -⟩ := Process.ask.inj (stands.process.trans (replayAll_bind_cons _))
      exact failed_of_sent sent _
    | enter | wipe | unreadable | append | nothing | snapshot | merge | written | unwritten
    | paused => cases replaying

end Call

/-! ### Stages that tell -/

/-- The stage of a call tells where it comes from, and what it has failed to replay. -/
structure Worker.Tells (o : OfflineSettings) (w : Worker) (t : Thread interface Call Outcome) : Prop
    extends Worker.Describes o w t where
  of : w.stage.Of w.call
  empties : w.stage.Empties
  failed : w.stage.isFinished = false → t.past.filterMap failedBy = w.stage.failed

/-- One step of a pool, in which calls stand at these stages. -/
inductive Goes (o : OfflineSettings) (mayFail : Prop) (p : Pool interface State Call Outcome)
    (ws : List Worker) : Pool interface State Call Outcome → List Worker → Prop
  | begins {c : Call} {stage : Stage} {s' : State} {t : Thread interface Call Outcome}
      (begins : Begins o p.state c s' stage) (unfailed : t.past.filterMap failedBy = []) :
      Goes o mayFail p ws ⟨s', p.threads ++ [t]⟩ (ws ++ [⟨c, stage, false⟩])
  | moves {i : Nat} {c : Call} {stage stage' : Stage} {s' : State}
      {t t' : Thread interface Call Outcome} (here : p.threads[i]? = some t)
      (there : ws[i]? = some ⟨c, stage, false⟩) (tells : Worker.Tells o ⟨c, stage, false⟩ t)
      (moves : Moves o mayFail p.state stage s' stage')
      (tells' : Worker.Tells o ⟨c, stage', false⟩ t')
      (failed : stage'.isFinished = true → t'.past.filterMap failedBy = stage.failed) :
      Goes o mayFail p ws ⟨s', p.threads.set i t'⟩ (ws.set i ⟨c, stage', false⟩)
  | leaves {i : Nat} {c : Call} {stage : Stage} {t : Thread interface Call Outcome}
      (here : p.threads[i]? = some t) (there : ws[i]? = some ⟨c, stage, false⟩)
      (tells : Worker.Tells o ⟨c, stage, false⟩ t) (busy : stage.isFinished = false) :
      Goes o mayFail p ws ⟨stage.undone p.state, p.threads.set i { t with abandoned := true }⟩
        (ws.set i ⟨c, stage, true⟩)

section Pools

variable {o : OfflineSettings} {mayFail : Prop} {p p' : Pool interface State Call Outcome}
  {ws ws' : List Worker}

theorem goes_of_step (step : (surroundings mayFail).Step (perform o) p p')
    (tells : List.Forall₂ (Worker.Tells o) ws p.threads) :
    ∃ ws', Goes o mayFail p ws p' ws' ∧ List.Forall₂ (Worker.Tells o) ws' p'.threads := by
  cases step with
  | begin c runs =>
    obtain ⟨stage, begins, stands⟩ := begins_of_runs runs
    obtain ⟨new, rfl, quiet⟩ := runs.past
    have unfailed := (filterMap_quiet quiet).1
    refine ⟨_, .begins begins unfailed, List.rel_append tells (.cons ?_ .nil)⟩
    exact ⟨⟨rfl, rfl, stands⟩, begins.of, begins.empties, fun _ => unfailed.trans begins.failed.symm⟩
  | @resume _ i q a resumes =>
    cases resumes with
    | @mk t next s₁ s₂ r past here live waits ha runs =>
      obtain ⟨w, there, told, replace⟩ := forall₂_set tells here
      have stands := waits ▸ told.stands
      obtain ⟨stage, moves, stands'⟩ := moves_of_runs stands ha runs
      obtain ⟨new, rfl, quiet⟩ := runs.past
      obtain ⟨c, stage₀, gone⟩ := w
      obtain rfl : false = gone := live.symm.trans told.gone
      have failed := moves.failed stands stands' quiet (told.failed moves.busy)
      have tells' : Worker.Tells o ⟨c, stage, false⟩
          { t with process := r, past := t.past ++ [⟨q, a⟩] ++ new } := by
        refine ⟨⟨told.call, live, stands'⟩, moves.of told.of, moves.empties, fun busy => ?_⟩
        exact failed.trans (if_neg (Bool.eq_false_iff.mp busy))
      refine ⟨_, .moves here there told moves tells' fun finished => ?_, replace _ _ tells'⟩
      exact failed.trans (if_pos finished)
  | abandon here live waits =>
    obtain ⟨w, there, told, replace⟩ := forall₂_set tells here
    obtain ⟨c, stage, gone⟩ := w
    obtain rfl : false = gone := live.symm.trans told.gone
    have stands : stage.Stands o _ _ := waits ▸ told.stands
    obtain ⟨busy, undone⟩ := stands.undone mayFail p.state
    rw [undone]
    refine ⟨_, .leaves here there told busy, replace _ _ ?_⟩
    exact ⟨⟨told.call, rfl, told.stands⟩, told.of, told.empties, told.failed⟩

theorem Goes.step (goes : Goes o mayFail p ws p' ws') :
    Crew.Step o mayFail ⟨p.state, ws⟩ ⟨p'.state, ws'⟩ := by
  cases goes with
  | begins begins => exact .begin begins
  | moves here there tells moves => exact .moveAt there moves
  | leaves here there tells busy => exact .leaveAt there busy

/-- In a reachable pool every stage tells. -/
theorem exists_tells {s₀ : State} (free : s₀.queue.lock.waiting = [])
    (h : (surroundings mayFail).Reachable (perform o) s₀ p) :
    ∃ ws, List.Forall₂ (Worker.Tells o) ws p.threads ∧ Crew.Orderly ⟨p.state, ws⟩ := by
  induction h with
  | refl =>
    have start : Crew.Orderly ⟨s₀, []⟩ := ⟨.of_fresh free, by simp, .inl rfl⟩
    exact ⟨[], .nil, start⟩
  | tail _ step ih =>
    obtain ⟨ws, tells, orderly⟩ := ih
    obtain ⟨ws', goes, tells'⟩ := goes_of_step step tells
    exact ⟨ws', tells', goes.step.orderly orderly⟩

end Pools

variable {es fs : List OfflineEvent} {id : String}

/-! ### Ids in the stored text -/

/-- The id that is written in an event. -/
def writtenId : Source → Option String
  | .obj _ (("id", .str id) :: _) => some id
  | _ => none

def writtenIds : Source → Option (List String)
  | .arr _ items => items.mapM writtenId
  | _ => none

theorem writtenIds_toText (es : List OfflineEvent) :
    Json.decodeText writtenIds (toText es) = .ok (es.map (·.id)) := by
  have each (e : OfflineEvent) : writtenId (e.toJson.reread 126) = some e.id := by
    rw [OfflineEvent.toJson_reread]
    rfl
  rw [toText, Json.decodeText_render, Json.Reader.maxDepth, Json.reread_arr, writtenIds]
  induction es with
  | nil => rfl
  | cons e es ih =>
    rw [List.map_cons, List.map_cons, List.mapM_cons, each, ih]
    rfl

/-- What is stored determines the ids in the queue, even where the queue cannot be read. -/
theorem ids_of_textOf (same : textOf es = textOf fs) : es.map (·.id) = fs.map (·.id) := by
  cases es with
  | nil =>
    cases fs with
    | nil => rfl
    | cons => cases same
  | cons e es =>
    cases fs with
    | nil => cases same
    | cons f fs =>
      have text : toText (e :: es) = toText (f :: fs) := Option.some.inj same
      have read := writtenIds_toText (e :: es)
      rw [text, writtenIds_toText] at read
      exact (Except.ok.inj read).symm

/-- An event of this id is stored in the queue. -/
def Persisted (o : OfflineSettings) (s : State) (id : String) : Prop :=
  ∃ es, s.stored o.queueKey = textOf es ∧ id ∈ es.map (·.id)

theorem persisted_iff {o : OfflineSettings} {s : State} (stored : s.stored o.queueKey = textOf es) :
    Persisted o s id ↔ id ∈ es.map (·.id) := by
  constructor
  · rintro ⟨fs, same, mem⟩
    rwa [ids_of_textOf (stored.symm.trans same)]
  · exact fun mem => ⟨es, stored, mem⟩

/-- Whoever reads the queue reads the ids that are stored. -/
theorem State.Reads.ids {o : OfflineSettings} {mayFail : Prop} {s : State}
    {queued : List OfflineEvent} (h : s.Reads o mayFail (.ok queued))
    (stored : s.stored o.queueKey = textOf es) :
    id ∈ queued.map (·.id) ↔ id ∈ es.map (·.id) := by
  rcases h with read | ⟨-, e, refused⟩
  · rw [stored] at read
    cases es with
    | nil =>
      obtain rfl : queued = [] := Except.ok.inj read
      rfl
    | cons e es =>
      have text : ofText (toText (e :: es)) = .ok queued := read.symm
      obtain ⟨fs, reread, rfl⟩ := ofText_toText_iff.mp text
      rw [← map_id_of_keys (keys_of_reread reread)]
      exact ((List.mergeSort_perm fs _).map _).mem_iff
  · cases refused

/-! ### What a section writes -/

/-- The section puts an event of this id into the queue. -/
def Section.Adds (id : String) : Section → Prop
  | .append e => e.id = id
  | .merge _ _ _ _ p => id ∈ p.failed.map (·.id)
  | _ => False

/-- What a section writes over a queue of these events, as far as this id is concerned. -/
structure Section.Puts (id : String) (es out : List OfflineEvent) (sec : Section) : Prop where
  source : id ∈ out.map (·.id) → id ∈ es.map (·.id) ∨ sec.Adds id
  adds : sec.Adds id → id ∈ out.map (·.id)

namespace Stage

def Puts (id : String) (es : List OfflineEvent) : Stage → Prop
  | .writing sec _ out => sec.Puts id es out
  | _ => True

/-- The events that the call may still put back. -/
def left : Stage → List OfflineEvent
  | .waiting sec _ | .reading sec _ | .writing sec _ _ => sec.failed
  | .replaying _ _ _ _ _ e es p | .pausing _ _ _ _ _ e es p => p.failed ++ e :: es
  | .finished .. => []

theorem puts_of_outside {stage : Stage} (outside : stage.inside = []) : stage.Puts id es := by
  cases stage with
  | reading | writing => cases outside
  | _ => trivial

end Stage

section Call

variable {o : OfflineSettings} {mayFail : Prop} {s s' : State} {stage stage' : Stage} {c : Call}
  {seen failed queued : List OfflineEvent} {p : Pass} {e : OfflineEvent} {r : Except Fault Unit}

theorem mem_remaining : e ∈ remaining seen failed queued ↔
    e ∈ failed ∨ e ∈ queued ∧ seen.any (·.id == e.id) = false := by
  rw [remaining, sortByStamp, List.mem_mergeSort, List.mem_append, List.mem_filter]
  simp

theorem failed_after_subset : (p.after r e).failed ⊆ p.failed ++ [e] := by
  cases r with
  | ok => exact List.subset_append_left _ _
  | error => exact fun _ hf => hf

/-- Whatever is about to be written is what was stored, or is put there by the section. -/
theorem Moves.puts (h : Moves o mayFail s stage s' stage')
    (stored : s.stored o.queueKey = textOf es) : stage'.Puts id es := by
  cases h with
  | wipe => exact ⟨fun mem => absurd mem List.not_mem_nil, False.elim⟩
  | append reads now =>
    constructor
    · intro mem
      rw [List.map_append, List.mem_append, reads.ids stored] at mem
      exact mem.imp_right fun new => (List.mem_singleton.mp new).symm
    · intro adds
      rw [List.map_append, List.mem_append]
      exact .inr (List.mem_singleton.mpr adds.symm)
  | merge reads =>
    constructor
    · intro mem
      obtain ⟨e, he, rfl⟩ := List.mem_map.mp mem
      rcases mem_remaining.mp he with failed | ⟨queued, -⟩
      · exact .inr (List.mem_map_of_mem failed)
      · exact .inl ((reads.ids stored).mp (List.mem_map_of_mem queued))
    · intro adds
      obtain ⟨e, he, rfl⟩ := List.mem_map.mp adds
      exact List.mem_map_of_mem (mem_remaining.mpr (.inl he))
  | _ => trivial

/-- A call may put back what it might before, and what it reads now. -/
theorem Moves.left (h : Moves o mayFail s stage s' stage')
    (stored : s.stored o.queueKey = textOf es) (mem : id ∈ stage'.left.map (·.id)) :
    id ∈ stage.left.map (·.id) ∨ id ∈ es.map (·.id) := by
  have fewer (sub : stage'.left ⊆ stage.left) :
      id ∈ stage.left.map (·.id) ∨ id ∈ es.map (·.id) := .inl (List.map_subset _ sub mem)
  cases h with
  | snapshot reads => exact .inr ((reads.ids stored).mp mem)
  | replayed r | resting r =>
    refine fewer fun f hf => ?_
    rw [Stage.left, List.append_cons]
    rcases List.mem_append.mp hf with failed | later
    · exact List.mem_append_left _ (failed_after_subset failed)
    · exact List.mem_append_right _ later
  | through r => exact fewer failed_after_subset
  | unreadable | nothing | written | unwritten => exact absurd mem List.not_mem_nil
  | enter | wipe | append | merge | paused => exact fewer fun _ hf => hf

theorem Begins.left (h : Begins o s c s' stage) : stage.left = [] := by
  induction h with
  | back _ _ ih => exact ih
  | _ => rfl

/-- Only writing changes what is stored. -/
theorem Moves.stored_or_written (h : Moves o mayFail s stage s' stage') :
    s'.stored = s.stored ∨ ∃ sec ticket out, stage = .writing sec ticket out ∧
      s' = sec.leave ticket (s.saved o out) ∧ stage' = .finished sec.success sec.sent := by
  cases h with
  | unreadable | unwritten => exact .inl (Section.leave_stored _ _ _)
  | written => exact .inr ⟨_, _, _, rfl, rfl, rfl⟩
  | _ => exact .inl rfl

/-- A pass that completes with a failure has just written the queue. -/
theorem Moves.completes (h : Moves o mayFail s stage s' stage') {report : ReplayReport}
    {sent : List OfflineEvent} (completed : stage' = .finished (.replayed (.ok (some report))) sent)
    (he : e ∈ stage.failed) : ∃ sec ticket out, stage = .writing sec ticket out ∧ sec.Adds e.id ∧
      s' = sec.leave ticket (s.saved o out) := by
  cases h with
  | @unreadable sec | @unwritten sec =>
    have refused := (Stage.finished.inj completed).1
    cases sec <;> cases refused
  | nothing => cases he
  | @written sec =>
    refine ⟨sec, _, _, rfl, ?_, rfl⟩
    cases sec with
    | merge => exact List.mem_map_of_mem he
    | _ => cases he
  | _ => cases completed

/-- Whoever clears the queue has just written nothing. -/
theorem Moves.clears (h : Moves o mayFail s stage s' stage') {sent : List OfflineEvent}
    (cleared : stage' = .finished (.cleared (.ok ())) sent) (empties : stage.Empties) :
    ∃ ticket, stage = .writing .wipe ticket [] ∧ s' = Section.wipe.leave ticket (s.saved o []) := by
  cases h with
  | @unreadable sec | @unwritten sec =>
    have refused := (Stage.finished.inj cleared).1
    cases sec <;> cases refused
  | @written sec ticket =>
    have succeeded := (Stage.finished.inj cleared).1
    cases sec with
    | wipe =>
      obtain rfl : _ = [] := empties
      exact ⟨ticket, rfl, rfl⟩
    | _ => cases succeeded
  | _ => cases cleared

end Call

/-! ### Passes that bring events back -/

section Pools

variable {o : OfflineSettings} {mayFail : Prop} {p p₁ p' : Pool interface State Call Outcome}
  {ws : List Worker}

/-- A pass that has completed, and has failed to replay an event of this id. -/
def Failed (id : String) (t : Thread interface Call Outcome) : Prop :=
  (∃ report, t.process = .done (.replayed (.ok (some report)))) ∧
    ∃ f fault, ⟨.replay f, .error fault⟩ ∈ t.past ∧ f.id = id

/-- A pass that was under way in the first of these pools has completed since, and has failed to
replay an event of this id. -/
def BroughtBack (id : String) (p₁ p : Pool interface State Call Outcome) : Prop :=
  ∃ (k : Nat) (t₁ t : Thread interface Call Outcome), p₁.threads[k]? = some t₁ ∧
    (∀ outcome, t₁.process ≠ .done outcome) ∧ p.threads[k]? = some t ∧ Failed id t

/-- No event of this id is being queued. -/
def Unqueued (id : String) (p : Pool interface State Call Outcome) : Prop :=
  ∀ (k : Nat) t, p.threads[k]? = some t → id ∈ t.call.events.map (·.id) →
    ∃ outcome, t.process = .done outcome

theorem BroughtBack.steps (h : BroughtBack id p₁ p) (steps : Steps o mayFail p p') :
    BroughtBack id p₁ p' := by
  obtain ⟨k, t₁, t, here₁, busy, here, failed⟩ := h
  obtain ⟨t', here', -, same⟩ := Surroundings.thread_of_steps steps here
  obtain ⟨report, done⟩ := failed.1
  rw [same _ done] at here'
  exact ⟨k, t₁, t, here₁, busy, here', failed⟩

/-- What the queue contains in a pool, since it was cleared in another one. -/
structure Cleared (o : OfflineSettings) (id : String) (p₁ p : Pool interface State Call Outcome)
    (ws : List Worker) (es : List OfflineEvent) : Prop where
  stored : p.state.stored o.queueKey = textOf es
  /-- The event is in the queue only if it was brought back. -/
  back : id ∈ es.map (·.id) → BroughtBack id p₁ p
  puts : ∀ (k : Nat) w, ws[k]? = some w → w.gone = false → w.stage.Puts id es
  /-- A pass that came later knows of the event only if it was brought back before. -/
  late : ∀ (k : Nat) w, ws[k]? = some w → p₁.threads[k]? = none → id ∈ w.stage.left.map (·.id) →
    BroughtBack id p₁ p

section Goes

variable {i : Nat} {c : Call} {stage : Stage} {s' : State} {t t' : Thread interface Call Outcome}
  {w w' : Worker} {sec : Section} {ticket : Nat} {out : List OfflineEvent}

/-- A call begins. -/
theorem Cleared.begins (cleared : Cleared o id p₁ p ws es)
    (step : Steps o mayFail p ⟨s', p.threads ++ [t]⟩) (begins : Begins o p.state c s' stage) :
    Cleared o id p₁ ⟨s', p.threads ++ [t]⟩ (ws ++ [⟨c, stage, false⟩]) es where
  stored := begins.stored ▸ cleared.stored
  back mem := (cleared.back mem).steps step
  puts k v hv live := by
    rcases getElem?_concat_cases hv with old | rfl
    · exact cleared.puts k v old live
    · exact Stage.puts_of_outside begins.inside
  late k v hv absent mem := by
    rcases getElem?_concat_cases hv with old | rfl
    · exact (cleared.late k v old absent mem).steps step
    · rw [begins.left] at mem
      cases mem

/-- A call comes to another stage, and nothing is written. -/
theorem Cleared.unwritten (cleared : Cleared o id p₁ p ws es)
    (step : Steps o mayFail p p') (same : p'.state.stored = p.state.stored) (there : ws[i]? = some w)
    (puts : w'.gone = false → w'.stage.Puts id es)
    (left : id ∈ w'.stage.left.map (·.id) →
      id ∈ w.stage.left.map (·.id) ∨ id ∈ es.map (·.id)) :
    Cleared o id p₁ p' (ws.set i w') es where
  stored := same ▸ cleared.stored
  back mem := (cleared.back mem).steps step
  puts k v hv live := by
    rcases getElem?_set_cases hv with ⟨-, rfl⟩ | ⟨-, old⟩
    · exact puts live
    · exact cleared.puts k v old live
  late k v hv absent mem := by
    rcases getElem?_set_cases hv with ⟨rfl, rfl⟩ | ⟨-, old⟩
    · rcases left mem with before | read
      · exact (cleared.late k w there absent before).steps step
      · exact (cleared.back read).steps step
    · exact (cleared.late k v old absent mem).steps step

/-- A call that stands at a stage before its end is not done. -/
theorem Worker.Tells.busy {gone : Bool} (tells : Worker.Tells o ⟨c, stage, gone⟩ t)
    (busy : stage.isFinished = false) (outcome : Outcome) : t.process ≠ .done outcome := by
  intro done
  obtain ⟨sent, rfl⟩ := Stage.process_done (tells.stands.process.symm.trans done)
  cases busy

/-- What a pass adds, it brings back, or a pass before it has done so. -/
theorem Cleared.back_of_adds (cleared : Cleared o id p₁ p ws es)
    (here : p.threads[i]? = some t) (there : ws[i]? = some ⟨c, .writing sec ticket out, false⟩)
    (told : Worker.Tells o ⟨c, .writing sec ticket out, false⟩ t)
    (told' : Worker.Tells o ⟨c, .finished sec.success sec.sent, false⟩ t')
    (failed : t'.past.filterMap failedBy = sec.failed)
    (step : Steps o mayFail p ⟨s', p.threads.set i t'⟩)
    (since : Steps o mayFail p₁ p) (unqueued : Unqueued id p) (adds : sec.Adds id) :
    BroughtBack id p₁ ⟨s', p.threads.set i t'⟩ := by
  have busy := told.busy rfl
  cases sec with
  | wipe | snapshot => exact adds.elim
  | append e =>
    have call : t.call = .enqueue e := told.call.trans told.of
    have queues : id ∈ t.call.events.map (·.id) := by
      rw [call]
      exact List.mem_singleton.mpr adds.symm
    obtain ⟨outcome, done⟩ := unqueued i t here queues
    exact absurd done (busy outcome)
  | merge pass used seen sent p' =>
    obtain ⟨f, hf, rfl⟩ := List.mem_map.mp adds
    obtain ⟨fault, replayed⟩ := mem_failedBy.mp (failed ▸ hf : f ∈ t'.past.filterMap failedBy)
    cases here₁ : p₁.threads[i]? with
    | none => exact (cleared.late i _ there here₁ adds).steps step
    | some t₁ =>
      refine ⟨i, t₁, t', here₁, fun outcome done => ?_, ?_, ?_⟩
      · obtain ⟨t₂, here₂, -, same⟩ := Surroundings.thread_of_steps since here₁
        obtain rfl := Option.some.inj (here.symm.trans here₂)
        obtain rfl := same outcome done
        exact busy outcome done
      · exact List.getElem?_set_self (List.getElem?_eq_some_iff.mp here).1
      · exact ⟨⟨p'.report, told'.stands.process⟩, f, fault, replayed, rfl⟩

/-- Whoever writes has the turn, and nobody else is about to write. -/
theorem puts_of_written {s : State} (orderly : Crew.Orderly ⟨s, ws⟩)
    (there : ws[i]? = some ⟨c, .writing sec ticket out, false⟩) {outcome : Outcome}
    {sent : List OfflineEvent} {k : Nat}
    (hw : (ws.set i ⟨c, .finished outcome sent, false⟩)[k]? = some w) (live : w.gone = false) :
    w.stage.Puts id es := by
  rcases getElem?_set_cases hw with ⟨-, rfl⟩ | ⟨apart, old⟩
  · trivial
  · rw [(set_split there).1] at orderly
    have other : w ∈ ws.take i ++ ws.drop (i + 1) := by
      rw [← List.eraseIdx_eq_take_drop_succ]
      exact List.mem_eraseIdx_iff_getElem?.mpr ⟨k, apart, old⟩
    have outside := orderly.alone_inside (List.cons_ne_nil _ _) w other
    rw [Worker.still, live] at outside
    exact Stage.puts_of_outside outside

theorem stored_of_written (sec : Section) (ticket : Nat) (s : State) (out : List OfflineEvent) :
    (sec.leave ticket (s.saved o out)).stored o.queueKey = textOf out := by
  rw [Section.leave_stored]
  simp [State.saved, State.put, textOf]

/-- A section writes the queue. -/
theorem Cleared.written (cleared : Cleared o id p₁ p ws es) (orderly : Crew.Orderly ⟨p.state, ws⟩)
    (there : ws[i]? = some ⟨c, .writing sec ticket out, false⟩)
    (step : Steps o mayFail p ⟨sec.leave ticket (p.state.saved o out), p.threads.set i t'⟩)
    (back : sec.Adds id → BroughtBack id p₁
      ⟨sec.leave ticket (p.state.saved o out), p.threads.set i t'⟩) :
    Cleared o id p₁ ⟨sec.leave ticket (p.state.saved o out), p.threads.set i t'⟩
      (ws.set i ⟨c, .finished sec.success sec.sent, false⟩) out where
  stored := stored_of_written sec ticket p.state out
  back mem := by
    have puts : sec.Puts id es out := cleared.puts i _ there rfl
    rcases puts.source mem with old | adds
    · exact (cleared.back old).steps step
    · exact back adds
  puts k v hv live := puts_of_written orderly there hv live
  late k v hv absent mem := by
    rcases getElem?_set_cases hv with ⟨rfl, rfl⟩ | ⟨-, old⟩
    · exact absurd mem List.not_mem_nil
    · exact (cleared.late k v old absent mem).steps step

/-- What a step adds to the queue, and what it brings back. -/
theorem Cleared.goes {ws' : List Worker} (cleared : Cleared o id p₁ p ws es)
    (orderly : Crew.Orderly ⟨p.state, ws⟩) (since : Steps o mayFail p₁ p)
    (unqueued : Unqueued id p) (step : Steps o mayFail p p')
    (goes : Goes o mayFail p ws p' ws') : ∃ es', Cleared o id p₁ p' ws' es' := by
  cases goes with
  | begins begins => exact ⟨es, cleared.begins step begins⟩
  | leaves here there tells busy =>
    exact ⟨es, cleared.unwritten step (Stage.undone_stored _ _) there nofun .inl⟩
  | moves here there told moves told' failed =>
    rcases moves.stored_or_written with same | ⟨sec, ticket, out, rfl, rfl, rfl⟩
    · exact ⟨es, cleared.unwritten step same there (fun _ => moves.puts cleared.stored)
        (moves.left cleared.stored)⟩
    · refine ⟨out, cleared.written orderly there step fun adds => ?_⟩
      exact cleared.back_of_adds here there told told' (failed rfl) step since unqueued adds

/-- Whoever brings an event back has just written it. -/
theorem Cleared.persisted_of_broughtBack {ws' : List Worker} (cleared : Cleared o id p₁ p ws es)
    (goes : Goes o mayFail p ws p' ws') (h : BroughtBack id p₁ p') :
    BroughtBack id p₁ p ∨ Persisted o p'.state id := by
  obtain ⟨k, t₁, t', here₁, busy₁, here', failed'⟩ := h
  cases goes with
  | begins begins unfailed =>
    rcases getElem?_concat_cases here' with old | rfl
    · exact .inl ⟨k, t₁, t', here₁, busy₁, old, failed'⟩
    · obtain ⟨f, fault, replayed, -⟩ := failed'.2
      have mem := mem_failedBy.mpr ⟨fault, replayed⟩
      rw [unfailed] at mem
      cases mem
  | leaves here there tells busy =>
    rcases getElem?_set_cases here' with ⟨rfl, rfl⟩ | ⟨-, old⟩
    · exact .inl ⟨k, t₁, _, here₁, busy₁, here, failed'⟩
    · exact .inl ⟨k, t₁, t', here₁, busy₁, old, failed'⟩
  | moves here there told moves told' failed =>
    rcases getElem?_set_cases here' with ⟨rfl, rfl⟩ | ⟨-, old⟩
    · obtain ⟨⟨report, done⟩, f, fault, replayed, rfl⟩ := failed'
      obtain ⟨sent, finished⟩ := Stage.process_done (told'.stands.process.symm.trans done)
      dsimp only at finished
      have mem := mem_failedBy.mpr ⟨fault, replayed⟩
      rw [failed (by rw [finished]; rfl)] at mem
      obtain ⟨sec, ticket, out, rfl, adds, rfl⟩ := moves.completes finished mem
      have puts : sec.Puts f.id es out := cleared.puts k _ there rfl
      exact .inr ⟨out, stored_of_written sec ticket p.state out, puts.adds adds⟩
    · exact .inl ⟨k, t₁, t', here₁, busy₁, old, failed'⟩

end Goes

end Pools

end ScreenFlow.OfflineQueue
