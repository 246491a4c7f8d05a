import ScreenFlow.Proofs.Offline.Clearing
import ScreenFlow.Proofs.Offline.Moving

/-!
# Events that come back

What is known of the queue since it was cleared holds of every pool that comes about from then on.

* `Returns`: the step in which a call has cleared the queue;
* `Since`, `Returns.since_steps`: what holds from then on;
* `can_come_back`: a run in which an event comes back;
* `comes_back_iff`: an event that was accepted before is in the queue again exactly if a pass that was
  under way then has brought it back.
-/

namespace ScreenFlow.OfflineQueue

section Pools

variable {o : OfflineSettings} {mayFail : Prop} {p p₀ p₁ p₂ p' : Pool interface State Call Outcome}
  {ws : List Worker} {s₀ : State} {i : Nat} {id : String}

/-! ### Since the clearing -/

/-- The call at this place clears the queue, and returns in this step. -/
structure Returns (o : OfflineSettings) (mayFail : Prop) (i : Nat)
    (p p₁ : Pool interface State Call Outcome) : Prop where
  step : (surroundings mayFail).Step (perform o) p p₁
  clears : ∃ t, p.threads[i]? = some t ∧ t.call = .clear ∧ ∀ outcome, t.process ≠ .done outcome
  returned : ∃ t, p₁.threads[i]? = some t ∧ t.process = .done (.cleared (.ok ()))

/-- Whoever queues an event of this id in the second pool was through in the first. -/
def QueuedBefore (id : String) (p p₂ : Pool interface State Call Outcome) : Prop :=
  ∀ (k : Nat) t₂, p₂.threads[k]? = some t₂ → id ∈ t₂.call.events.map (·.id) →
    ∃ t outcome, p.threads[k]? = some t ∧ t.process = .done outcome

theorem QueuedBefore.unqueued (before : QueuedBefore id p p₂) (since : Steps o mayFail p p')
    (later : Steps o mayFail p' p₂) : Unqueued id p' := by
  intro k t' here' queues
  obtain ⟨t₂, here₂, call, -⟩ := Surroundings.thread_of_steps later here'
  obtain ⟨t, outcome, here, done⟩ := before k t₂ here₂ (call ▸ queues)
  obtain ⟨t'', here'', -, same⟩ := Surroundings.thread_of_steps since here
  obtain rfl := Option.some.inj (here'.symm.trans here'')
  exact ⟨outcome, same _ done ▸ done⟩

theorem QueuedBefore.later (before : QueuedBefore id p₀ p₂) (steps : Steps o mayFail p₀ p) :
    QueuedBefore id p p₂ := by
  intro k t₂ here₂ queues
  obtain ⟨t₀, outcome, here₀, done⟩ := before k t₂ here₂ queues
  obtain ⟨t, here, -, same⟩ := Surroundings.thread_of_steps steps here₀
  obtain rfl := same outcome done
  exact ⟨_, outcome, here, done⟩

/-- When the clearing returns, nothing is stored. -/
theorem Returns.cleared (returns : Returns o mayFail i p p₁) {ws₁ : List Worker}
    (goes : Goes o mayFail p ws p₁ ws₁) (tells : List.Forall₂ (Worker.Tells o) ws₁ p₁.threads)
    (orderly : Crew.Orderly ⟨p.state, ws⟩) : Cleared o id p₁ p₁ ws₁ [] := by
  obtain ⟨t, here, -, busy⟩ := returns.clears
  obtain ⟨t₁, here₁, done⟩ := returns.returned
  cases goes with
  | begins =>
    have bound := (List.getElem?_eq_some_iff.mp here).1
    obtain rfl := Option.some.inj
      (here.symm.trans ((List.getElem?_append_left bound).symm.trans here₁))
    exact absurd done (busy _)
  | leaves there =>
    rcases getElem?_set_cases here₁ with ⟨rfl, rfl⟩ | ⟨-, same⟩
    · obtain rfl := Option.some.inj (here.symm.trans there)
      exact absurd done (busy _)
    · obtain rfl := Option.some.inj (here.symm.trans same)
      exact absurd done (busy _)
  | moves there stood told moves told' =>
    rcases getElem?_set_cases here₁ with ⟨rfl, rfl⟩ | ⟨-, same⟩
    · obtain ⟨sent, finished⟩ := Stage.process_done (told'.stands.process.symm.trans done)
      obtain ⟨ticket, rfl, rfl⟩ := moves.clears finished told.empties
      obtain rfl := finished
      refine ⟨stored_of_written .wipe ticket p.state [], nofun, fun k w hw live => ?_,
        fun k w hw absent _ => ?_⟩
      · exact puts_of_written orderly stood hw live
      · have bound := (List.getElem?_eq_some_iff.mp hw).1
        rw [tells.length_eq] at bound
        rw [List.getElem?_eq_getElem bound] at absent
        cases absent
    · obtain rfl := Option.some.inj (here.symm.trans same)
      exact absurd done (busy _)

/-- What is known of every pool since the clearing. -/
structure Since (o : OfflineSettings) (mayFail : Prop) (id : String)
    (p₁ p : Pool interface State Call Outcome) (ws : List Worker) : Prop where
  tells : List.Forall₂ (Worker.Tells o) ws p.threads
  orderly : Crew.Orderly ⟨p.state, ws⟩
  cleared : ∃ es, Cleared o id p₁ p ws es
  /-- Whatever was brought back was stored then. -/
  was_stored : BroughtBack id p₁ p →
    ∃ p', Steps o mayFail p₁ p' ∧ Steps o mayFail p' p ∧ Persisted o p'.state id

theorem Returns.since (free : s₀.queue.lock.waiting = [])
    (reachable : (surroundings mayFail).Reachable (perform o) s₀ p)
    (returns : Returns o mayFail i p p₁) : ∃ ws, Since o mayFail id p₁ p₁ ws := by
  obtain ⟨ws, tells, orderly⟩ := exists_tells free reachable
  obtain ⟨ws₁, goes, tells₁⟩ := goes_of_step returns.step tells
  refine ⟨ws₁, tells₁, goes.step.orderly orderly, ⟨[], returns.cleared goes tells₁ orderly⟩, ?_⟩
  -- Nobody is both under way and through in one pool.
  rintro ⟨k, t₁, t, here₁, busy, here, ⟨⟨report, done⟩, -⟩⟩
  obtain rfl := Option.some.inj (here₁.symm.trans here)
  exact absurd done (busy _)

theorem Since.step (h : Since o mayFail id p₁ p ws) (since : Steps o mayFail p₁ p)
    (step : (surroundings mayFail).Step (perform o) p p') (unqueued : Unqueued id p) :
    ∃ ws', Since o mayFail id p₁ p' ws' := by
  obtain ⟨es, cleared⟩ := h.cleared
  obtain ⟨ws', goes, tells'⟩ := goes_of_step step h.tells
  refine ⟨ws', tells', goes.step.orderly h.orderly, ?_, fun back => ?_⟩
  · exact cleared.goes h.orderly since unqueued (.single step) goes
  · rcases cleared.persisted_of_broughtBack goes back with before | now
    · obtain ⟨p'', earlier, later, persisted⟩ := h.was_stored before
      exact ⟨p'', earlier, later.tail step, persisted⟩
    · exact ⟨p', since.tail step, .refl, now⟩

theorem Returns.since_steps (free : s₀.queue.lock.waiting = [])
    (reachable : (surroundings mayFail).Reachable (perform o) s₀ p)
    (returns : Returns o mayFail i p p₁) (before : QueuedBefore id p p₂)
    (since : Steps o mayFail p₁ p') (until₂ : Steps o mayFail p' p₂) :
    ∃ ws, Since o mayFail id p₁ p' ws := by
  induction since with
  | refl => exact returns.since free reachable
  | tail earlier step ih =>
    obtain ⟨ws, h⟩ := ih (until₂.head step)
    have unqueued := before.unqueued ((Relation.ReflTransGen.single returns.step).trans earlier)
      (until₂.head step)
    exact h.step earlier step unqueued

end Pools

/-! ### A pass that brings an event back -/

section Run

variable {o : OfflineSettings} {mayFail : Prop} {p : Pool interface State Call Outcome} {s : State}
  {e f : OfflineEvent} {es : List OfflineEvent} {t₀ t₁ t₂ : Thread interface Call Outcome}

/-- These events are queued, and nobody has the turn. -/
structure State.Rests (o : OfflineSettings) (s : State) (es : List OfflineEvent) : Prop where
  stored : s.stored o.queueKey = textOf es
  free : s.queue.lock.waiting = []

theorem queues_first (fresh : s.Fresh o) (steps : Steps o mayFail p ⟨s, []⟩) (e : OfflineEvent) :
    ∃ s' past, Steps o mayFail p ⟨s', [⟨.enqueue e, .done (.queued (.ok e.id)), past, false⟩]⟩ ∧
      s'.Rests o [{ e with createdAt := nextStamp 0 s.queue.lastStamp [] }] ∧
      s'.queue.running = none ∧ s'.queue.hasReplayer = s.queue.hasReplayer := by
  have nothing : s.take.Reads o mayFail (.ok []) := .inl (by rw [State.take, fresh.stored]; rfl)
  obtain ⟨_, waits⟩ := steps.begins (.enqueue e)
  obtain ⟨_, reads⟩ := waits.moves (i := 0) rfl
    (.enter (Turnstile.hasTurn_take_of_free fresh.waiting) Section.noConfusion) rfl
  obtain ⟨_, writes⟩ := reads.moves (i := 0) rfl (.append nothing 0) rfl
  obtain ⟨past, queued⟩ := writes.moves (i := 0) rfl .written rfl
  refine ⟨_, past, queued, ⟨stored_of_written _ _ _ _, ?_⟩, fresh.running, rfl⟩
  exact Turnstile.handBack_take_of_free fresh.waiting

/-- A pass reads the queue, and is about to replay what it has read. -/
theorem reads_one (rests : s.Rests o [e]) (readable : e.reread? = some f)
    (idle : s.queue.running = none) (there : s.queue.hasReplayer = true)
    (steps : Steps o mayFail p ⟨s, [t₀]⟩) :
    ∃ s' past pass ticket, s'.queue.lock.waiting = [] ∧ Steps o mayFail p ⟨s', [t₀,
      ⟨.replay, (Stage.replaying pass ticket [f] [] 0 f [] {}).process o, past, false⟩]⟩ := by
  obtain ⟨-, started⟩ := State.startPass_of_free idle
  have lock : s.startPass.queue.lock = s.queue.lock := by rw [started]
  have stored : s.startPass.take.stored o.queueKey = textOf [e] := rests.stored
  have one : s.startPass.take.Reads o mayFail (.ok [f]) := by
    refine .inl (Eq.symm ?_)
    have filed : Filed [e] := ⟨List.nodup_singleton e.id, List.pairwise_singleton _ e⟩
    rw [stored, queueOf_textOf filed, List.mapM_cons, readable]
    rfl
  have turn : s.startPass.take.queue.lock.hasTurn s.queue.lock.next = true := by
    rw [State.take, lock]
    exact Turnstile.hasTurn_take_of_free rests.free
  obtain ⟨_, waits⟩ := steps.begins (.pass idle there)
  obtain ⟨_, reads⟩ := waits.moves (i := 1) rfl (.enter turn Section.noConfusion) rfl
  obtain ⟨past, replays⟩ := reads.moves (i := 1) rfl (.snapshot one) rfl
  refine ⟨_, past, s.queue.passes, s.queue.lock.next, ?_, replays⟩
  change (s.startPass.queue.lock.take.2.handBack s.queue.lock.next).waiting = []
  rw [lock]
  exact Turnstile.handBack_take_of_free rests.free

/-- The queue is cleared. -/
theorem clears_next (free : s.queue.lock.waiting = []) (steps : Steps o mayFail p ⟨s, [t₀, t₁]⟩) :
    ∃ p₁ s₂ past, Steps o mayFail p p₁ ∧ s₂.Rests o [] ∧ Returns o mayFail 2 p₁
      ⟨s₂, [t₀, t₁, ⟨.clear, .done (.cleared (.ok ())), past, false⟩]⟩ := by
  obtain ⟨_, waits⟩ := steps.begins .clear
  obtain ⟨past₁, writes⟩ := waits.moves (i := 2) rfl
    (.wipe (Turnstile.hasTurn_take_of_free free)) rfl
  have returns : ∃ past, (surroundings mayFail).Step (perform o)
      ⟨s.take, [t₀, t₁,
        ⟨.clear, (Stage.writing .wipe s.queue.lock.next []).process o, past₁, false⟩]⟩
      ⟨Section.wipe.leave s.queue.lock.next (s.take.saved o []),
        [t₀, t₁, ⟨.clear, .done (.cleared (.ok ())), past, false⟩]⟩ :=
    Moves.step (i := 2) .written rfl rfl
  obtain ⟨past, step⟩ := returns
  refine ⟨_, _, past, writes, ⟨stored_of_written _ _ _ _, ?_⟩, step, ?_, ⟨_, rfl, rfl⟩⟩
  · exact Turnstile.handBack_take_of_free free
  · exact ⟨_, rfl, rfl, nofun⟩

/-- The replay fails, and the pass puts back what it has read. -/
theorem merges_one {pass used : Nat} {past : List (Happening interface)} (fault : Fault)
    (rests : s.Rests o []) (steps : Steps o mayFail p ⟨s, [t₀,
      ⟨.replay, (Stage.replaying pass used [f] [] 0 f [] {}).process o, past, false⟩, t₂]⟩) :
    ∃ s' t₁, Steps o mayFail p ⟨s', [t₀, t₁, t₂]⟩ ∧ t₁.call = .replay ∧
      s'.stored o.queueKey = textOf [f] := by
  have nothing : (s.tell ⟨1, 1⟩).take.Reads o mayFail (.ok []) := .inl (by
    have stored : (s.tell ⟨1, 1⟩).take.stored o.queueKey = textOf [] := rests.stored
    rw [stored]
    rfl)
  obtain ⟨_, waits⟩ := steps.moves (i := 1) rfl (.through (.error fault)) rfl
  obtain ⟨_, reads⟩ := waits.moves (i := 1) rfl
    (.enter (Turnstile.hasTurn_take_of_free rests.free) Section.noConfusion) rfl
  obtain ⟨_, writes⟩ := reads.moves (i := 1) rfl (.merge nothing) rfl
  obtain ⟨_, merged⟩ := writes.moves (i := 1) rfl .written rfl
  have kept : remaining [f] [f] [] = [f] := by simp [remaining, sortByStamp]
  exact ⟨_, _, merged, rfl, (stored_of_written _ _ _ _).trans (congrArg textOf kept)⟩

/-- Any event that can be read back comes back, if the queue is cleared while a pass replays it. -/
theorem can_come_back (mayFail : Prop) (fresh : s.Fresh o) (there : s.queue.hasReplayer = true)
    (fault : Fault)
    (readable : { e with createdAt := nextStamp 0 s.queue.lastStamp [] }.reread? = some f) :
    ∃ p₀ p p₁ p₂ : Pool interface State Call Outcome,
      (surroundings mayFail).Reachable (perform o) s p₀ ∧ (∃ t ∈ p₀.threads, Accepted t e) ∧
      p₀.threads.length ≤ 2 ∧ Steps o mayFail p₀ p ∧ Returns o mayFail 2 p p₁ ∧
      Steps o mayFail p₁ p₂ ∧ QueuedBefore e.id p₀ p₂ ∧ Persisted o p₂.state e.id := by
  obtain ⟨s₁, past₁, queued, rests₁, idle, there₁⟩ := queues_first fresh .refl e
  obtain ⟨s₂, past₂, pass, ticket, free, reads⟩ :=
    reads_one rests₁ readable idle (there₁.trans there) .refl
  obtain ⟨p, s₃, past₃, clears, rests₃, returns⟩ := clears_next free reads
  obtain ⟨s₄, t, merges, replays, stored⟩ := merges_one fault rests₃ .refl
  refine ⟨_, p, _, _, queued, ⟨_, List.mem_singleton_self _, rfl, rfl⟩, Nat.le_succ 1, clears,
    returns, merges, ?_, [f], stored, ?_⟩
  · intro k t₂ here queues
    match k with
    | 0 => exact ⟨_, _, rfl, rfl⟩
    | 1 =>
      obtain rfl : t = t₂ := Option.some.inj here
      rw [replays] at queues
      cases queues
    | 2 =>
      obtain rfl := Option.some.inj here
      cases queues
    | k + 3 => cases here
  · rw [OfflineEvent.reread?_same readable]
    exact List.mem_singleton_self e.id

end Run

/-- An event of which everything can be read back. -/
def simpleEvent : OfflineEvent := { id := "a", kind := .rest, dsId := "d" }

theorem simpleEvent_readable :
    { simpleEvent with createdAt := 1 }.reread? = some { simpleEvent with createdAt := 1 } := by
  rw [OfflineEvent.reread?, OfflineEvent.decode_reread]
  rfl

/-! ### When an event comes back -/

/-- Once the clearing has returned, an event that was accepted before is in the queue again exactly
if a pass brings it back: one that was under way then, and completes having failed to replay it. -/
theorem comes_back_iff {o : OfflineSettings} {mayFail : Prop} {s₀ : State}
    {p p₁ p₂ : Pool interface State Call Outcome} {i : Nat} {id : String}
    (free : s₀.queue.lock.waiting = [])
    (reachable : (surroundings mayFail).Reachable (perform o) s₀ p)
    (returns : Returns o mayFail i p p₁) (later : Steps o mayFail p₁ p₂)
    (before : QueuedBefore id p p₂) :
    (∃ p', Steps o mayFail p₁ p' ∧ Steps o mayFail p' p₂ ∧ Persisted o p'.state id) ↔
      BroughtBack id p₁ p₂ := by
  constructor
  · rintro ⟨p', since, until₂, persisted⟩
    obtain ⟨ws, h⟩ := returns.since_steps free reachable before since until₂
    obtain ⟨es, cleared⟩ := h.cleared
    have mem := (persisted_iff cleared.stored).mp persisted
    exact (cleared.back mem).steps until₂
  · intro back
    obtain ⟨ws, h⟩ := returns.since_steps free reachable before later .refl
    exact h.was_stored back

/-- The queue is cleared during the replay of an event, the replay fails, and the event comes back. -/
theorem comes_back_iff_once : ∃ p₀ p p₁ p₂ : Pool interface State Call Outcome,
    (surroundings False).Reachable (perform {}) ⟨{ replayer := .dispatcher }, fun _ => none⟩ p ∧
      (∃ t ∈ p₀.threads, Accepted t simpleEvent) ∧ Steps {} False p₀ p ∧ Returns {} False 2 p p₁ ∧
      Steps {} False p₁ p₂ ∧ QueuedBefore simpleEvent.id p p₂ ∧
      Persisted {} p₂.state simpleEvent.id ∧ BroughtBack simpleEvent.id p₁ p₂ := by
  have fresh : State.Fresh {} ⟨{ replayer := .dispatcher }, fun _ => none⟩ := ⟨rfl, rfl, rfl⟩
  obtain ⟨p₀, p, p₁, p₂, reachable, accepted, -, steps, returns, later, before, persisted⟩ :=
    can_come_back False fresh rfl (.transport "down") simpleEvent_readable
  have back := (comes_back_iff rfl (reachable.trans steps) returns later (before.later steps)).mp
    ⟨p₂, later, .refl, persisted⟩
  exact ⟨p₀, p, p₁, p₂, reachable.trans steps, accepted, steps, returns, later,
    before.later steps, persisted, back⟩

/-- Clearing the queue is final: once it has returned, no event that was accepted before it was called
is ever in the queue again. -/
def ClearsForGood : Prop :=
  ∀ (o : OfflineSettings) (s₀ : State) (p₀ p p₁ p₂ : Pool interface State Call Outcome) (i : Nat)
    (e : OfflineEvent), s₀.queue.lock.waiting = [] → s₀.queue.running = none →
    (surroundings False).Reachable (perform o) s₀ p₀ → (∃ t ∈ p₀.threads, Accepted t e) →
    p₀.threads.length ≤ i → Steps o False p₀ p → Returns o False i p p₁ → Steps o False p₁ p₂ →
    QueuedBefore e.id p₀ p₂ → ¬ Persisted o p₂.state e.id

theorem not_clearsForGood : ¬ ClearsForGood := by
  intro final
  have fresh : State.Fresh {} ⟨{ replayer := .dispatcher }, fun _ => none⟩ := ⟨rfl, rfl, rfl⟩
  obtain ⟨p₀, p, p₁, p₂, reachable, accepted, longer, steps, returns, later, before, persisted⟩ :=
    can_come_back False fresh rfl (.transport "down") simpleEvent_readable
  exact final _ _ p₀ p p₁ p₂ 2 _ rfl rfl reachable accepted longer steps returns later before
    persisted

end ScreenFlow.OfflineQueue
