import ScreenFlow.Proofs.Offline.Stages
import ScreenFlow.Proofs.Process.Histories

/-!
# Calls of the queue one at a time

What an operation on the queue does if nothing else happens meanwhile.

* `leads_enqueue_iff`: an event is put at the end of the queue, or nothing is stored;
* `leads_cached_iff`, `leads_keep_iff`: a kept read is looked up, or a read is kept.
-/

namespace ScreenFlow.OfflineQueue

variable {mayFail : Prop} {o : OfflineSettings} {s s' : State} {e : OfflineEvent}

/-! ### Queueing an event -/

/-- All that queueing an event may come to. -/
inductive Queueing (o : OfflineSettings) (mayFail : Prop) (e : OfflineEvent) (s : State) :
    Except OfflineError String → State → Prop
  | unread {f : OfflineError} (reads : s.Reads o mayFail (.error f)) :
      Queueing o mayFail e s (.error f) (s.take.handBack s.queue.lock.next)
  | unwritten {queued : List OfflineEvent} (reads : s.Reads o mayFail (.ok queued)) (now : Int)
      (may : mayFail) (f : StoreError) :
      Queueing o mayFail e s (.error (.store f))
        ((s.take.stamped (nextStamp now s.queue.lastStamp queued)).handBack s.queue.lock.next)
  | queued {queued : List OfflineEvent} (reads : s.Reads o mayFail (.ok queued)) (now : Int) :
      Queueing o mayFail e s (.ok e.id)
        (((s.take.stamped (nextStamp now s.queue.lastStamp queued)).saved o
          (queued ++ [{ e with createdAt := nextStamp now s.queue.lastStamp queued }])).handBack
            s.queue.lock.next)

/-- Whether a call that comes now has the turn at once. -/
def State.Free (s : State) : Prop := s.queue.lock.waiting = []

theorem hasTurn_of_free (free : s.Free) : s.take.queue.lock.hasTurn s.queue.lock.next = true := by
  simp [State.take, Turnstile.take, Turnstile.hasTurn, show s.queue.lock.waiting = [] from free]

theorem handBack_of_free (free : s.Free) :
    (s.take.queue.lock.handBack s.queue.lock.next).waiting = [] := by
  simp [State.take, Turnstile.take, Turnstile.handBack, show s.queue.lock.waiting = [] from free]

theorem Queueing.free {a : Except OfflineError String} (h : Queueing o mayFail e s a s')
    (free : s.Free) : s'.Free := by
  cases h <;> exact handBack_of_free free

section Questions

variable {α : Type} {b : α}

theorem leads_takeTicket_iff {next : Nat → Operation α} :
    (surroundings mayFail).Leads (.ask .takeTicket next) s b s' ↔
      (surroundings mayFail).Leads (next s.queue.lock.next) s.take b s' :=
  Surroundings.leads_determined (S := surroundings mayFail) (q := Ask.takeTicket) fun _ _ => .rfl

theorem leads_handBack_iff {ticket : Nat} {next : Unit → Operation α} :
    (surroundings mayFail).Leads (.ask (.handBack ticket) next) s b s' ↔
      (surroundings mayFail).Leads (next ()) (s.handBack ticket) b s' :=
  Surroundings.leads_determined (S := surroundings mayFail) (q := Ask.handBack ticket)
    (a := ()) fun _ _ => by simp [surroundings, Answers]

theorem leads_lastStamp_iff {next : Int → Operation α} :
    (surroundings mayFail).Leads (.ask .lastStamp next) s b s' ↔
      (surroundings mayFail).Leads (next s.queue.lastStamp) s b s' :=
  Surroundings.leads_determined (S := surroundings mayFail) (q := Ask.lastStamp) fun _ _ => .rfl

theorem leads_setLastStamp_iff {stamp : Int} {next : Unit → Operation α} :
    (surroundings mayFail).Leads (.ask (.setLastStamp stamp) next) s b s' ↔
      (surroundings mayFail).Leads (next ()) (s.stamped stamp) b s' :=
  Surroundings.leads_determined (S := surroundings mayFail) (q := Ask.setLastStamp stamp)
    (a := ()) fun _ _ => by simp [surroundings, Answers]

theorem leads_registerSync_iff {tag : String} {next : Unit → Operation α} :
    (surroundings mayFail).Leads (.ask (.registerSync tag) next) s b s' ↔
      (surroundings mayFail).Leads (next ()) s b s' :=
  Surroundings.leads_determined (S := surroundings mayFail) (q := Ask.registerSync tag)
    (a := ()) fun _ _ => by simp [surroundings, Answers]

theorem leads_turn_iff {ticket : Nat} {next : Unit → Operation α} :
    (surroundings mayFail).Leads (.ask (.turn ticket) next) s b s' ↔
      s.queue.lock.hasTurn ticket = true ∧ (surroundings mayFail).Leads (next ()) s b s' := by
  rw [Surroundings.leads_ask_iff]
  constructor
  · rintro ⟨_, _, ⟨turn, rfl⟩, leads⟩
    exact ⟨turn, leads⟩
  · rintro ⟨turn, leads⟩
    exact ⟨(), s, ⟨turn, rfl⟩, leads⟩

theorem leads_wallClock_iff {next : Int → Operation α} :
    (surroundings mayFail).Leads (.ask .wallClock next) s b s' ↔
      ∃ now : Int, (surroundings mayFail).Leads (next now) s b s' := by
  rw [Surroundings.leads_ask_iff]
  constructor
  · rintro ⟨now, _, rfl, leads⟩
    exact ⟨now, leads⟩
  · rintro ⟨now, leads⟩
    exact ⟨now, s, rfl, leads⟩

theorem leads_get_iff {key : String} {next : Except StoreError (Option String) → Operation α} :
    (surroundings mayFail).Leads (.ask (.store (.get key)) next) s b s' ↔
      ∃ got, (got = .ok (s.stored key) ∨ mayFail ∧ ∃ f, got = .error f) ∧
        (surroundings mayFail).Leads (next got) s b s' := by
  rw [Surroundings.leads_ask_iff]
  constructor
  · rintro ⟨got, _, ⟨rfl, answers⟩, leads⟩
    exact ⟨got, answers, leads⟩
  · rintro ⟨got, answers, leads⟩
    exact ⟨got, s, ⟨rfl, answers⟩, leads⟩

theorem leads_set_iff {key text : String} {next : Except StoreError Unit → Operation α} :
    (surroundings mayFail).Leads (.ask (.store (.set key text none)) next) s b s' ↔
      (surroundings mayFail).Leads (next (.ok ())) (s.put key text) b s' ∨
        mayFail ∧ ∃ f, (surroundings mayFail).Leads (next (.error f)) s b s' := by
  rw [Surroundings.leads_ask_iff]
  constructor
  · rintro ⟨_, _, ⟨rfl, rfl⟩ | ⟨may, ⟨f, rfl⟩, rfl⟩, leads⟩
    · exact .inl leads
    · exact .inr ⟨may, f, leads⟩
  · rintro (leads | ⟨may, f, leads⟩)
    · exact ⟨.ok (), _, .inl ⟨rfl, rfl⟩, leads⟩
    · exact ⟨.error f, s, .inr ⟨may, ⟨f, rfl⟩, rfl⟩, leads⟩

end Questions

/-- Writing back a queue that ends with a new event. -/
theorem leads_write_iff {ticket : Nat} {queued : List OfflineEvent} {last : OfflineEvent}
    {a : Except OfflineError String} :
    (surroundings mayFail).Leads ((Section.append e).write o ticket (queued ++ [last])) s
        (.queued a) s' ↔
      (a = .ok e.id ∧ s' = (s.saved o (queued ++ [last])).handBack ticket) ∨
        mayFail ∧ ∃ f, a = .error (.store f) ∧ s' = s.handBack ticket := by
  have filled : (queued ++ [last]).isEmpty = false := by simp
  have written : (Except.ok () : Except StoreError Unit).mapError OfflineError.store = .ok () := rfl
  have unwritten (f : StoreError) :
      (Except.error f : Except StoreError Unit).mapError OfflineError.store = .error (.store f) := rfl
  simp only [Section.write, save, filled, Bool.false_eq_true, ↓reduceIte, ask, Process.call,
    Process.bind_def, Process.ask_bind, Process.done_bind, Process.pure_def, leads_set_iff,
    leads_handBack_iff, Section.after, written, unwritten, leads_registerSync_iff,
    Surroundings.leads_done_iff, Outcome.queued.injEq, State.saved]

theorem leads_enqueue_iff {a : Except OfflineError String} :
    (surroundings mayFail).Leads (enqueue o e) s a s' ↔
      s.take.queue.lock.hasTurn s.queue.lock.next = true ∧ Queueing o mayFail e s a s' := by
  have whole : (surroundings mayFail).Leads (enqueue o e) s a s' ↔
      (surroundings mayFail).Leads (perform o (.enqueue e)) s (.queued a) s' := by
    rw [perform, Process.bind_def, Surroundings.leads_bind_iff]
    simp [Process.pure_def]
  rw [whole, perform_enqueue, leads_takeTicket_iff]
  simp only [Stage.process, Section.inside, Section.read, leads_turn_iff, leads_get_iff]
  refine and_congr_right fun turn => ?_
  constructor
  · rintro ⟨got, answers, leads⟩
    have reads : s.Reads o mayFail (queueOf got) := by
      rcases answers with rfl | ⟨may, f, rfl⟩
      · exact .inl rfl
      · exact .inr ⟨may, f, rfl⟩
    cases came : queueOf got with
    | error f =>
      rw [came] at leads reads
      simp only [leads_handBack_iff, Section.after, Surroundings.leads_done_iff,
        Outcome.queued.injEq] at leads
      obtain ⟨rfl, rfl⟩ := leads
      exact .unread reads
    | ok queued =>
      rw [came] at leads reads
      simp only [leads_wallClock_iff, leads_lastStamp_iff, leads_setLastStamp_iff,
        leads_write_iff] at leads
      obtain ⟨now, ⟨rfl, rfl⟩ | ⟨may, f, rfl, rfl⟩⟩ := leads
      · exact .queued reads now
      · exact .unwritten reads now may f
  · intro queueing
    -- What was got of the store is what the queue was read from.
    have got {r : Except OfflineError (List OfflineEvent)} (reads : s.Reads o mayFail r) :
        ∃ got, (got = .ok (s.take.stored o.queueKey) ∨ mayFail ∧ ∃ f, got = .error f) ∧
          queueOf got = r := by
      rcases reads with rfl | ⟨may, f, rfl⟩
      · exact ⟨_, .inl rfl, rfl⟩
      · exact ⟨.error f, .inr ⟨may, f, rfl⟩, rfl⟩
    cases queueing with
    | unread reads =>
      obtain ⟨got, answers, came⟩ := got reads
      refine ⟨got, answers, ?_⟩
      rw [came]
      simp only [leads_handBack_iff, Section.after, Surroundings.leads_done_iff, true_and]
    | unwritten reads now may f =>
      obtain ⟨got, answers, came⟩ := got reads
      refine ⟨got, answers, ?_⟩
      rw [came]
      simp only [leads_wallClock_iff, leads_lastStamp_iff, leads_setLastStamp_iff, leads_write_iff]
      exact ⟨now, .inr ⟨may, f, rfl, rfl⟩⟩
    | queued reads now =>
      obtain ⟨got, answers, came⟩ := got reads
      refine ⟨got, answers, ?_⟩
      rw [came]
      simp only [leads_wallClock_iff, leads_lastStamp_iff, leads_setLastStamp_iff, leads_write_iff]
      exact ⟨now, .inl ⟨trivial, rfl⟩⟩

/-! ### Kept reads -/

/-- What looking up a kept read may come to. -/
def State.Looks (o : OfflineSettings) (mayFail : Prop) (key : String) (s : State)
    (a : Except OfflineError (Option Json)) : Prop :=
  a = (Store.readJson (.ok (s.stored (cacheKey o key)))).mapError .store ∨
    mayFail ∧ ∃ f, a = .error (.store f)

theorem leads_cached_iff {key : String} {a : Except OfflineError (Option Json)} :
    (surroundings mayFail).Leads (cached o key) s a s' ↔ s.Looks o mayFail key a ∧ s' = s := by
  simp only [cached, ask, Process.call, Process.bind_def, Process.ask_bind, Process.done_bind,
    Process.pure_def, leads_get_iff, Surroundings.leads_done_iff]
  constructor
  · rintro ⟨got, rfl | ⟨may, f, rfl⟩, rfl, rfl⟩
    · exact ⟨.inl rfl, rfl⟩
    · exact ⟨.inr ⟨may, f, rfl⟩, rfl⟩
  · rintro ⟨rfl | ⟨may, f, rfl⟩, rfl⟩
    · exact ⟨_, .inl rfl, rfl, rfl⟩
    · exact ⟨.error f, .inr ⟨may, f, rfl⟩, rfl, rfl⟩

theorem leads_keep_iff {key : String} {value : Json} {a : Except OfflineError Unit} :
    (surroundings mayFail).Leads (keep o key value) s a s' ↔
      (a = .ok () ∧ s' = s.put (cacheKey o key) (some value.render)) ∨
        mayFail ∧ ∃ f, a = .error (.store f) ∧ s' = s := by
  simp only [keep, ask, Process.call, Process.bind_def, Process.ask_bind, Process.done_bind,
    Process.pure_def, leads_set_iff, Surroundings.leads_done_iff]
  rfl

end ScreenFlow.OfflineQueue
