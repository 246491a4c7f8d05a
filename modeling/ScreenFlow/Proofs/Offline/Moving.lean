import ScreenFlow.Proofs.Offline.Running

/-!
# Every move happens

A call does nothing but its moves, and each of them it can do.

* `Begins.runs`, `Moves.comes`: the answers with which a call makes this move;
* `Begins.step`, `Moves.step`: the step of a pool in which one of its calls makes it;
* `Steps`: several steps of a pool.
-/

namespace ScreenFlow.OfflineQueue

variable {o : OfflineSettings} {mayFail : Prop} {s s' : State} {stage stage' : Stage} {c : Call}
  {sec : Section} {ticket : Nat} {f : OfflineError} {queued es : List OfflineEvent}
  {past : List (Happening interface)} {r r' : Operation Outcome}

/-- With some answer the process goes on to the other one. -/
def Comes (mayFail : Prop) (s : State) (r : Operation Outcome) (s' : State)
    (r' : Operation Outcome) : Prop :=
  ∃ q next a s₁, r = .ask q next ∧ Answers mayFail s q a s₁ ∧
    ∀ past, ∃ past', (surroundings mayFail).Runs s₁ (next a) past s' r' past'

/-! ### Sections -/

theorem runs_refused : ∃ past', (surroundings mayFail).Runs s
    (.ask (.handBack ticket) fun _ => sec.after o (.error f)) past (sec.leave ticket s)
    (.done (sec.refusal f)) past' := by
  cases sec <;> simp only [Section.after, ending, runs_handBack, runs_endPass,
    Surroundings.runs_done_iff, Except.map] <;> exact ⟨_, rfl, rfl, rfl⟩

theorem runs_succeeded : ∃ past', (surroundings mayFail).Runs s
    (.ask (.handBack ticket) fun _ => sec.after o (.ok ())) past (sec.leave ticket s)
    (.done sec.success) past' := by
  cases sec <;> simp only [Section.after, ending, runs_handBack, runs_endPass, runs_registerSync,
    Surroundings.runs_done_iff, Except.map] <;> exact ⟨_, rfl, rfl, rfl⟩

/-- Whoever waits for its turn gets it when it has come. -/
theorem comes_of_turn (turn : s.queue.lock.hasTurn ticket = true)
    (runs : ∀ past, ∃ past',
      (surroundings mayFail).Runs s (sec.inside o ticket) past s r' past') :
    Comes mayFail s ((Stage.waiting sec ticket).process o) s r' :=
  ⟨.turn ticket, _, (), s, rfl, ⟨turn, rfl⟩, runs⟩

/-- Whoever reads the queue goes on with what it reads. -/
theorem comes_of_reads {x : Except OfflineError (List OfflineEvent)}
    {proceed : List OfflineEvent → Operation Outcome} (h : s.Reads o mayFail x)
    (runs : ∀ past, ∃ past', (surroundings mayFail).Runs s
      (match x with
        | .error f => .ask (.handBack ticket) fun _ => sec.after o (.error f)
        | .ok queued => proceed queued) past s' r' past') :
    Comes mayFail s (sec.read o ticket proceed) s' r' := by
  rcases h with rfl | ⟨fails, e, rfl⟩
  · exact ⟨.store (.get o.queueKey), _, .ok (s.stored o.queueKey), s, rfl, ⟨rfl, .inl rfl⟩, runs⟩
  · exact ⟨.store (.get o.queueKey), _, .error e, s, rfl, ⟨rfl, .inr ⟨fails, e, rfl⟩⟩, runs⟩

theorem comes_of_saved :
    Comes mayFail s (sec.write o ticket es) (sec.leave ticket (s.saved o es))
      (.done sec.success) := by
  cases es with
  | nil =>
    exact ⟨.store (.delete o.queueKey), _, .ok (s.stored o.queueKey).isSome, _, rfl,
      .inl ⟨rfl, rfl⟩, fun _ => runs_succeeded⟩
  | cons e es =>
    exact ⟨.store (.set o.queueKey (toText (e :: es)) none), _, .ok (), _, rfl, .inl ⟨rfl, rfl⟩,
      fun _ => runs_succeeded⟩

theorem comes_of_unsaved {e : StoreError} (fails : mayFail) :
    Comes mayFail s (sec.write o ticket es) (sec.leave ticket s)
      (.done (sec.refusal (.store e))) := by
  cases es with
  | nil =>
    exact ⟨.store (.delete o.queueKey), _, .error e, _, rfl, .inr ⟨fails, ⟨e, rfl⟩, rfl⟩,
      fun _ => runs_refused⟩
  | cons e' es =>
    exact ⟨.store (.set o.queueKey (toText (e' :: es)) none), _, .error e, _, rfl,
      .inr ⟨fails, ⟨e, rfl⟩, rfl⟩, fun _ => runs_refused⟩

/-! ### Moves -/

/-- Whoever clears the queue does not read it before, so no call comes to this stage. -/
def Stage.isVacant : Stage → Bool
  | .reading .wipe _ => true
  | _ => false

/-- A call can do whatever is one of its moves. -/
theorem Moves.comes (h : Moves o mayFail s stage s' stage') (stands : stage.isVacant = false) :
    Comes mayFail s (stage.process o) s' (stage'.process o) := by
  cases h with
  | enter turn reads =>
    exact comes_of_turn turn fun past => ⟨past, (runs_inside reads).mpr ⟨rfl, rfl, rfl⟩⟩
  | wipe turn => exact comes_of_turn turn fun past => ⟨past, runs_write.mpr ⟨rfl, rfl, rfl⟩⟩
  | @unreadable sec ticket f reads =>
    cases sec with
    | wipe => cases stands
    | append | snapshot | merge => exact comes_of_reads reads fun _ => runs_refused
  | append reads now =>
    refine comes_of_reads reads fun past => ?_
    simp only [runs_wallClock, runs_lastStamp, runs_setLastStamp, runs_write]
    exact ⟨_, now, rfl, rfl, rfl⟩
  | nothing reads =>
    refine comes_of_reads reads fun past => ?_
    simp only [runs_handBack, runs_progress, List.isEmpty_nil, ↓reduceIte, ending, runs_endPass,
      Surroundings.runs_done_iff]
    exact ⟨_, rfl, rfl, rfl⟩
  | snapshot reads =>
    refine comes_of_reads reads fun past => ?_
    simp only [runs_handBack, runs_progress, List.isEmpty_cons, Bool.false_eq_true, ↓reduceIte,
      Stage.process, replayAll_bind_cons]
    exact ⟨_, (Surroundings.runs_suspended_iff rfl).mpr ⟨rfl, rfl, rfl⟩⟩
  | merge reads => exact comes_of_reads reads fun past => ⟨past, runs_write.mpr ⟨rfl, rfl, rfl⟩⟩
  | written => exact comes_of_saved
  | unwritten fails => exact comes_of_unsaved fails
  | @replayed pass used seen sent through e e' es p r still =>
    refine ⟨.replay e, _, r, s, replayAll_bind_cons _, rfl, fun past => ?_⟩
    simp only [runs_progress, List.isEmpty_cons, still, bne_self_eq_false, Bool.and_false,
      Bool.false_eq_true, ↓reduceIte, Stage.process, replayAll_bind_cons]
    exact ⟨_, (Surroundings.runs_suspended_iff rfl).mpr ⟨rfl, rfl, rfl⟩⟩
  | @resting pass used seen sent through e e' es p r rests =>
    have throttled : (o.throttle != 0) = true := bne_iff_ne.mpr rests
    refine ⟨.replay e, _, r, s, replayAll_bind_cons _, rfl, fun past => ?_⟩
    simp only [runs_progress, List.isEmpty_cons, Bool.not_false, throttled, Bool.and_true,
      ↓reduceIte]
    exact ⟨_, (Surroundings.runs_suspended_iff rfl).mpr ⟨rfl, rfl, rfl⟩⟩
  | @through pass used seen sent through e p r =>
    refine ⟨.replay e, _, r, s, replayAll_bind_cons _, rfl, fun past => ?_⟩
    simp only [runs_progress, List.isEmpty_nil, Bool.not_true, Bool.false_and, Bool.false_eq_true,
      ↓reduceIte, replayAll, Process.pure_def, Process.done_bind, merging, runs_takeTicket]
    exact ⟨_, (Surroundings.runs_suspended_iff rfl).mpr ⟨rfl, rfl, rfl⟩⟩
  | paused =>
    refine ⟨.pause o.throttle, _, (), s, rfl, rfl, fun past => ?_⟩
    simp only [Stage.process, replayAll_bind_cons]
    exact ⟨_, (Surroundings.runs_suspended_iff rfl).mpr ⟨rfl, rfl, rfl⟩⟩

theorem Begins.runs (h : Begins o s c s' stage) :
    ∀ past, ∃ past', (surroundings mayFail).Runs s (perform o c) past s' (stage.process o) past' := by
  induction h with
  | enqueue e =>
    intro past
    simp only [perform_enqueue, runs_takeTicket]
    exact ⟨_, (Surroundings.runs_suspended_iff rfl).mpr ⟨rfl, rfl, rfl⟩⟩
  | clear =>
    intro past
    simp only [perform_clear, runs_takeTicket]
    exact ⟨_, (Surroundings.runs_suspended_iff rfl).mpr ⟨rfl, rfl, rfl⟩⟩
  | busy running =>
    intro past
    obtain ⟨refused, unchanged⟩ := State.startPass_of_busy running
    simp only [perform_replay, runs_startPass, refused, unchanged]
    exact ⟨_, .done _ _ _⟩
  | @noReplayer s free there =>
    intro past
    obtain ⟨number, started⟩ := State.startPass_of_free free
    have replayer : s.startPass.queue.hasReplayer = false := by rw [started]; exact there
    simp only [perform_replay, runs_startPass, number, runs_hasReplayer, replayer,
      Bool.false_eq_true, ↓reduceIte, ending, runs_endPass]
    exact ⟨_, .done _ _ _⟩
  | @pass s free there =>
    intro past
    obtain ⟨number, started⟩ := State.startPass_of_free free
    have replayer : s.startPass.queue.hasReplayer = true := by rw [started]; exact there
    have lock : s.startPass.queue.lock = s.queue.lock := by rw [started]
    simp only [perform_replay, runs_startPass, number, runs_hasReplayer, replayer, ↓reduceIte,
      runs_takeTicket, lock]
    exact ⟨_, (Surroundings.runs_suspended_iff rfl).mpr ⟨rfl, rfl, rfl⟩⟩
  | back online _ ih =>
    intro past
    simp only [perform_setOnline, runs_switch, online, ↓reduceIte]
    exact ih _
  | switched offline =>
    intro past
    simp only [perform_setOnline, runs_switch, offline, Bool.false_eq_true, ↓reduceIte]
    exact ⟨_, .done _ _ _⟩

/-! ### Steps -/

section Pools

variable {p : Pool interface State Call Outcome} {ts : List (Thread interface Call Outcome)}
  {i : Nat}

theorem Begins.step (h : Begins o s c s' stage) :
    ∃ past, (surroundings mayFail).Step (perform o) ⟨s, ts⟩
      ⟨s', ts ++ [⟨c, stage.process o, past, false⟩]⟩ := by
  obtain ⟨past, runs⟩ := h.runs []
  exact ⟨past, .begin (p := ⟨s, ts⟩) c runs⟩

theorem Moves.step (h : Moves o mayFail s stage s' stage') (stands : stage.isVacant = false)
    (here : ts[i]? = some ⟨c, stage.process o, past, false⟩) :
    ∃ past', (surroundings mayFail).Step (perform o) ⟨s, ts⟩
      ⟨s', ts.set i ⟨c, stage'.process o, past', false⟩⟩ := by
  obtain ⟨q, next, a, s₁, waits, answers, runs⟩ := h.comes stands
  obtain ⟨past', runs⟩ := runs (past ++ [⟨q, a⟩])
  have resumes : (surroundings mayFail).Resumes i q a ⟨s, ts⟩
      ⟨s', ts.set i ⟨c, stage'.process o, past', false⟩⟩ :=
    (Surroundings.resumes_iff here rfl waits).mpr ⟨s₁, s', _, past', answers, runs, rfl⟩
  exact ⟨past', .resume resumes⟩

/-- Steps of a pool, one after the other. -/
def Steps (o : OfflineSettings) (mayFail : Prop) :
    Pool interface State Call Outcome → Pool interface State Call Outcome → Prop :=
  Relation.ReflTransGen ((surroundings mayFail).Step (perform o))

theorem Steps.begins (steps : Steps o mayFail p ⟨s, ts⟩) (h : Begins o s c s' stage) :
    ∃ past, Steps o mayFail p ⟨s', ts ++ [⟨c, stage.process o, past, false⟩]⟩ := by
  obtain ⟨past, step⟩ := h.step
  exact ⟨past, steps.tail step⟩

theorem Steps.moves (steps : Steps o mayFail p ⟨s, ts⟩)
    (here : ts[i]? = some ⟨c, stage.process o, past, false⟩) (h : Moves o mayFail s stage s' stage')
    (stands : stage.isVacant = false) :
    ∃ past', Steps o mayFail p ⟨s', ts.set i ⟨c, stage'.process o, past', false⟩⟩ := by
  obtain ⟨past', step⟩ := h.step stands here
  exact ⟨past', steps.tail step⟩

end Pools

end ScreenFlow.OfflineQueue
