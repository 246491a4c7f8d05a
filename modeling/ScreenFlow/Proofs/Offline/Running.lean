import ScreenFlow.Proofs.Offline.Stages

/-!
# Calls of the queue side by side

What a call does between two stages does not depend on what others do, so a pool of calls is a crew:
a state, and the stage at which each call stands.

* `moves_of_runs`, `begins_of_runs`: what a call does after an answer is one of its moves;
* `exists_crew`: every reachable pool is a crew that has come about by moves.
-/

namespace ScreenFlow.OfflineQueue

/-! ### Questions with one answer -/

section Runs

variable {mayFail : Prop} {s s' : State} {past past' : List (Happening interface)}
  {r : Operation Outcome}

@[simp] theorem runs_takeTicket {next : Nat → Operation Outcome} :
    (surroundings mayFail).Runs s (.ask .takeTicket next) past s' r past' ↔
      (surroundings mayFail).Runs s.take (next s.queue.lock.next)
        (past ++ [⟨.takeTicket, s.queue.lock.next⟩]) s' r past' :=
  Surroundings.runs_determined (S := surroundings mayFail) (q := Ask.takeTicket) rfl fun _ _ => .rfl

@[simp] theorem runs_handBack {ticket : Nat} {next : Unit → Operation Outcome} :
    (surroundings mayFail).Runs s (.ask (.handBack ticket) next) past s' r past' ↔
      (surroundings mayFail).Runs (s.handBack ticket) (next ())
        (past ++ [⟨.handBack ticket, ()⟩]) s' r past' :=
  Surroundings.runs_determined (S := surroundings mayFail) (q := Ask.handBack ticket) rfl (a := ())
    fun _ _ => by simp [surroundings, Answers]

@[simp] theorem runs_lastStamp {next : Int → Operation Outcome} :
    (surroundings mayFail).Runs s (.ask .lastStamp next) past s' r past' ↔
      (surroundings mayFail).Runs s (next s.queue.lastStamp)
        (past ++ [⟨.lastStamp, s.queue.lastStamp⟩]) s' r past' :=
  Surroundings.runs_determined (S := surroundings mayFail) (q := Ask.lastStamp) rfl fun _ _ => .rfl

@[simp] theorem runs_setLastStamp {stamp : Int} {next : Unit → Operation Outcome} :
    (surroundings mayFail).Runs s (.ask (.setLastStamp stamp) next) past s' r past' ↔
      (surroundings mayFail).Runs (s.stamped stamp) (next ())
        (past ++ [⟨.setLastStamp stamp, ()⟩]) s' r past' :=
  Surroundings.runs_determined (S := surroundings mayFail) (q := Ask.setLastStamp stamp) rfl (a := ())
    fun _ _ => by simp [surroundings, Answers]

@[simp] theorem runs_startPass {next : Option Nat → Operation Outcome} :
    (surroundings mayFail).Runs s (.ask .startPass next) past s' r past' ↔
      (surroundings mayFail).Runs s.startPass (next s.queue.startPass.1)
        (past ++ [⟨.startPass, s.queue.startPass.1⟩]) s' r past' :=
  Surroundings.runs_determined (S := surroundings mayFail) (q := Ask.startPass) rfl fun _ _ => .rfl

@[simp] theorem runs_endPass {pass : Nat} {next : Unit → Operation Outcome} :
    (surroundings mayFail).Runs s (.ask (.endPass pass) next) past s' r past' ↔
      (surroundings mayFail).Runs (s.endPass pass) (next ())
        (past ++ [⟨.endPass pass, ()⟩]) s' r past' :=
  Surroundings.runs_determined (S := surroundings mayFail) (q := Ask.endPass pass) rfl (a := ())
    fun _ _ => by simp [surroundings, Answers]

@[simp] theorem runs_hasReplayer {next : Bool → Operation Outcome} :
    (surroundings mayFail).Runs s (.ask .hasReplayer next) past s' r past' ↔
      (surroundings mayFail).Runs s (next s.queue.hasReplayer)
        (past ++ [⟨.hasReplayer, s.queue.hasReplayer⟩]) s' r past' :=
  Surroundings.runs_determined (S := surroundings mayFail) (q := Ask.hasReplayer) rfl fun _ _ => .rfl

@[simp] theorem runs_progress {p : ReplayProgress} {next : Unit → Operation Outcome} :
    (surroundings mayFail).Runs s (.ask (.progress p) next) past s' r past' ↔
      (surroundings mayFail).Runs (s.tell p) (next ()) (past ++ [⟨.progress p, ()⟩]) s' r past' :=
  Surroundings.runs_determined (S := surroundings mayFail) (q := Ask.progress p) rfl (a := ())
    fun _ _ => by simp [surroundings, Answers]

@[simp] theorem runs_registerSync {tag : String} {next : Unit → Operation Outcome} :
    (surroundings mayFail).Runs s (.ask (.registerSync tag) next) past s' r past' ↔
      (surroundings mayFail).Runs s (next ()) (past ++ [⟨.registerSync tag, ()⟩]) s' r past' :=
  Surroundings.runs_determined (S := surroundings mayFail) (q := Ask.registerSync tag) rfl (a := ())
    fun _ _ => by simp [surroundings, Answers]

@[simp] theorem runs_switch {online : Bool} {next : Bool → Operation Outcome} :
    (surroundings mayFail).Runs s (.ask (.switch online) next) past s' r past' ↔
      (surroundings mayFail).Runs (s.switch online) (next s.queue.online)
        (past ++ [⟨.switch online, s.queue.online⟩]) s' r past' :=
  Surroundings.runs_determined (S := surroundings mayFail) (q := Ask.switch online) rfl fun _ _ => .rfl

@[simp] theorem runs_wallClock {next : Int → Operation Outcome} :
    (surroundings mayFail).Runs s (.ask .wallClock next) past s' r past' ↔
      ∃ now : Int, (surroundings mayFail).Runs s (next now) (past ++ [⟨.wallClock, now⟩]) s' r past' := by
  rw [Surroundings.runs_answered_iff rfl]
  constructor
  · rintro ⟨now, s₁, rfl, runs⟩
    exact ⟨now, runs⟩
  · rintro ⟨now, runs⟩
    exact ⟨now, s, rfl, runs⟩

end Runs

/-! ### From one stage to the next -/

section Steps

variable {o : OfflineSettings} {mayFail : Prop} {s s' : State}
  {past past' : List (Happening interface)} {r : Operation Outcome} {sec : Section} {ticket : Nat}

theorem runs_write {es : List OfflineEvent} :
    (surroundings mayFail).Runs s (sec.write o ticket es) past s' r past' ↔
      s' = s ∧ r = sec.write o ticket es ∧ past' = past := by
  cases es with
  | nil =>
    exact Surroundings.runs_suspended_iff (S := surroundings mayFail)
      (q := Ask.store (.delete o.queueKey)) rfl
  | cons e es =>
    exact Surroundings.runs_suspended_iff (S := surroundings mayFail)
      (q := Ask.store (.set o.queueKey (toText (e :: es)) none)) rfl

theorem runs_inside (hsec : sec ≠ .wipe) :
    (surroundings mayFail).Runs s (sec.inside o ticket) past s' r past' ↔
      s' = s ∧ r = sec.inside o ticket ∧ past' = past := by
  cases sec with
  | wipe => exact absurd rfl hsec
  | _ =>
    exact Surroundings.runs_suspended_iff (S := surroundings mayFail)
      (q := Ask.store (.get o.queueKey)) rfl

theorem stands_finished {outcome : Outcome} {sent : List OfflineEvent}
    (h : past.filterMap sentBy = sent) :
    (Stage.finished outcome sent).Stands o (.done outcome) past :=
  ⟨rfl, h, nofun, nofun⟩

/-- A section that fails leaves nothing behind. -/
theorem refused {f : OfflineError}
    (runs : (surroundings mayFail).Runs s (.ask (.handBack ticket) fun _ => sec.after o (.error f))
      past s' r past') (hsent : past.filterMap sentBy = sec.sent) :
    s' = sec.leave ticket s ∧ (Stage.finished (sec.refusal f) sec.sent).Stands o r past' := by
  cases sec <;> simp only [Section.after, ending, runs_handBack, runs_endPass,
    Surroundings.runs_done_iff, Except.map] at runs <;> obtain ⟨rfl, rfl, rfl⟩ := runs
  all_goals exact ⟨rfl, stands_finished (by simp [sentBy, hsent])⟩

theorem succeeded
    (runs : (surroundings mayFail).Runs s (.ask (.handBack ticket) fun _ => sec.after o (.ok ()))
      past s' r past') (hsent : past.filterMap sentBy = sec.sent) :
    s' = sec.leave ticket s ∧ (Stage.finished sec.success sec.sent).Stands o r past' := by
  cases sec <;> simp only [Section.after, ending, runs_handBack, runs_endPass, runs_registerSync,
    Surroundings.runs_done_iff, Except.map] at runs <;> obtain ⟨rfl, rfl, rfl⟩ := runs
  all_goals exact ⟨rfl, stands_finished (by simp [sentBy, hsent])⟩

theorem replayAll_bind_cons {total through : Nat} {e : OfflineEvent} {es : List OfflineEvent}
    {p : Pass} (k : Pass → Operation Outcome) :
    (replayAll o total through (e :: es) p).bind k =
      .ask (.replay e) fun r => .ask (.progress ⟨through + 1, total⟩) fun _ =>
        if !es.isEmpty && o.throttle != 0 then
          .ask (.pause o.throttle) fun _ =>
            (replayAll o total (through + 1) es (p.after r e)).bind k
        else (replayAll o total (through + 1) es (p.after r e)).bind k := by
  simp only [replayAll, Process.bind_def, ask, Process.call, Process.ask_bind, Process.done_bind]
  congr 1
  funext r
  congr 1
  funext _
  split <;> cases r <;> rfl

/-- What a call does after writing, or failing to. -/
theorem moves_of_writing {es : List OfflineEvent} {q : Ask} {next : Answer q → Operation Outcome}
    {a : Answer q} {s₁ : State} (writes : .ask q next = sec.write o ticket es)
    (hsent : past.filterMap sentBy = sec.sent) (ha : Answers mayFail s q a s₁)
    (runs : (surroundings mayFail).Runs s₁ (next a) (past ++ [⟨q, a⟩]) s' r past') :
    ∃ stage, Moves o mayFail s (.writing sec ticket es) s' stage ∧ stage.Stands o r past' := by
  cases es with
  | nil =>
    obtain ⟨rfl, hnext⟩ := Process.ask.inj writes
    cases hnext
    rcases ha with ⟨rfl, rfl⟩ | ⟨hf, ⟨f, rfl⟩, rfl⟩
    · obtain ⟨rfl, stands⟩ := succeeded runs (by simp [sentBy, hsent])
      exact ⟨_, .written, stands⟩
    · obtain ⟨rfl, stands⟩ := refused runs (by simp [sentBy, hsent])
      exact ⟨_, .unwritten hf, stands⟩
  | cons e es =>
    obtain ⟨rfl, hnext⟩ := Process.ask.inj writes
    cases hnext
    rcases ha with ⟨rfl, rfl⟩ | ⟨hf, ⟨f, rfl⟩, rfl⟩
    · obtain ⟨rfl, stands⟩ := succeeded runs (by simp [sentBy, hsent])
      exact ⟨_, .written, stands⟩
    · obtain ⟨rfl, stands⟩ := refused runs (by simp [sentBy, hsent])
      exact ⟨_, .unwritten hf, stands⟩

/-- A section that cannot read the queue is over, and one that can goes on with what it has read. -/
theorem read_answered {proceed : List OfflineEvent → Operation Outcome} {q : Ask}
    {next : Answer q → Operation Outcome} {a : Answer q} {s₁ : State}
    (asks : .ask q next = sec.read o ticket proceed) (hsent : past.filterMap sentBy = sec.sent)
    (ha : Answers mayFail s q a s₁)
    (runs : (surroundings mayFail).Runs s₁ (next a) (past ++ [⟨q, a⟩]) s' r past') :
    (∃ f, s.Reads o mayFail (.error f) ∧ s' = sec.leave ticket s ∧
      (Stage.finished (sec.refusal f) sec.sent).Stands o r past') ∨
    ∃ queued past₁, s.Reads o mayFail (.ok queued) ∧
      (surroundings mayFail).Runs s (proceed queued) past₁ s' r past' ∧
      past₁.filterMap sentBy = sec.sent ∧ past₁.filterMap undoOf = past.filterMap undoOf := by
  obtain ⟨rfl, hnext⟩ := Process.ask.inj asks
  cases hnext
  obtain ⟨rfl, ha⟩ := ha
  have reads : s₁.Reads o mayFail (queueOf a) := by
    rcases ha with rfl | ⟨hf, f, rfl⟩
    · exact .inl rfl
    · exact .inr ⟨hf, f, rfl⟩
  cases hq : queueOf a with
  | error f =>
    simp only [hq] at runs reads
    obtain ⟨rfl, stands⟩ := refused runs (by simp [sentBy, hsent])
    exact .inl ⟨f, reads, rfl, stands⟩
  | ok queued =>
    simp only [hq] at runs reads
    exact .inr ⟨queued, _, reads, runs, by simp [sentBy, hsent], by simp [undoOf, surroundings]⟩

/-- What a call does after it has asked for the queue. -/
theorem moves_of_reading {q : Ask} {next : Answer q → Operation Outcome} {a : Answer q} {s₁ : State}
    (stands : (Stage.reading sec ticket).Stands o (.ask q next) past)
    (ha : Answers mayFail s q a s₁)
    (runs : (surroundings mayFail).Runs s₁ (next a) (past ++ [⟨q, a⟩]) s' r past') :
    ∃ stage, Moves o mayFail s (.reading sec ticket) s' stage ∧ stage.Stands o r past' := by
  have hundos := stands.undos rfl
  cases sec with
  | wipe => exact absurd rfl (stands.reads ticket)
  | append e =>
    rcases read_answered stands.process stands.sent ha runs with
      ⟨f, reads, rfl, finished⟩ | ⟨queued, past₁, reads, runs, hsent₁, hundos₁⟩
    · exact ⟨_, .unreadable reads, finished⟩
    · simp only [runs_wallClock, runs_lastStamp, runs_setLastStamp, runs_write] at runs
      obtain ⟨now, rfl, rfl, rfl⟩ := runs
      refine ⟨_, .append reads now, rfl, ?_, ?_, fun _ => Stage.noConfusion⟩
      · simp [sentBy, hsent₁, Stage.sent]
      · simp [undoOf, hundos₁, hundos, Stage.undos, surroundings]
  | snapshot pass =>
    rcases read_answered stands.process stands.sent ha runs with
      ⟨f, reads, rfl, finished⟩ | ⟨queued, past₁, reads, runs, hsent₁, hundos₁⟩
    · exact ⟨_, .unreadable reads, finished⟩
    · cases queued with
      | nil =>
        simp only [runs_handBack, runs_progress, List.isEmpty_nil, ↓reduceIte, ending,
          runs_endPass, Surroundings.runs_done_iff] at runs
        obtain ⟨rfl, rfl, rfl⟩ := runs
        exact ⟨_, .nothing reads, stands_finished (by simp [sentBy, hsent₁, Section.sent])⟩
      | cons e es =>
        simp only [runs_handBack, runs_progress, List.isEmpty_cons, Bool.false_eq_true, ↓reduceIte,
          replayAll_bind_cons] at runs
        rw [Surroundings.runs_suspended_iff rfl] at runs
        obtain ⟨rfl, rfl, rfl⟩ := runs
        refine ⟨_, .snapshot reads, (replayAll_bind_cons _).symm, ?_, ?_,
          fun _ => Stage.noConfusion⟩
        · simp [sentBy, hsent₁, Stage.sent, Section.sent]
        · simp [undoOf, hundos₁, hundos, Stage.undos, surroundings, Section.undos]
  | merge pass used seen sent p =>
    rcases read_answered stands.process stands.sent ha runs with
      ⟨f, reads, rfl, finished⟩ | ⟨queued, past₁, reads, runs, hsent₁, hundos₁⟩
    · exact ⟨_, .unreadable reads, finished⟩
    · obtain ⟨rfl, rfl, rfl⟩ := runs_write.mp runs
      exact ⟨_, .merge reads, rfl, hsent₁, fun _ => hundos₁.trans hundos,
        fun _ => Stage.noConfusion⟩

theorem filterMap_sentBy_replay {e : OfflineEvent} {a : Except Fault Unit}
    {sent : List OfflineEvent} (hsent : past.filterMap sentBy = sent) :
    List.filterMap sentBy (past ++ [⟨.replay e, a⟩]) = sentAfter a e sent := by
  cases a <;> simp [sentBy, sentAfter, hsent]

/-- What a pass does after one of its events has been replayed. -/
theorem moves_of_replaying {pass used through : Nat} {seen sent es : List OfflineEvent}
    {e : OfflineEvent} {p : Pass} {q : Ask} {next : Answer q → Operation Outcome} {a : Answer q}
    {s₁ : State}
    (stands : (Stage.replaying pass used seen sent through e es p).Stands o (.ask q next) past)
    (ha : Answers mayFail s q a s₁)
    (runs : (surroundings mayFail).Runs s₁ (next a) (past ++ [⟨q, a⟩]) s' r past') :
    ∃ stage, Moves o mayFail s (.replaying pass used seen sent through e es p) s' stage ∧
      stage.Stands o r past' := by
  have hundos := stands.undos rfl
  obtain ⟨rfl, hnext⟩ := Process.ask.inj (stands.process.trans (replayAll_bind_cons _))
  cases hnext
  obtain rfl : s₁ = s := ha
  have hsent := filterMap_sentBy_replay (e := e) (a := a) stands.sent
  simp only [runs_progress] at runs
  cases es with
  | nil =>
    simp only [List.isEmpty_nil, Bool.not_true, Bool.false_and, Bool.false_eq_true, ↓reduceIte,
      replayAll, Process.pure_def, Process.done_bind, merging, runs_takeTicket] at runs
    rw [Surroundings.runs_suspended_iff rfl] at runs
    obtain ⟨rfl, rfl, rfl⟩ := runs
    refine ⟨_, .through a, rfl, ?_, fun _ => ?_, fun _ => Stage.noConfusion⟩
    · rw [List.filterMap_append, List.filterMap_append, hsent]
      simp [sentBy, Stage.sent, Section.sent]
    · rw [List.append_assoc, List.append_assoc, List.filterMap_append, hundos]
      rfl
  | cons e' es =>
    by_cases hthrottle : o.throttle = 0
    · simp only [List.isEmpty_cons, Bool.not_false, Bool.true_and, hthrottle, bne_self_eq_false,
        Bool.false_eq_true, ↓reduceIte, replayAll_bind_cons] at runs
      rw [Surroundings.runs_suspended_iff rfl] at runs
      obtain ⟨rfl, rfl, rfl⟩ := runs
      refine ⟨_, .replayed a hthrottle, ?_, ?_, ?_, fun _ => Stage.noConfusion⟩
      · simp only [Stage.process, replayAll_bind_cons, hthrottle, bne_self_eq_false, Bool.and_false,
          Bool.false_eq_true, ↓reduceIte]
      · rw [List.filterMap_append, hsent]
        simp [sentBy, Stage.sent]
      · simp [undoOf, hundos, Stage.undos, surroundings]
    · have hrest : (o.throttle != 0) = true := by simpa using hthrottle
      simp only [List.isEmpty_cons, Bool.not_false, Bool.true_and, hrest, ↓reduceIte] at runs
      rw [Surroundings.runs_suspended_iff rfl] at runs
      obtain ⟨rfl, rfl, rfl⟩ := runs
      refine ⟨_, .resting a hthrottle, rfl, ?_, ?_, fun _ => Stage.noConfusion⟩
      · rw [List.filterMap_append, hsent]
        simp [sentBy, Stage.sent]
      · simp [undoOf, hundos, Stage.undos, surroundings]

/-- Whatever a call does after an answer is one of its moves. -/
theorem moves_of_runs {stage : Stage} {q : Ask} {next : Answer q → Operation Outcome} {a : Answer q}
    {s₁ : State} (stands : stage.Stands o (.ask q next) past) (ha : Answers mayFail s q a s₁)
    (runs : (surroundings mayFail).Runs s₁ (next a) (past ++ [⟨q, a⟩]) s' r past') :
    ∃ stage', Moves o mayFail s stage s' stage' ∧ stage'.Stands o r past' := by
  cases stage with
  | finished => cases stands.process
  | reading sec ticket => exact moves_of_reading stands ha runs
  | writing sec ticket es => exact moves_of_writing stands.process stands.sent ha runs
  | replaying pass used seen sent through e es p => exact moves_of_replaying stands ha runs
  | pausing pass used seen sent through e es p =>
    obtain ⟨rfl, hnext⟩ := Process.ask.inj stands.process
    cases hnext
    obtain rfl : s₁ = s := ha
    simp only [replayAll_bind_cons] at runs
    rw [Surroundings.runs_suspended_iff rfl] at runs
    obtain ⟨rfl, rfl, rfl⟩ := runs
    refine ⟨_, .paused, (replayAll_bind_cons _).symm, ?_, fun h => ?_,
      fun _ => Stage.noConfusion⟩
    · simp [sentBy, stands.sent, Stage.sent]
    · simp [undoOf, surroundings, stands.undos rfl, Stage.undos]
  | waiting sec ticket =>
    obtain ⟨rfl, hnext⟩ := Process.ask.inj stands.process
    cases hnext
    obtain ⟨turn, rfl⟩ := ha
    have hsent : List.filterMap sentBy (past ++ [⟨.turn ticket, a⟩]) = sec.sent := by
      simp [sentBy, stands.sent, Stage.sent]
    have hundos : List.filterMap undoOf (past ++ [⟨.turn ticket, a⟩]) = sec.undos ticket := by
      simp [undoOf, surroundings, stands.undos rfl, Stage.undos]
    by_cases hsec : sec = .wipe
    · subst hsec
      obtain ⟨rfl, rfl, rfl⟩ := runs_write.mp runs
      exact ⟨_, .wipe turn, rfl, hsent, fun _ => hundos, fun _ => Stage.noConfusion⟩
    · obtain ⟨rfl, rfl, rfl⟩ := (runs_inside hsec).mp runs
      refine ⟨_, .enter turn hsec, rfl, hsent, fun _ => hundos, ?_⟩
      rintro _ ⟨⟩
      exact hsec rfl

/-- Whatever a call of `replay` does up to its first stage is one of its beginnings. -/
theorem begins_of_replay (hsent : past.filterMap sentBy = []) (hundos : past.filterMap undoOf = [])
    (runs : (surroundings mayFail).Runs s (perform o .replay) past s' r past') :
    ∃ stage, Begins o s .replay s' stage ∧ stage.Stands o r past' := by
  rw [perform_replay, runs_startPass] at runs
  cases hrunning : s.queue.running with
  | some n =>
    obtain ⟨refused, unchanged⟩ := State.startPass_of_busy hrunning
    simp only [refused, unchanged, Surroundings.runs_done_iff] at runs
    obtain ⟨rfl, rfl, rfl⟩ := runs
    exact ⟨_, .busy hrunning, stands_finished (by simp [sentBy, hsent])⟩
  | none =>
    obtain ⟨number, started⟩ := State.startPass_of_free hrunning
    have replayer : s.startPass.queue.hasReplayer = s.queue.hasReplayer := by rw [started]; rfl
    have lock : s.startPass.queue.lock = s.queue.lock := by rw [started]
    simp only [number, runs_hasReplayer, replayer] at runs
    cases there : s.queue.hasReplayer with
    | false =>
      simp only [there, Bool.false_eq_true, ↓reduceIte, ending, runs_endPass,
        Surroundings.runs_done_iff] at runs
      obtain ⟨rfl, rfl, rfl⟩ := runs
      exact ⟨_, .noReplayer hrunning there, stands_finished (by simp [sentBy, hsent])⟩
    | true =>
      simp only [there, ↓reduceIte, runs_takeTicket, lock, Stage.process] at runs
      rw [Surroundings.runs_suspended_iff rfl] at runs
      obtain ⟨rfl, rfl, rfl⟩ := runs
      refine ⟨_, .pass hrunning there, by rw [Stage.process, lock], ?_, fun _ => ?_,
        fun _ => Stage.noConfusion⟩
      · simp [sentBy, hsent, Stage.sent, Section.sent]
      · simp only [List.append_assoc, List.filterMap_append, hundos, List.nil_append]
        rfl

/-- Whatever a call does up to its first stage is one of its beginnings. -/
theorem begins_of_runs {c : Call} (runs : (surroundings mayFail).Runs s (perform o c) [] s' r past') :
    ∃ stage, Begins o s c s' stage ∧ stage.Stands o r past' := by
  cases c with
  | enqueue e =>
    rw [perform_enqueue, runs_takeTicket, Stage.process, Surroundings.runs_suspended_iff rfl] at runs
    obtain ⟨rfl, rfl, rfl⟩ := runs
    exact ⟨_, .enqueue e, rfl, rfl, fun _ => rfl, fun _ => Stage.noConfusion⟩
  | clear =>
    rw [perform_clear, runs_takeTicket, Stage.process, Surroundings.runs_suspended_iff rfl] at runs
    obtain ⟨rfl, rfl, rfl⟩ := runs
    exact ⟨_, .clear, rfl, rfl, fun _ => rfl, fun _ => Stage.noConfusion⟩
  | replay => exact begins_of_replay rfl rfl runs
  | setOnline online =>
    rw [perform_setOnline, runs_switch] at runs
    cases back : online && !s.queue.online && o.replayOnReconnect with
    | true =>
      simp only [back, ↓reduceIte] at runs
      obtain ⟨stage, replays, stands⟩ := begins_of_replay rfl rfl runs
      exact ⟨stage, .back back replays, stands⟩
    | false =>
      simp only [back, Bool.false_eq_true, ↓reduceIte, Surroundings.runs_done_iff] at runs
      obtain ⟨rfl, rfl, rfl⟩ := runs
      exact ⟨_, .switched back, stands_finished rfl⟩

end Steps

/-! ### Crews -/

/-- A call with its stage. -/
structure Worker where
  call : Call
  stage : Stage
  gone : Bool := false

structure Crew where
  state : State
  workers : List Worker

/-- The state when a call is abandoned at this stage. -/
def Stage.undone (stage : Stage) (s : State) : State := stage.undos.foldr (fun u s => u s) s

/-- One call begins, goes on to its next stage, or is abandoned. -/
inductive Crew.Step (o : OfflineSettings) (mayFail : Prop) : Crew → Crew → Prop
  | begin {s s' : State} {ws c stage} (h : Begins o s c s' stage) :
      Step o mayFail ⟨s, ws⟩ ⟨s', ws ++ [⟨c, stage, false⟩]⟩
  | move {s s' : State} {before after c stage stage'} (h : Moves o mayFail s stage s' stage') :
      Step o mayFail ⟨s, before ++ ⟨c, stage, false⟩ :: after⟩
        ⟨s', before ++ ⟨c, stage', false⟩ :: after⟩
  | leave {s : State} {before after c stage} (busy : stage.isFinished = false) :
      Step o mayFail ⟨s, before ++ ⟨c, stage, false⟩ :: after⟩
        ⟨stage.undone s, before ++ ⟨c, stage, true⟩ :: after⟩

def Crew.Reachable (o : OfflineSettings) (mayFail : Prop) (s₀ : State) (k : Crew) : Prop :=
  Relation.ReflTransGen (Crew.Step o mayFail) ⟨s₀, []⟩ k

structure Worker.Describes (o : OfflineSettings) (w : Worker) (t : Thread interface Call Outcome) :
    Prop where
  call : t.call = w.call
  gone : t.abandoned = w.gone
  stands : w.stage.Stands o t.process t.past

/-- A call that waits is not at its end, and what it holds is undone when it is abandoned. -/
theorem Stage.Stands.undone {o : OfflineSettings} {stage : Stage} {q : Ask}
    {next : Answer q → Operation Outcome} {past : List (Happening interface)}
    (h : stage.Stands o (.ask q next) past) (mayFail : Prop) (s : State) :
    stage.isFinished = false ∧ (surroundings mayFail).undone past s = stage.undone s := by
  have busy : stage.isFinished = false := by
    cases stage with
    | finished => cases h.process
    | _ => rfl
  exact ⟨busy, congrArg (·.foldr (fun u s => u s) s) (h.undos busy)⟩

theorem Crew.Step.moveAt {o : OfflineSettings} {mayFail : Prop} {s s' : State} {ws : List Worker}
    {i : Nat} {c : Call} {stage stage' : Stage} (there : ws[i]? = some ⟨c, stage, false⟩)
    (h : Moves o mayFail s stage s' stage') :
    Crew.Step o mayFail ⟨s, ws⟩ ⟨s', ws.set i ⟨c, stage', false⟩⟩ := by
  obtain ⟨split, replaced⟩ := set_split there
  rw [replaced]
  conv_lhs => rw [split]
  exact .move h

theorem Crew.Step.leaveAt {o : OfflineSettings} {mayFail : Prop} {s : State} {ws : List Worker}
    {i : Nat} {c : Call} {stage : Stage} (there : ws[i]? = some ⟨c, stage, false⟩)
    (busy : stage.isFinished = false) :
    Crew.Step o mayFail ⟨s, ws⟩ ⟨stage.undone s, ws.set i ⟨c, stage, true⟩⟩ := by
  obtain ⟨split, replaced⟩ := set_split there
  rw [replaced]
  conv_lhs => rw [split]
  exact .leave busy

end ScreenFlow.OfflineQueue
