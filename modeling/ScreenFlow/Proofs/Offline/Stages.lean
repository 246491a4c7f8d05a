import ScreenFlow.Proofs.Process.Interleaving
import ScreenFlow.Simulation.Queueing

/-!
# The stages of a call of the queue

A call of the queue waits for its turn, for the store, for the replay of an event, or for a pause to
end. Where it waits is its stage.

* `Stage.process`: the rest of a call that stands at a stage;
* `perform_enqueue`, `perform_clear`, `perform_replay`, `perform_setOnline`: each call up to its first
  stage;
* `Begins` and `Moves`: all that a call can do up to its first stage, and from one to the next.
-/

namespace ScreenFlow.OfflineQueue

open Simulation (QueuePart World Replaying answerQueue undoQueue)

inductive Call where
  | enqueue (e : OfflineEvent)
  | clear
  | replay
  | setOnline (online : Bool)

inductive Outcome where
  | queued (r : Except OfflineError String)
  | cleared (r : Except OfflineError Unit)
  | replayed (r : Except OfflineError (Option ReplayReport))

def perform (o : OfflineSettings) : Call → Operation Outcome
  | .enqueue e => do return .queued (← enqueue o e)
  | .clear => do return .cleared (← clear o)
  | .replay => do return .replayed (← replay o)
  | .setOnline online => do return .replayed (← setOnline o online)

/-- The queue in memory, and what is stored. -/
structure State where
  queue : QueuePart
  stored : String → Option String

namespace State

def take (s : State) : State := { s with queue := { s.queue with lock := s.queue.lock.take.2 } }

def handBack (s : State) (ticket : Nat) : State :=
  { s with queue := { s.queue with lock := s.queue.lock.handBack ticket } }

def startPass (s : State) : State := { s with queue := s.queue.startPass.2 }

def endPass (s : State) (pass : Nat) : State := { s with queue := s.queue.endPass pass }

def stamped (s : State) (stamp : Int) : State :=
  { s with queue := { s.queue with lastStamp := stamp } }

def tell (s : State) (p : ReplayProgress) : State :=
  { s with queue := { s.queue with progress := s.queue.progress.send p } }

def switch (s : State) (online : Bool) : State := { s with queue := { s.queue with online } }

def put (s : State) (key : String) (text : Option String) : State :=
  { s with stored := fun k => if k = key then text else s.stored k }

@[simp] theorem endPass_lock (s : State) (pass : Nat) :
    (s.endPass pass).queue.lock = s.queue.lock := by
  simp only [endPass, QueuePart.endPass]
  split <;> rfl

theorem startPass_of_busy {s : State} {n : Nat} (h : s.queue.running = some n) :
    s.queue.startPass.1 = none ∧ s.startPass = s := by
  simp [startPass, QueuePart.startPass, h]

theorem startPass_of_free {s : State} (h : s.queue.running = none) :
    s.queue.startPass.1 = some s.queue.passes ∧
      s.startPass = { s with queue := { s.queue with
        running := some s.queue.passes, passes := s.queue.passes + 1 } } := by
  simp [startPass, QueuePart.startPass, h]

end State

/-- What a store answers, and what is stored then. One that fails leaves everything as it is. -/
def StoreAnswers (mayFail : Prop) (s : State) : (q : Store.Ask) → Store.Answer q → State → Prop
  | .get key, a, s' => s' = s ∧ (a = .ok (s.stored key) ∨ mayFail ∧ ∃ e, a = .error e)
  | .set key text _, a, s' =>
    a = .ok () ∧ s' = s.put key text ∨ mayFail ∧ (∃ e, a = .error e) ∧ s' = s
  | .delete key, a, s' =>
    a = .ok (s.stored key).isSome ∧ s' = s.put key none ∨ mayFail ∧ (∃ e, a = .error e) ∧ s' = s
  | .keys _, _, s' => s' = s
  | .isAvailable, _, s' => s' = s

/-- Which answers a question may get. The clock and whoever replays answer what they like. -/
def Answers (mayFail : Prop) (s : State) : (q : Ask) → Answer q → State → Prop
  | .store q, a, s' => StoreAnswers mayFail s q a s'
  | .takeTicket, a, s' => a = s.queue.lock.next ∧ s' = s.take
  | .turn ticket, _, s' => s.queue.lock.hasTurn ticket = true ∧ s' = s
  | .handBack ticket, _, s' => s' = s.handBack ticket
  | .lastStamp, a, s' => a = s.queue.lastStamp ∧ s' = s
  | .setLastStamp stamp, _, s' => s' = s.stamped stamp
  | .startPass, a, s' => a = s.queue.startPass.1 ∧ s' = s.startPass
  | .endPass pass, _, s' => s' = s.endPass pass
  | .hasReplayer, a, s' => a = s.queue.hasReplayer ∧ s' = s
  | .progress p, _, s' => s' = s.tell p
  | .switch online, a, s' => a = s.queue.online ∧ s' = s.switch online
  | .wallClock, _, s' | .replay _, _, s' | .pause _, _, s' | .registerSync _, _, s' => s' = s

/-- Others go on while a call waits for its turn, the store, a replay or the end of a pause. An
abandoned call hands its ticket back, and its pass ends. -/
def surroundings (mayFail : Prop) : Surroundings interface State where
  suspends
    | .store _ | .turn _ | .replay _ | .pause _ => true
    | _ => false
  answers := Answers mayFail
  undo
    | .takeTicket, ticket => some (·.handBack ticket)
    | .startPass, some pass => some (·.endPass pass)
    | _, _ => none

/-- What a world with a queue answers at once is an answer that the queue may get. -/
theorem answers_of_world {replay : Replaying} {w : World} {part : QueuePart}
    (hw : w.queue = some part) (stored : String → Option String) {q : Ask}
    (hq : (surroundings False).suspends q = false) :
    ∃ a w' part', (answerQueue replay q).run w = (w', .done a) ∧ w'.queue = some part' ∧
      Answers False ⟨part, stored⟩ q a ⟨part', stored⟩ := by
  cases q with
  | store | turn | replay | pause => cases hq
  | takeTicket =>
    refine ⟨part.lock.next, { w with queue := some { part with lock := part.lock.take.2 } }, _, ?_,
      rfl, rfl, rfl⟩
    simp [answerQueue, Task.modifyGet, Task.run, hw, Turnstile.take]
  | startPass =>
    refine ⟨part.startPass.1, { w with queue := some part.startPass.2 }, _, ?_, rfl, rfl, rfl⟩
    simp [answerQueue, Task.modifyGet, Task.run, hw]
  | switch online =>
    refine ⟨part.online, { w with queue := some { part with online } }, _, ?_, rfl, rfl, rfl⟩
    simp [answerQueue, Task.modifyGet, Task.run, hw, World.modifyQueue]
  | handBack | setLastStamp | endPass | progress =>
    simp [answerQueue, Task.modify, Task.run, World.modifyQueue, hw, Answers, State.handBack,
      State.stamped, State.endPass, State.tell]
  | registerSync tag =>
    simp [answerQueue, Task.modify, Task.run, World.note, hw, Answers]
  | lastStamp =>
    refine ⟨part.lastStamp, w, part, ?_, hw, rfl, rfl⟩
    simp [answerQueue, Task.read, Task.run, hw]
  | hasReplayer =>
    refine ⟨part.hasReplayer, w, part, ?_, hw, rfl, rfl⟩
    simp [answerQueue, Task.read, Task.run, hw]
  | wallClock => exact ⟨w.wallClock, w, part, rfl, hw, rfl⟩

/-- What a world undoes is undone in the queue. -/
theorem undo_of_world {w : World} {part : QueuePart} (hw : w.queue = some part)
    (stored : String → Option String) {q : Ask} {a : Answer q} {u : State → State}
    (hu : (surroundings False).undo q a = some u) :
    ∃ v part', undoQueue q a = some v ∧ (v w).queue = some part' ∧
      u ⟨part, stored⟩ = ⟨part', stored⟩ := by
  cases q with
  | takeTicket =>
    obtain rfl := Option.some.inj hu
    exact ⟨_, _, rfl, by simp [World.modifyQueue, hw], rfl⟩
  | startPass =>
    cases a with
    | none => cases hu
    | some pass =>
      obtain rfl := Option.some.inj hu
      exact ⟨_, _, rfl, by simp [World.modifyQueue, hw], rfl⟩
  | _ => cases hu

/-! ### Stages -/

/-- What is done while one has the turn. The last two belong to a pass: its number, the ticket that
it has used already, what it has read, and what became of it. -/
inductive Section where
  | append (e : OfflineEvent)
  | wipe
  | snapshot (pass : Nat)
  | merge (pass ticket : Nat) (seen sent : List OfflineEvent) (p : Pass)

/-- Where a call waits. -/
inductive Stage where
  | waiting (sec : Section) (ticket : Nat)
  | reading (sec : Section) (ticket : Nat)
  | writing (sec : Section) (ticket : Nat) (es : List OfflineEvent)
  | replaying (pass ticket : Nat) (seen sent : List OfflineEvent) (through : Nat)
      (e : OfflineEvent) (es : List OfflineEvent) (p : Pass)
  | pausing (pass ticket : Nat) (seen sent : List OfflineEvent) (through : Nat)
      (e : OfflineEvent) (es : List OfflineEvent) (p : Pass)
  | finished (outcome : Outcome) (sent : List OfflineEvent)

/-- What a call comes to when its section cannot read the queue or write it. -/
def Section.refusal (f : OfflineError) : Section → Outcome
  | .append _ => .queued (.error f)
  | .wipe => .cleared (.error f)
  | .snapshot _ | .merge .. => .replayed (.error f)

/-- What a call comes to when its section has written the queue. -/
def Section.success : Section → Outcome
  | .append e => .queued (.ok e.id)
  | .wipe => .cleared (.ok ())
  | .snapshot _ => .replayed (.ok (some {}))
  | .merge _ _ _ _ p => .replayed (.ok (some p.report))

/-- The events that the pass of the section has replayed with success. -/
def Section.sent : Section → List OfflineEvent
  | .merge _ _ _ sent _ => sent
  | _ => []

/-- What the last section of a call leaves behind: no turn and no pass. -/
def Section.leave (sec : Section) (ticket : Nat) (s : State) : State :=
  match sec with
  | .append _ | .wipe => s.handBack ticket
  | .snapshot pass | .merge pass .. => (s.handBack ticket).endPass pass

@[simp] theorem Section.leave_lock (sec : Section) (ticket : Nat) (s : State) :
    (sec.leave ticket s).queue.lock = s.queue.lock.handBack ticket := by
  cases sec <;> simp [Section.leave, State.handBack]

@[simp] theorem Section.leave_stored (sec : Section) (ticket : Nat) (s : State) :
    (sec.leave ticket s).stored = s.stored := by
  cases sec <;> rfl

/-! ### Processes of stages -/

section Processes

variable (o : OfflineSettings)

/-- How a pass ends. -/
def ending (pass : Nat) (r : Except OfflineError ReplayReport) : Operation Outcome :=
  .ask (.endPass pass) fun _ => .done (.replayed (r.map some))

/-- What follows when a section has written the queue, or could not. -/
def Section.after (r : Except OfflineError Unit) : Section → Operation Outcome
  | .append e =>
    match r with
    | .error f => .done (.queued (.error f))
    | .ok () => .ask (.registerSync o.syncTag) fun _ => .done (.queued (.ok e.id))
  | .wipe => .done (.cleared r)
  | .snapshot pass => ending pass (r.map fun _ => {})
  | .merge pass _ _ _ p => ending pass (r.map fun _ => p.report)

/-- Writing back, and what follows. -/
def Section.write (sec : Section) (ticket : Nat) (es : List OfflineEvent) : Operation Outcome :=
  (save o es).bind fun r => .ask (.handBack ticket) fun _ => sec.after o r

/-- What was got of the store as a queue. -/
def queueOf : Except StoreError (Option String) → Except OfflineError (List OfflineEvent)
  | .error e => .error (.store e)
  | .ok none => .ok []
  | .ok (some text) => ofText text

/-- Reading the queue, and what follows. -/
def Section.read (sec : Section) (ticket : Nat) (proceed : List OfflineEvent → Operation Outcome) :
    Operation Outcome :=
  .ask (.store (.get o.queueKey)) fun got =>
    match queueOf got with
    | .error f => .ask (.handBack ticket) fun _ => sec.after o (.error f)
    | .ok queued => proceed queued

/-- Merging what is left of a pass into the queue. -/
def Section.mergeInto (sec : Section) (ticket : Nat) (seen failed : List OfflineEvent) :
    Operation Outcome :=
  sec.read o ticket fun queued => sec.write o ticket (remaining seen failed queued)

/-- What follows when every event of a pass has been replayed. -/
def merging (pass : Nat) (seen : List OfflineEvent) (p : Pass) : Operation Outcome :=
  .ask .takeTicket fun ticket => .ask (.turn ticket) fun _ =>
    (Section.merge pass 0 seen [] p).mergeInto o ticket seen p.failed

/-- What is done from the beginning of a turn on. -/
def Section.inside (ticket : Nat) : Section → Operation Outcome
  | .append e =>
    (Section.append e).read o ticket fun queued =>
      .ask .wallClock fun now => .ask .lastStamp fun last =>
        .ask (.setLastStamp (nextStamp now last queued)) fun _ =>
          (Section.append e).write o ticket
            (queued ++ [{ e with createdAt := nextStamp now last queued }])
  | .wipe => Section.wipe.write o ticket []
  | .snapshot pass =>
    (Section.snapshot pass).read o ticket fun seen =>
      .ask (.handBack ticket) fun _ => .ask (.progress ⟨0, seen.length⟩) fun _ =>
        if seen.isEmpty then ending pass (.ok {})
        else (replayAll o seen.length 0 seen {}).bind (merging o pass seen)
  | .merge pass used seen sent p =>
    (Section.merge pass used seen sent p).mergeInto o ticket seen p.failed

def Stage.process : Stage → Operation Outcome
  | .waiting sec ticket => .ask (.turn ticket) fun _ => sec.inside o ticket
  | .reading sec ticket => sec.inside o ticket
  | .writing sec ticket es => sec.write o ticket es
  | .replaying pass _ seen _ through e es p =>
    (replayAll o seen.length through (e :: es) p).bind (merging o pass seen)
  | .pausing pass _ seen _ through e es p =>
    .ask (.pause o.throttle) fun _ =>
      (replayAll o seen.length through (e :: es) p).bind (merging o pass seen)
  | .finished outcome _ => .done outcome

/-! ### The calls -/

theorem load_bind {α : Type} (k : Except OfflineError (List OfflineEvent) → Operation α) :
    (load o).bind k = .ask (.store (.get o.queueKey)) fun got => k (queueOf got) := by
  simp only [load, Process.bind_def, ask, Process.call, Process.ask_bind, Process.done_bind]
  congr 1
  funext got
  rcases got with _ | _ | _ <;> rfl

theorem perform_enqueue (e : OfflineEvent) :
    perform o (.enqueue e) =
      .ask .takeTicket fun ticket => (Stage.waiting (.append e) ticket).process o := by
  simp only [perform, enqueue, exclusively, append, Process.bind_def, Process.bind_assoc, ask,
    Process.call, Process.ask_bind, Process.done_bind, load_bind, Stage.process, Section.inside,
    Section.read]
  congr 1
  funext ticket
  congr 1
  funext _
  congr 1
  funext got
  cases queueOf got with
  | error f => rfl
  | ok queued =>
    simp only [Process.ask_bind, Section.write, Process.bind_assoc]
    congr 1
    funext now
    congr 1
    funext last
    congr 1
    funext _
    congr 1
    funext r
    cases r <;> rfl

theorem perform_clear :
    perform o .clear = .ask .takeTicket fun ticket => (Stage.waiting .wipe ticket).process o := by
  simp only [perform, clear, exclusively, Process.bind_def, Process.bind_assoc, ask, Process.call,
    Process.ask_bind, Process.done_bind, Process.pure_def, Stage.process, Section.inside,
    Section.write]
  rfl

theorem conclude_bind {seen : List OfflineEvent} {p : Pass} (pass : Nat) :
    ((conclude o seen p).bind fun r => ending pass r) = merging o pass seen p := by
  simp only [conclude, exclusively, Process.bind_def, Process.bind_assoc, ask, Process.call,
    Process.ask_bind, Process.done_bind, Process.pure_def, load_bind, merging, Section.mergeInto,
    Section.read]
  congr 1
  funext ticket
  congr 1
  funext _
  congr 1
  funext got
  cases queueOf got with
  | error f => rfl
  | ok queued =>
    simp only [Section.write, Process.bind_assoc]
    congr 1
    funext r
    cases r <;> rfl

theorem perform_replay :
    perform o .replay =
      .ask .startPass fun started =>
        match started with
        | none => .done (.replayed (.ok none))
        | some pass =>
          .ask .hasReplayer fun there =>
            if there then
              .ask .takeTicket fun ticket => (Stage.waiting (.snapshot pass) ticket).process o
            else ending pass (.error .noExecutor) := by
  simp only [perform, replay, pass, Process.bind_def, ask, Process.call, Process.ask_bind,
    Process.done_bind, Process.pure_def]
  congr 1
  funext started
  cases started with
  | none => rfl
  | some n =>
    simp only [Process.ask_bind, Process.bind_assoc]
    congr 1
    funext there
    cases there with
    | false => rfl
    | true =>
      simp only [exclusively, Process.bind_def, Process.bind_assoc, ask, Process.call,
        Process.ask_bind, Process.done_bind, load_bind, Bool.not_true, Bool.false_eq_true,
        ↓reduceIte, Stage.process, Section.inside, Section.read]
      congr 1
      funext ticket
      congr 1
      funext _
      congr 1
      funext got
      cases queueOf got with
      | error f => rfl
      | ok seen =>
        simp only [Process.pure_def, Process.done_bind, Process.ask_bind]
        congr 1
        funext _
        congr 1
        funext _
        split
        · rfl
        · rw [Process.bind_assoc]
          congr 1
          funext p
          exact conclude_bind o n

theorem perform_setOnline (online : Bool) :
    perform o (.setOnline online) =
      .ask (.switch online) fun before =>
        if online && !before && o.replayOnReconnect then perform o .replay
        else .done (.replayed (.ok none)) := by
  simp only [perform, setOnline, Process.bind_def, ask, Process.call, Process.ask_bind,
    Process.done_bind]
  congr 1
  funext before
  split <;> rfl

end Processes

/-! ### Moves -/

/-- What reading the queue may come to. -/
def State.Reads (o : OfflineSettings) (mayFail : Prop) (s : State)
    (r : Except OfflineError (List OfflineEvent)) : Prop :=
  r = queueOf (.ok (s.stored o.queueKey)) ∨ mayFail ∧ ∃ e, r = .error (.store e)

/-- The state in which the queue holds these events. -/
def State.saved (o : OfflineSettings) (s : State) (es : List OfflineEvent) : State :=
  s.put o.queueKey (if es.isEmpty then none else some (toText es))

/-- The events of a pass that have been replayed with success, after one more reply. -/
def sentAfter (r : Except Fault Unit) (e : OfflineEvent) (sent : List OfflineEvent) :
    List OfflineEvent :=
  match r with
  | .ok () => sent ++ [e]
  | .error _ => sent

def Pass.after (p : Pass) (r : Except Fault Unit) (e : OfflineEvent) : Pass :=
  match r with
  | .ok () => p.succeed
  | .error _ => p.fail e

/-- All that a call can do from one stage to the next. -/
inductive Moves (o : OfflineSettings) (mayFail : Prop) : State → Stage → State → Stage → Prop
  | enter {s : State} {sec : Section} {ticket} (turn : s.queue.lock.hasTurn ticket = true)
      (reads : sec ≠ .wipe) : Moves o mayFail s (.waiting sec ticket) s (.reading sec ticket)
  | wipe {s : State} {ticket} (turn : s.queue.lock.hasTurn ticket = true) :
      Moves o mayFail s (.waiting .wipe ticket) s (.writing .wipe ticket [])
  | unreadable {s : State} {sec : Section} {ticket f} (h : s.Reads o mayFail (.error f)) :
      Moves o mayFail s (.reading sec ticket) (sec.leave ticket s)
        (.finished (sec.refusal f) sec.sent)
  | append {s : State} {e ticket queued} (h : s.Reads o mayFail (.ok queued)) (now : Int) :
      Moves o mayFail s (.reading (.append e) ticket)
        (s.stamped (nextStamp now s.queue.lastStamp queued))
        (.writing (.append e) ticket
          (queued ++ [{ e with createdAt := nextStamp now s.queue.lastStamp queued }]))
  | nothing {s : State} {pass ticket} (h : s.Reads o mayFail (.ok [])) :
      Moves o mayFail s (.reading (.snapshot pass) ticket)
        (((s.handBack ticket).tell ⟨0, 0⟩).endPass pass) (.finished (.replayed (.ok (some {}))) [])
  | snapshot {s : State} {pass ticket e es} (h : s.Reads o mayFail (.ok (e :: es))) :
      Moves o mayFail s (.reading (.snapshot pass) ticket)
        ((s.handBack ticket).tell ⟨0, es.length + 1⟩)
        (.replaying pass ticket (e :: es) [] 0 e es {})
  | merge {s : State} {pass used seen sent p ticket queued} (h : s.Reads o mayFail (.ok queued)) :
      Moves o mayFail s (.reading (.merge pass used seen sent p) ticket) s
        (.writing (.merge pass used seen sent p) ticket (remaining seen p.failed queued))
  | written {s : State} {sec : Section} {ticket es} :
      Moves o mayFail s (.writing sec ticket es) (sec.leave ticket (s.saved o es))
        (.finished sec.success sec.sent)
  | unwritten {s : State} {sec : Section} {ticket es e} (h : mayFail) :
      Moves o mayFail s (.writing sec ticket es) (sec.leave ticket s)
        (.finished (sec.refusal (.store e)) sec.sent)
  | replayed {s : State} {pass used seen sent through e e' es p} (r : Except Fault Unit)
      (h : o.throttle = 0) :
      Moves o mayFail s (.replaying pass used seen sent through e (e' :: es) p)
        (s.tell ⟨through + 1, seen.length⟩)
        (.replaying pass used seen (sentAfter r e sent) (through + 1) e' es (p.after r e))
  | resting {s : State} {pass used seen sent through e e' es p} (r : Except Fault Unit)
      (h : o.throttle ≠ 0) :
      Moves o mayFail s (.replaying pass used seen sent through e (e' :: es) p)
        (s.tell ⟨through + 1, seen.length⟩)
        (.pausing pass used seen (sentAfter r e sent) (through + 1) e' es (p.after r e))
  | through {s : State} {pass used seen sent through e p} (r : Except Fault Unit) :
      Moves o mayFail s (.replaying pass used seen sent through e [] p)
        (s.tell ⟨through + 1, seen.length⟩).take
        (.waiting (.merge pass used seen (sentAfter r e sent) (p.after r e)) s.queue.lock.next)
  | paused {s : State} {pass used seen sent through e es p} :
      Moves o mayFail s (.pausing pass used seen sent through e es p) s
        (.replaying pass used seen sent through e es p)

/-- All that a call can do up to its first stage. -/
inductive Begins (o : OfflineSettings) : State → Call → State → Stage → Prop
  | enqueue {s : State} (e : OfflineEvent) :
      Begins o s (.enqueue e) s.take (.waiting (.append e) s.queue.lock.next)
  | clear {s : State} : Begins o s .clear s.take (.waiting .wipe s.queue.lock.next)
  | busy {s : State} {n} (h : s.queue.running = some n) :
      Begins o s .replay s (.finished (.replayed (.ok none)) [])
  | noReplayer {s : State} (h : s.queue.running = none) (there : s.queue.hasReplayer = false) :
      Begins o s .replay (s.startPass.endPass s.queue.passes)
        (.finished (.replayed (.error .noExecutor)) [])
  | pass {s : State} (h : s.queue.running = none) (there : s.queue.hasReplayer = true) :
      Begins o s .replay s.startPass.take
        (.waiting (.snapshot s.queue.passes) s.queue.lock.next)
  | back {s s' : State} {online stage}
      (h : (online && !s.queue.online && o.replayOnReconnect) = true)
      (replays : Begins o (s.switch online) .replay s' stage) :
      Begins o s (.setOnline online) s' stage
  | switched {s : State} {online}
      (h : (online && !s.queue.online && o.replayOnReconnect) = false) :
      Begins o s (.setOnline online) (s.switch online) (.finished (.replayed (.ok none)) [])

/-! ### What a call has done so far -/

/-- The event that was replayed with success, if that is what happened. -/
def sentBy (h : Happening interface) : Option OfflineEvent :=
  match h.question, h.answer with
  | .replay e, .ok () => some e
  | _, _ => none

def undoOf (h : Happening interface) : Option (State → State) :=
  (surroundings False).undo h.question h.answer

def Section.undos (ticket : Nat) : Section → List (State → State)
  | .append _ | .wipe => [(·.handBack ticket)]
  | .snapshot pass => [(·.endPass pass), (·.handBack ticket)]
  | .merge pass used _ _ _ => [(·.endPass pass), (·.handBack used), (·.handBack ticket)]

namespace Stage

def sent : Stage → List OfflineEvent
  | .waiting sec _ | .reading sec _ | .writing sec _ _ => sec.sent
  | .replaying _ _ _ sent _ _ _ _ | .pausing _ _ _ sent _ _ _ _ | .finished _ sent => sent

/-- What is undone if the call is abandoned at this stage. -/
def undos : Stage → List (State → State)
  | .waiting sec ticket | .reading sec ticket | .writing sec ticket _ => sec.undos ticket
  | .replaying pass used _ _ _ _ _ _ | .pausing pass used _ _ _ _ _ _ =>
    [(·.endPass pass), (·.handBack used)]
  | .finished .. => []

def isFinished : Stage → Bool
  | .finished .. => true
  | _ => false

/-- The call stands at this stage. -/
structure Stands (o : OfflineSettings) (stage : Stage) (r : Operation Outcome)
    (past : List (Happening interface)) : Prop where
  process : r = stage.process o
  sent : past.filterMap sentBy = stage.sent
  undos : stage.isFinished = false → past.filterMap undoOf = stage.undos
  reads : ∀ ticket, stage ≠ .reading .wipe ticket

end Stage

end ScreenFlow.OfflineQueue
