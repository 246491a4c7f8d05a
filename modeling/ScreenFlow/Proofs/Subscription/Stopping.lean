import ScreenFlow.Proofs.Process.Tasks
import ScreenFlow.Proofs.Subscription.Exchanges
import ScreenFlow.Simulation.Jobs

/-!
# Stopping a stream

A cancelled stream goes on by itself until it has come to its end, with one exception: it hands over
an event, there is no room for it, and its listener has not let go of it.

* `Life`, `Life.Reachable`: one stream with its task, its listener and everything around it;
* `Life.Sound`: what is true of every state that a stream can come to;
* `Life.works_iff_not_jammed`: when a cancelled stream can go on.
-/

namespace ScreenFlow

namespace Simulation

open Subscription

/-! ### What a stream waits for -/

/-- There is room for an event, or nobody who would take it. -/
def World.takesEvent (w : World) (n : Nat) : Bool := !(w.stream n).listened || (w.stream n).hasRoom

/-- The waits of a stream: for room, or for something that a cancellation stands in for. -/
def Wakeful (n : Nat) (ready : World → Bool) : Prop :=
  (∀ w : World, w.isCancelled n = true → ready w = true) ∨ ready = (·.takesEvent n)

def World.Bounded (n : Nat) (w : World) : Prop := (w.stream n).buffer.length ≤ Stream.capacity

section Bounded

variable {n : Nat} {w : World}

theorem stream_modifyStream (w : World) (n : Nat) (f : Stream → Stream) :
    (w.modifyStream n f).stream n = if n < w.streams.size then f (w.stream n) else default := by
  by_cases there : n < w.streams.size
  · simp [World.stream, World.modifyStream, there, Array.getElem_modify]
  · simp [World.stream, World.modifyStream, there]

theorem World.Bounded.modifyStream {f : Stream → Stream}
    (h : (f (w.stream n)).buffer.length ≤ Stream.capacity) : (w.modifyStream n f).Bounded n := by
  rw [Bounded, stream_modifyStream]
  split
  · exact h
  · exact Nat.zero_le _

theorem keeps_take {α : Type} {wake : Option Nat} {next? : World → Option (α × World)} {missing : α}
    (bounded : w.Bounded n) (wakeful : Wakeful n fun w => (next? w).isSome)
    (kept : ∀ w x w', w.Bounded n → next? w = some (x, w') → w'.Bounded n) :
    (take wake next? missing).Keeps (World.Bounded n) (Wakeful n) (fun _ => True) w := by
  refine ⟨bounded, wakeful, fun w' bounded' ready => ?_⟩
  obtain ⟨⟨x, w''⟩, found⟩ := Option.isSome_iff_exists.mp ready
  show World.Bounded n ((next? w').getD (missing, w')).2 ∧ True
  rw [found]
  exact ⟨kept w' x w'' bounded' found, trivial⟩

@[simp] theorem stream_dropFrame : (w.dropFrame n).stream n = w.stream n := by
  unfold World.dropFrame
  split <;> rfl

theorem greeting?_isSome {deadline : Nat} (cancelled : w.isCancelled n = true) :
    (greeting? w n deadline).isSome = true := by
  simp [greeting?, cancelled]

theorem incoming?_isSome (cancelled : w.isCancelled n = true) : (incoming? w n).isSome = true := by
  simp [incoming?, cancelled]

theorem World.Bounded.greeting? {deadline : Nat} {x : Greeting} {w' : World} (bounded : w.Bounded n)
    (found : greeting? w n deadline = some (x, w')) : w'.Bounded n := by
  unfold Simulation.greeting? at found
  split at found
  · cases found
    exact bounded
  · split at found
    · cases found
      rwa [Bounded, stream_dropFrame]
    · cases found
      exact bounded
    · split at found
      · cases found
        exact bounded
      · cases found

theorem World.Bounded.incoming? {x : Incoming} {w' : World} (bounded : w.Bounded n)
    (found : incoming? w n = some (x, w')) : w'.Bounded n := by
  simp only [Simulation.incoming?] at found
  split at found
  · cases found
    exact bounded
  · split at found
    · cases found
      exact bounded
    · split at found
      · cases found
        exact .modifyStream bounded
      · cases found
        rwa [Bounded, stream_dropFrame]
      · cases found
        exact bounded
      · cases found

/-- Every question of a stream keeps its buffer bounded, and waits as it should. -/
theorem keeps_answer (q : Ask) (bounded : w.Bounded n) :
    (answerStream n q).Keeps (World.Bounded n) (Wakeful n) (fun _ => True) w := by
  cases q with
  | connect url protocol headers =>
    refine ⟨?_, trivial⟩
    dsimp only
    split
    · exact bounded
    · split
      · exact .modifyStream (w := { w with sockets := _ }) bounded
      · exact bounded
  | send text =>
    refine ⟨?_, trivial⟩
    dsimp only
    split <;> exact bounded
  | deadline d => exact ⟨bounded, trivial⟩
  | greeting deadline =>
    exact keeps_take bounded (.inl fun _ => greeting?_isSome) fun _ _ _ => World.Bounded.greeting?
  | incoming =>
    exact keeps_take bounded (.inl fun _ => incoming?_isSome) fun _ _ _ => World.Bounded.incoming?
  | emit e =>
    refine ⟨bounded, .inr rfl, fun w' bounded' room => ⟨?_, trivial⟩⟩
    dsimp only
    split
    case isTrue listened =>
      have room : (w'.stream n).buffer.length < Stream.capacity := by
        simpa [listened, Stream.hasRoom] using room
      exact .modifyStream (by simpa using Nat.succ_le_of_lt room)
    case isFalse => exact bounded'
  | pause d =>
    refine ⟨bounded, .inl fun w' cancelled => by simp [cancelled], fun w' bounded' _ => ?_⟩
    exact ⟨bounded', trivial⟩
  | close =>
    refine ⟨?_, trivial⟩
    dsimp only
    split <;> exact bounded
  | release =>
    refine ⟨?_, trivial⟩
    dsimp only
    split
    · exact .modifyStream (w := { w with sockets := _ }) bounded
    · exact bounded

theorem keeps_runStream {α : Type} (p : Subscription.Operation α) (bounded : w.Bounded n) :
    (runStream n p).Keeps (World.Bounded n) (Wakeful n) (fun _ => True) w := by
  induction p generalizing w with
  | done a => exact ⟨bounded, trivial⟩
  | ask q next ih => exact (keeps_answer q bounded).bind fun x _ _ bounded' => ih x bounded'

/-- What a round of a stream leaves: nothing, or the next round. -/
def Continues (n : Nat) (left : Option Job) : Prop :=
  left = none ∨ ∃ phase, left = some (.streaming n phase)

theorem keeps_round (phase : Subscription.Phase) (bounded : w.Bounded n) :
    (Job.streaming n phase).round.Keeps (World.Bounded n) (Wakeful n) (Continues n) w := by
  refine (keeps_runStream _ bounded).bind fun next w' _ bounded' => ?_
  cases next with
  | finished => exact ⟨.modifyStream bounded', .inl rfl⟩
  | connecting attempt => exact ⟨bounded', .inr ⟨_, rfl⟩⟩
  | acknowledging attempt deadline => exact ⟨bounded', .inr ⟨_, rfl⟩⟩
  | streaming => exact ⟨bounded', .inr ⟨_, rfl⟩⟩
  | backingOff attempt cause => exact ⟨bounded', .inr ⟨_, rfl⟩⟩

end Bounded

/-! ### The life of a stream -/

/-- A stream in its world. -/
structure Life where
  world : World
  /-- What is left of the present round of its task. -/
  task : Task World (Option Job)
  /-- What is left to do for whoever gives the stream up; nothing is begun while it is held. -/
  leaving : Option (Task World Unit) := none

namespace Life

/-- The stream when its task has gone on from here to the next point at which it waits. -/
def onward (w : World) (t : Task World (Option Job)) (leaving : Option (Task World Unit)) : Life :=
  ⟨(t.acts w).1, (t.acts w).2, leaving⟩

/-- A step of the stream's own task. -/
inductive Works : Life → Life → Prop
  | passes {w wake ready next undo leaving} (h : ready w = true) :
      Works ⟨w, .wait wake ready next undo, leaving⟩ (onward w next leaving)
  | nextRound {w leaving} (j : Job) :
      Works ⟨w, .done (some j), leaving⟩ (onward w j.round leaving)

/-- A step of the listener, who holds the stream or is giving it up. -/
inductive Listens (n : Nat) : Life → Life → Prop
  | next {w w' task} {e : Option Event} (h : (nextEvent n).run w = (w', .done e)) :
      Listens n ⟨w, task, none⟩ ⟨w', task, none⟩
  | send {w w' task} (m : Json) {r : Except Fault Unit}
      (h : (sendMessage n m).run w = (w', .done r)) :
      Listens n ⟨w, task, none⟩ ⟨w', task, none⟩
  | drop {w task} : Listens n ⟨w, task, none⟩ ⟨w.dropStream n, task, some (.done ())⟩
  | close {w task} :
      Listens n ⟨w, task, none⟩ ⟨((closeStream n).run w).1, task, some ((closeStream n).run w).2⟩
  | leaves {w task} {rest : Task World Unit} :
      Listens n ⟨w, task, some rest⟩ ⟨(rest.run w).1, task, some (rest.run w).2⟩

/-- What happens around a stream: it is cancelled, the server does something, or time passes. -/
inductive Around (n : Nat) : World → World → Prop
  | cancel (w : World) : Around n w (w.fire (w.stream n).signal)
  | push (w : World) (c : Nat) (text : String) :
      Around n w { w with sockets := w.sockets.sendToClient c text }
  | hangUp (w : World) (c : Nat) : Around n w { w with sockets := w.sockets.dropServer c }
  | accept (w : World) : Around n w { w with sockets := w.sockets.accept.2 }
  | receive (w : World) (c : Nat) : Around n w { w with sockets := w.sockets.dropServerFrame c }
  | refuse (w : World) (k : Nat) : Around n w { w with sockets := { w.sockets with refusals := k } }
  | later (w : World) (d : Duration) : Around n w { w with time := w.time + d }

inductive Step (n : Nat) : Life → Life → Prop
  | works {l l' : Life} (h : l.Works l') : Step n l l'
  | listens {l l' : Life} (h : Listens n l l') : Step n l l'
  | around {l : Life} {w : World} (h : Around n l.world w) : Step n l { l with world := w }

/-- What can become of a stream that was started with a signal. -/
inductive Reachable (n : Nat) : Life → Prop
  | started {w₀ w s outbox signal} (made : signal < w₀.signals.all.size)
      (h : (startStream s outbox signal).run w₀ = (w, .done n)) :
      Reachable n ⟨w, .done (some (.streaming n (.connecting 0))), none⟩
  | step {l l'} (h : Reachable n l) (step : Step n l l') : Reachable n l'

/-! ### What stays true -/

/-- What is true of every state that a stream can come to. -/
structure Sound (n : Nat) (l : Life) : Prop where
  rests : l.task.Rests
  keeps : l.task.Keeps (World.Bounded n) (Wakeful n) (Continues n) l.world
  leaves : ∀ rest ∈ l.leaving, rest.Rests ∧
    rest.Keeps (World.Bounded n) (fun _ => True) (fun _ => True) l.world

variable {n : Nat} {l l' : Life} {w w' : World}

theorem Sound.bounded (h : l.Sound n) : l.world.Bounded n := h.keeps.holds h.rests

/-- The world may change as long as the buffer stays bounded. -/
theorem Sound.meanwhile (h : l.Sound n) (bounded : w.Bounded n) :
    ({ l with world := w }).Sound n where
  rests := h.rests
  keeps := h.keeps.meanwhile h.rests bounded
  leaves rest hrest :=
    ⟨(h.leaves rest hrest).1, (h.leaves rest hrest).2.meanwhile (h.leaves rest hrest).1 bounded⟩

theorem Around.stream (h : Around n w w') : w'.stream n = w.stream n := by
  cases h <;> rfl

theorem stream_started {w₀ : World} {s : Subscription} {outbox : Option (List String)}
    {signal : SignalId} (h : (startStream s outbox signal).run w₀ = (w, .done n)) :
    w.stream n = { subscription := s, signal, outbox } := by
  cases h
  simp [World.stream, World.start]

theorem keeps_nextEvent (bounded : w.Bounded n) :
    (nextEvent n).Keeps (World.Bounded n) (fun _ => True) (fun _ => True) w := by
  refine ⟨bounded, trivial, fun w' bounded' _ => ⟨.modifyStream ?_, trivial⟩⟩
  rw [List.length_drop]
  exact Nat.le_trans (Nat.sub_le _ _) bounded'

theorem keeps_sendMessage (m : Json) (bounded : w.Bounded n) :
    (sendMessage n m).Keeps (World.Bounded n) (fun _ => True) (fun _ => True) w := by
  show Task.Keeps _ _ _ (if (w.stream n).outbox.isNone then _ else _) w
  split
  · exact ⟨bounded, trivial⟩
  · refine ⟨bounded, trivial, fun w' bounded' _ => ⟨?_, trivial⟩⟩
    dsimp only
    split
    · exact bounded'
    · exact .modifyStream bounded'

theorem Bounded.dropStream (bounded : w.Bounded n) : (w.dropStream n).Bounded n :=
  .modifyStream (w := w.fire _) bounded

theorem keeps_closeStream (bounded : w.Bounded n) :
    (closeStream n).Keeps (World.Bounded n) (fun _ => True) (fun _ => True) w :=
  ⟨bounded, trivial, fun _ bounded' _ => ⟨Bounded.dropStream bounded', trivial⟩⟩

theorem Sound.onward {t : Task World (Option Job)} (h : l.Sound n)
    (keeps : t.Keeps (World.Bounded n) (Wakeful n) (Continues n) w) :
    (onward w t l.leaving).Sound n where
  rests := Task.rests_acts t w
  keeps := keeps.acts
  leaves := (h.meanwhile (keeps.acts.holds (Task.rests_acts t w))).leaves

theorem Sound.works (h : l.Sound n) (step : l.Works l') : l'.Sound n := by
  cases step with
  | @passes w wake ready next undo leaving passed => exact h.onward (h.keeps.2.2 w h.bounded passed)
  | @nextRound w leaving j =>
    obtain ended | ⟨phase, same⟩ := h.keeps.2
    · cases ended
    · cases same
      exact h.onward (keeps_round phase h.bounded)

theorem Sound.leaving {rest : Task World Unit} (h : l.Sound n) (rests : rest.Rests)
    (keeps : rest.Keeps (World.Bounded n) (fun _ => True) (fun _ => True) w) :
    Sound n ⟨w, l.task, some rest⟩ where
  rests := h.rests
  keeps := h.keeps.meanwhile h.rests (keeps.holds rests)
  leaves := by
    rintro _ ⟨⟩
    exact ⟨rests, keeps⟩

theorem Sound.listens (h : l.Sound n) (step : Listens n l l') : l'.Sound n := by
  cases step with
  | next run => exact h.meanwhile ((keeps_nextEvent h.bounded).of_run run)
  | send m run => exact h.meanwhile ((keeps_sendMessage m h.bounded).of_run run)
  | drop => exact h.leaving trivial ⟨Bounded.dropStream h.bounded, trivial⟩
  | @close w task => exact h.leaving (Task.rests_run _ w) (keeps_closeStream h.bounded).run
  | @leaves w task rest => exact h.leaving (Task.rests_run _ w) (h.leaves rest rfl).2.run

theorem Sound.step (h : l.Sound n) (step : Step n l l') : l'.Sound n := by
  cases step with
  | works step => exact h.works step
  | listens step => exact h.listens step
  | around around => exact h.meanwhile (by rw [World.Bounded, around.stream]; exact h.bounded)

theorem Reachable.sound (h : Reachable n l) : l.Sound n := by
  induction h with
  | @started w₀ w _ _ _ made started =>
    have bounded : w.Bounded n := by
      rw [World.Bounded, stream_started started]
      exact Nat.zero_le _
    exact ⟨trivial, ⟨bounded, .inr ⟨_, rfl⟩⟩, by simp⟩
  | step _ step ih => exact ih.step step

/-! ### Where a stream goes on -/

/-- The task has an event to hand over, the buffer is full, and the stream is held. -/
structure Jammed (n : Nat) (l : Life) : Prop where
  waits : ∃ wake next undo, l.task = .wait wake (·.takesEvent n) next undo
  full : (l.world.stream n).buffer.length = Stream.capacity
  listened : (l.world.stream n).listened = true

theorem full_of_not_takesEvent (bounded : w.Bounded n) (h : w.takesEvent n = false) :
    (w.stream n).buffer.length = Stream.capacity ∧ (w.stream n).listened = true := by
  rw [World.takesEvent, Bool.or_eq_false_iff, Bool.not_eq_false'] at h
  obtain ⟨listened, room⟩ := h
  have full : Stream.capacity ≤ (w.stream n).buffer.length := by simpa [Stream.hasRoom] using room
  exact ⟨Nat.le_antisymm bounded full, listened⟩

theorem works_wait_iff {wake : Option Nat} {ready : World → Bool} {next : Task World (Option Job)}
    {undo : World → World} {leaving : Option (Task World Unit)} :
    (∃ l', Works ⟨w, .wait wake ready next undo, leaving⟩ l') ↔ ready w = true := by
  constructor
  · rintro ⟨l', passes⟩
    cases passes
    assumption
  · exact fun h => ⟨_, .passes h⟩

theorem Jammed.not_takesEvent (h : l.Jammed n) : l.world.takesEvent n = false := by
  simp [World.takesEvent, Stream.hasRoom, h.listened, h.full]

theorem Jammed.not_works (h : l.Jammed n) : ¬ ∃ l', l.Works l' := by
  have blocked := h.not_takesEvent
  obtain ⟨⟨wake, next, undo, waits⟩, -, -⟩ := h
  obtain ⟨w, task, leaving⟩ := l
  subst waits
  rw [works_wait_iff]
  exact Bool.eq_false_iff.mp blocked

/-- A cancelled stream that has not come to its end goes on by itself, unless it is jammed. -/
theorem works_iff_not_jammed (reachable : Reachable n l) (cancelled : l.world.isCancelled n = true)
    (running : l.task ≠ .done none) : (∃ l', l.Works l') ↔ ¬ l.Jammed n := by
  constructor
  · exact fun works jammed => jammed.not_works works
  · intro free
    have sound := reachable.sound
    obtain ⟨w, task, leaving⟩ := l
    cases task with
    | done left =>
      cases left with
      | none => exact absurd rfl running
      | some j => exact ⟨_, .nextRound j⟩
    | act f next => exact sound.rests.elim
    | wait wake ready next undo =>
      rw [works_wait_iff]
      obtain ⟨bounded, wakeful | rfl, -⟩ := sound.keeps
      · exact wakeful w cancelled
      · by_contra blocked
        have jam := full_of_not_takesEvent bounded (Bool.eq_false_iff.mpr blocked)
        exact free ⟨⟨wake, next, undo, rfl⟩, jam.1, jam.2⟩

/-- Nothing has happened yet, and there is a signal. -/
def fresh : World := { signals := (({} : Signals).create none).2 }

def started : World := ((startStream ticks none 0).run fresh).1

theorem reachable_started :
    Reachable 0 ⟨started, .done (some (.streaming 0 (.connecting 0))), none⟩ :=
  .started (by decide) rfl

/-- A stream that is cancelled before it has connected. -/
def cancelledEarly : Life :=
  ⟨started.fire (started.stream 0).signal, .done (some (.streaming 0 (.connecting 0))), none⟩

theorem works_iff_not_jammed_early : Reachable 0 cancelledEarly ∧
    cancelledEarly.world.isCancelled 0 = true ∧ cancelledEarly.task ≠ .done none ∧
    ((∃ l', cancelledEarly.Works l') ↔ ¬ cancelledEarly.Jammed 0) := by
  have reachable : Reachable 0 cancelledEarly := .step reachable_started (.around (.cancel started))
  have cancelled : cancelledEarly.world.isCancelled 0 = true := rfl
  have running : cancelledEarly.task ≠ .done none := nofun
  exact ⟨reachable, cancelled, running, works_iff_not_jammed reachable cancelled running⟩

end Life

end Simulation

end ScreenFlow
