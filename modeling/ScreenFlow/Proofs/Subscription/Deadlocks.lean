import Mathlib.Logic.Relation
import ScreenFlow.Proofs.Dispatch.Registry
import ScreenFlow.Proofs.Subscription.Stopping

/-!
# Streams that are never closed

The listener who closes a stream waits for the end of its task and takes no events any more. If the
task is about to hand one over and there is no room, each of them waits for the other.

* `Life.Deadlock.lasts`: who closes a jammed stream waits for good;
* `Life.Open.fills`: the server can fill the buffer of an open stream;
* `Life.Open.deadlocks`: so every open stream can come to a deadlock;
* `Life.not_alwaysWorks`: this happens to a stream that has just been opened.
-/

namespace ScreenFlow.Simulation.Life

open Subscription

variable {n c : Nat} {l l' : Life} {w w' : World}

/-- A jammed stream that is being closed. -/
structure Deadlock (n : Nat) (l : Life) : Prop where
  jammed : l.Jammed n
  closing : ∃ next undo, l.leaving = some (.wait none (fun w => (w.stream n).ended) next undo)
  running : (l.world.stream n).ended = false

theorem Deadlock.step (h : l.Deadlock n) (step : Step n l l') : l'.Deadlock n := by
  obtain ⟨jammed, ⟨rest, undo, closing⟩, running⟩ := h
  obtain ⟨w, task, leaving⟩ := l
  subst closing
  cases step with
  | works step => exact absurd ⟨l', step⟩ jammed.not_works
  | listens step =>
    cases step with
    | leaves =>
      have stays : (Task.wait none (fun w => (w.stream n).ended) rest undo).run w =
          (w, .wait none (fun w => (w.stream n).ended) rest undo) :=
        if_neg (Bool.eq_false_iff.mp running)
      rw [stays]
      exact ⟨⟨jammed.waits, jammed.full, jammed.listened⟩, ⟨rest, undo, rfl⟩, running⟩
  | around around =>
    have same := around.stream
    exact ⟨⟨jammed.waits, same ▸ jammed.full, same ▸ jammed.listened⟩, ⟨rest, undo, rfl⟩,
      same ▸ running⟩

/-- Whoever closes a jammed stream waits for good. -/
theorem Deadlock.lasts (h : l.Deadlock n) (steps : Relation.ReflTransGen (Step n) l l') :
    l'.Deadlock n := by
  induction steps with
  | refl => exact h
  | tail _ step ih => exact ih.step step

/-! ### Streams that fill up -/

/-- What is left of a stream's task when this is left of its round. -/
def left (n : Nat) (r : Subscription.Operation Subscription.Phase) : Task World (Option Job) :=
  (runStream n r).bind fun
    | .finished => do
      .modify (·.modifyStream n ({ · with ended := true }))
      return none
    | phase => return some (.streaming n phase)

theorem onward_round (phase : Subscription.Phase) (leaving : Option (Task World Unit)) :
    onward w (Job.streaming n phase).round leaving =
      onward w (left n ((w.stream n).subscription.round phase)) leaving := rfl

/-- Who hands over an event waits until it is taken. -/
theorem left_emit (n : Nat) (e : Event) (g : Bool → Subscription.Operation Subscription.Phase) :
    ∃ wake next undo, left n (.ask (.emit e) g) = .wait wake (·.takesEvent n) next undo :=
  ⟨none, _, _, rfl⟩

/-- An established stream over this connection, which has nothing to take up. -/
structure Open (n c : Nat) (w : World) : Prop where
  exists_stream : n < w.streams.size
  connected : (w.stream n).connection = some c
  listened : (w.stream n).listened = true
  quiet : (w.stream n).outgoing? = none
  running : (w.stream n).ended = false
  signal : (w.stream n).signal < w.signals.all.size
  goes : w.isCancelled n = false
  served : ∃ x, w.sockets.connections[c]? = some x ∧ x.toClient = [] ∧ x.clientReads = true ∧
    x.serverHeld = true

theorem getElem?_modifyConnection {k : Sockets} {x : Connection} (f : Connection → Connection)
    (found : k.connections[c]? = some x) : (k.modify c f).connections[c]? = some (f x) := by
  simp [Sockets.modify, Array.getElem?_modify, found]

/-- A frame that the server sends comes next. -/
theorem Open.receives (h : Open n c w) (text : String) :
    ∃ w', incoming? { w with sockets := w.sockets.sendToClient c text } n =
      some (.frame text, w') ∧ w'.stream n = w.stream n ∧ Open n c w' := by
  obtain ⟨x, found, empty, reads, held⟩ := h.served
  have pushed : (w.sockets.sendToClient c text).connections[c]? =
      some { x with toClient := [text] } := by
    rw [Sockets.sendToClient, getElem?_modifyConnection _ found, if_pos reads, empty]
    rfl
  let pushedTo : World := { w with sockets := w.sockets.sendToClient c text }
  let w' : World := { w with sockets := (w.sockets.sendToClient c text).dropClientFrame c }
  have frame : pushedTo.frame n = (some text, false) := by
    have same : pushedTo.stream n = w.stream n := rfl
    simp only [World.frame, same, h.connected]
    simp only [pushedTo, Sockets.clientFrame, pushed, held]
    rfl
  have dropped : pushedTo.dropFrame n = w' := by
    have same : pushedTo.stream n = w.stream n := rfl
    simp only [World.dropFrame, same, h.connected]
    rfl
  refine ⟨w', ?_, rfl, ?_⟩
  · show incoming? pushedTo n = _
    have goes : pushedTo.isCancelled n = false := h.goes
    have listened : (pushedTo.stream n).listened = true := h.listened
    have quiet : (pushedTo.stream n).outgoing? = none := h.quiet
    simp [incoming?, goes, listened, quiet, frame, dropped]
  · exact ⟨h.exists_stream, h.connected, h.listened, h.quiet, h.running, h.signal, h.goes, _,
      getElem?_modifyConnection _ pushed, rfl, reads, held⟩

/-- An event that is handed over takes a place in the buffer. -/
theorem Open.takes (h : Open n c w) (e : Event) :
    Open n c (w.modifyStream n fun s => { s with buffer := s.buffer ++ [e] }) := by
  have changed := stream_modifyStream w n fun s => { s with buffer := s.buffer ++ [e] }
  rw [if_pos h.exists_stream] at changed
  constructor
  · simpa [World.modifyStream] using h.exists_stream
  · rw [changed]
    exact h.connected
  · rw [changed]
    exact h.listened
  · rw [changed]
    exact h.quiet
  · rw [changed]
    exact h.running
  · rw [changed]
    exact h.signal
  · rw [World.isCancelled, changed]
    exact h.goes
  · exact h.served

theorem frameMeaning_data (s : Subscription) (p : SubProtocol) :
    s.frameMeaning p (message [("type", .str p.data)]) = .data (.ok .null) := by
  have read : Json.ofText? (message [("type", .str p.data)]) =
      some (.obj [("type", .str p.data)]) := by
    cases p <;> decide +kernel
  unfold frameMeaning
  rw [read]
  cases p <;> rfl

theorem round_data {s : Subscription} {p : SubProtocol} {call : GraphqlCall} {text : String}
    {e : Event} (kind : s.kind = .graphql p call) (meaning : s.frameMeaning p text = .data e) :
    (s.round .streaming).Ends [⟨.incoming, .frame text⟩, ⟨.emit e, true⟩] .streaming := by
  rw [Subscription.round, kind]
  refine .asked _ ?_
  simp only [Process.done_bind, meaning]
  exact .asked _ (.done _)

/-- There are frames that a stream hands over as they come. -/
theorem exists_delivered (s : Subscription) : ∃ text e,
    (s.round .streaming).Ends [⟨.incoming, .frame text⟩, ⟨.emit e, true⟩] .streaming := by
  cases kind : s.kind with
  | raw =>
    refine ⟨"", .ok ((Json.ofText? "").getD (.str "")), ?_⟩
    rw [Subscription.round, kind]
    exact .asked _ (.asked _ (.done _))
  | graphql p call => exact ⟨_, _, round_data kind (frameMeaning_data s p)⟩

section Answers

variable {g : Bool → Subscription.Operation Subscription.Phase}
  {leaving : Option (Task World Unit)}

/-- A stream that waits for something takes it up when it comes. -/
theorem Reachable.takes {α : Type} {wake : Option Nat} {next? : World → Option (α × World)}
    {missing x : α} {k : α → Task World (Option Job)}
    (h : Reachable n ⟨w, (take wake next? missing).bind k, leaving⟩)
    (found : next? w = some (x, w')) : Reachable n (onward w' (k x) leaving) := by
  have ready : (next? w).isSome = true := by
    rw [found]
    rfl
  have passed : Reachable n (onward ((next? w).getD (missing, w)).2
      (k ((next? w).getD (missing, w)).1) leaving) := .step h (.works (.passes ready))
  rwa [found] at passed

/-- An event is handed over where there is room. -/
theorem Reachable.emits {e : Event} (h : Reachable n ⟨w, left n (.ask (.emit e) g), leaving⟩)
    (listened : (w.stream n).listened = true) (room : (w.stream n).hasRoom = true) :
    Reachable n (onward (w.modifyStream n fun s => { s with buffer := s.buffer ++ [e] })
      (left n (g true)) leaving) := by
  have ready : w.takesEvent n = true := by
    simp [World.takesEvent, room]
  let handed : Bool × World := if (w.stream n).listened then
      (true, w.modifyStream n fun s => { s with buffer := s.buffer ++ [e] })
    else (false, w)
  have passed : Reachable n (onward handed.2 (left n (g handed.1)) leaving) :=
    .step h (.works (.passes ready))
  have heard : handed = (true, w.modifyStream n fun s => { s with buffer := s.buffer ++ [e] }) :=
    if_pos listened
  rwa [heard] at passed

end Answers

/-- The stream can wait for what comes next. -/
def Awaits (n : Nat) (w : World) : Prop :=
  Reachable n ⟨w, left n ((w.stream n).subscription.round .streaming), none⟩

/-- A stream that is about to stream waits for what comes next. -/
theorem Reachable.awaits (h : Reachable n ⟨w, .done (some (.streaming n .streaming)), none⟩) :
    Awaits n w := by
  obtain ⟨text, e, ends⟩ := exists_delivered (w.stream n).subscription
  obtain ⟨f, first, -⟩ := Process.ends_cons_iff.mp ends
  have again := Reachable.step h (.works (.nextRound _))
  rw [onward_round, first] at again
  rw [Awaits, first]
  exact again

/-- The server can bring an open stream to hand over an event. -/
theorem Open.offers (h : Open n c w) (awaits : Awaits n w) : ∃ w' e g,
    Reachable n ⟨w', left n (.ask (.emit e) g), none⟩ ∧ g true = .done .streaming ∧
      w'.stream n = w.stream n ∧ Open n c w' := by
  obtain ⟨text, e, ends⟩ := exists_delivered (w.stream n).subscription
  obtain ⟨f, first, rest⟩ := Process.ends_cons_iff.mp ends
  obtain ⟨g, second, last⟩ := Process.ends_cons_iff.mp rest
  obtain ⟨w', found, same, opened⟩ := h.receives text
  have pushed : Reachable n ⟨{ w with sockets := w.sockets.sendToClient c text },
      left n ((w.stream n).subscription.round .streaming), none⟩ :=
    .step awaits (.around (.push w c text))
  rw [first] at pushed
  have offered : Reachable n (onward w' (left n (f (.frame text))) none) :=
    Reachable.takes (k := fun x => left n (f x)) pushed found
  rw [second] at offered
  exact ⟨w', e, g, offered, Process.ends_nil_iff.mp last, same, opened⟩

/-- As long as there is room, the stream takes another event. -/
theorem Open.delivers (h : Open n c w) (awaits : Awaits n w)
    (room : (w.stream n).buffer.length < Stream.capacity) : ∃ w', Awaits n w' ∧ Open n c w' ∧
      (w'.stream n).buffer.length = (w.stream n).buffer.length + 1 := by
  obtain ⟨w₁, e, g, offered, last, same, opened⟩ := h.offers awaits
  have free : (w₁.stream n).hasRoom = true := by simpa [Stream.hasRoom, same] using room
  have handed := offered.emits opened.listened free
  rw [last] at handed
  have taken := opened.takes e
  have changed := stream_modifyStream w₁ n fun s => { s with buffer := s.buffer ++ [e] }
  rw [if_pos opened.exists_stream] at changed
  refine ⟨_, ?_, taken, by rw [changed]; simp [same]⟩
  exact Reachable.awaits handed

/-- The server can fill the buffer. -/
theorem Open.fills (h : Open n c w) (awaits : Awaits n w) : ∃ w', Awaits n w' ∧ Open n c w' ∧
    (w'.stream n).buffer.length = Stream.capacity := by
  have bounded : (w.stream n).buffer.length ≤ Stream.capacity := awaits.sound.bounded
  generalize free : Stream.capacity - (w.stream n).buffer.length = k
  -- by the number of places that are free
  induction k generalizing w with
  | zero => exact ⟨w, awaits, h, Nat.le_antisymm bounded (Nat.sub_eq_zero_iff_le.mp free)⟩
  | succ k ih =>
    obtain ⟨w', awaits', opened, longer⟩ := h.delivers awaits (by omega)
    exact ih opened awaits' (by omega) (by omega)

/-- Whatever an open stream is like: when its listener closes it, it may be jammed. -/
theorem Open.deadlocks (h : Open n c w) (awaits : Awaits n w) :
    ∃ l, Reachable n l ∧ l.world.isCancelled n = true ∧ l.Deadlock n := by
  obtain ⟨w₁, awaits₁, opened₁, full₁⟩ := h.fills awaits
  obtain ⟨w₂, e, g, offered, -, same, opened⟩ := opened₁.offers awaits₁
  have full : (w₂.stream n).buffer.length = Stream.capacity := same ▸ full₁
  have fired : (w₂.fire (w₂.stream n).signal).isCancelled n = true :=
    Signals.holds_fire.mpr (.inr ⟨rfl, opened.signal⟩)
  obtain ⟨next, undo, waits⟩ : ∃ next undo, (closeStream n).run w₂ =
      (w₂.fire (w₂.stream n).signal, .wait none (fun w => (w.stream n).ended) next undo) := by
    refine ⟨_, _, if_neg ?_⟩
    exact Bool.eq_false_iff.mp opened.running
  have closing := Reachable.step offered (.listens .close)
  rw [waits] at closing
  exact ⟨_, closing, fired, ⟨left_emit n e g, full, opened.listened⟩, ⟨next, undo, rfl⟩,
    opened.running⟩

/-! ### A stream that is opened and closed -/

/-- The server has not acknowledged the connection yet. -/
def connected : World := ((Job.streaming 0 (.connecting 0)).round.acts started).1

/-- Now it has. -/
def acknowledged : World := { connected with sockets := connected.sockets.sendToClient 0 tickAck }

def subscribed : World :=
  let w := acknowledged.dropFrame 0
  { w with sockets := (w.sockets.sendToServer 0 (ticks.startMessage .transportWs tickCall)).2 }

theorem reachable_subscribed :
    Reachable 0 ⟨subscribed, .done (some (.streaming 0 .streaming)), none⟩ := by
  obtain ⟨f, first, rest⟩ := Process.ends_cons_iff.mp
    (round_acknowledged (s := ticks) rfl 0 10000 tickAck_acknowledges)
  obtain ⟨g, second, last⟩ := Process.ends_cons_iff.mp rest
  have idle : Reachable 0 ⟨connected, .done (some (.streaming 0 (.acknowledging 0 10000))), none⟩ :=
    .step reachable_started (.works (.nextRound _))
  have waiting : Reachable 0 (onward connected
      (left 0 (ticks.round (.acknowledging 0 10000))) none) := .step idle (.works (.nextRound _))
  rw [first] at waiting
  have pushed : Reachable 0 ⟨acknowledged, left 0 (.ask (.greeting 10000) f), none⟩ :=
    .step waiting (.around (.push connected 0 tickAck))
  have greeted :
      Reachable 0 (onward (acknowledged.dropFrame 0) (left 0 (f (.frame tickAck))) none) :=
    Reachable.takes (k := fun x => left 0 (f x)) pushed rfl
  rw [second] at greeted
  have sent : Reachable 0 (onward subscribed (left 0 (g (.ok ()))) none) := greeted
  rw [Process.ends_nil_iff.mp last] at sent
  exact sent

theorem open_subscribed : Open 0 0 subscribed :=
  ⟨by decide, rfl, rfl, rfl, rfl, by decide, rfl, _, rfl, rfl, rfl, rfl⟩

theorem exists_deadlock : ∃ l, Reachable 0 l ∧ l.world.isCancelled 0 = true ∧ l.Deadlock 0 :=
  open_subscribed.deadlocks reachable_subscribed.awaits

/-- A cancelled stream that has not come to its end can go on by itself. -/
def AlwaysWorks : Prop :=
  ∀ n l, Reachable n l → l.world.isCancelled n = true → l.task ≠ .done none → ∃ l', l.Works l'

theorem not_alwaysWorks : ¬ AlwaysWorks := by
  intro always
  obtain ⟨l, reachable, cancelled, deadlock⟩ := exists_deadlock
  have running : l.task ≠ .done none := by
    obtain ⟨wake, next, undo, waits⟩ := deadlock.jammed.waits
    rw [waits]
    exact nofun
  exact deadlock.jammed.not_works (always 0 l reachable cancelled running)

end ScreenFlow.Simulation.Life
