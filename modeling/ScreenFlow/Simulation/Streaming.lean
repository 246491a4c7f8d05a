import ScreenFlow.Simulation.Sending

/-!
# Streams in a world

A stream has a bounded buffer of events for its listener. Who drops a stream also cancels it.
-/

namespace ScreenFlow.Simulation

namespace Stream

def hasRoom (s : Stream) : Bool := s.buffer.length < capacity

/-- The first message of the listener that waits to be sent. -/
def outgoing? (s : Stream) : Option String := s.outbox.bind List.head?

def drop (s : Stream) : Stream := { s with listened := false }

end Stream

namespace World

def stream (w : World) (n : Nat) : Stream := (w.streams[n]?).getD default

/-- Whether a stream has been cancelled. -/
def isCancelled (w : World) (n : Nat) : Bool := w.holds (w.stream n).signal

/-- The next frame for a stream; without one, whether its connection is gone. -/
def frame (w : World) (n : Nat) : Option String × Bool :=
  match (w.stream n).connection with
  | some c => w.sockets.clientFrame c
  | none => (none, true)

def dropFrame (w : World) (n : Nat) : World :=
  match (w.stream n).connection with
  | some c => { w with sockets := w.sockets.dropClientFrame c }
  | none => w

/-- Lets go of a stream. -/
def dropStream (w : World) (n : Nat) : World :=
  (w.fire (w.stream n).signal).modifyStream n (·.drop)

end World

open Subscription in
/-- What comes first for a stream that waits for its acknowledgement. -/
def greeting? (w : World) (n deadline : Nat) : Option (Greeting × World) :=
  if w.isCancelled n then some (.cancelled, w)
  else
    match w.frame n with
    | (some text, _) => some (.frame text, w.dropFrame n)
    | (none, true) => some (.closed, w)
    | (none, false) => if deadline ≤ w.time then some (.elapsed, w) else none

open Subscription in
/-- What comes first for a stream that is established. -/
def incoming? (w : World) (n : Nat) : Option (Incoming × World) :=
  let s := w.stream n
  if w.isCancelled n then some (.cancelled, w)
  else if !s.listened then some (.abandoned, w)
  else
    match s.outgoing?, w.frame n with
    | some text, _ =>
      some (.outgoing text, w.modifyStream n fun s => { s with outbox := s.outbox.map (·.drop 1) })
    | none, (some text, _) => some (.frame text, w.dropFrame n)
    | none, (none, true) => some (.closed, w)
    | none, (none, false) => none

/-- Waits until something comes and takes it. -/
def take {α : Type} (wake : Option Nat) (next? : World → Option (α × World)) (missing : α) :
    Task World α := do
  .waitUntil (fun w => (next? w).isSome) wake
  .modifyGet fun w => (next? w).getD (missing, w)

def answerStream (n : Nat) : (q : Subscription.Ask) → Task World (Subscription.Answer q)
  | .connect url protocol headers => .modifyGet fun w =>
    if w.isCancelled n then (none, w)
    else
      match w.sockets.connect url protocol headers with
      | (.ok c, sockets) =>
        (some (.ok ()), { w with sockets }.modifyStream n ({ · with connection := some c }))
      | (.error f, sockets) => (some (.error f), { w with sockets })
  | .send text => .modifyGet fun w =>
    match (w.stream n).connection with
    | some c =>
      let (result, sockets) := w.sockets.sendToServer c text
      (result, { w with sockets })
    | none => (.error Sockets.closedByServer, w)
  | .deadline d => .read fun w => w.time + d
  | .greeting deadline => take (some deadline) (greeting? · n deadline) .elapsed
  | .incoming => take none (incoming? · n) .cancelled
  | .emit e => do
    .waitUntil (fun w => !(w.stream n).listened || (w.stream n).hasRoom) none
    .modifyGet fun w =>
      if (w.stream n).listened then
        (true, w.modifyStream n fun s => { s with buffer := s.buffer ++ [e] })
      else (false, w)
  | .pause d => Task.get.bind fun w => do
    let stopped (x : World) : Bool := x.isCancelled n || !(x.stream n).listened
    .waitUntil (fun x => stopped x || w.time + d ≤ x.time) (some (w.time + d))
    .read fun x => !stopped x
  | .close => .modify fun w =>
    match (w.stream n).connection with
    | some c => { w with sockets := w.sockets.close c }
    | none => w
  | .release => .modify fun w =>
    match (w.stream n).connection with
    | some c => { w with sockets := w.sockets.release c }.modifyStream n ({ · with connection := none })
    | none => w

def runStream {α : Type} (n : Nat) (p : Subscription.Operation α) : Task World α :=
  p.perform (answerStream n) fun _ _ => none

/-! ### Opening and listening -/

/-- Starts a stream; the answer is its number. -/
def startStream (s : Subscription) (outbox : Option (List String)) (signal : SignalId) :
    Task World Nat :=
  .modifyGet fun w =>
    let n := w.streams.size
    let w := { w with streams := w.streams.push { subscription := s, signal, outbox } }
    (n, (w.start (.streaming n (.connecting 0))).2)

/-- The id of the next stream. -/
def nextStreamId (w : World) : String := toString (w.streams.size + 1)

/-- Opens the stream of a GraphQL request. -/
def subscribe (r : Request) (signal : SignalId) : Task World (Except Fault Nat) := do
  let w ← Task.get
  match Subscription.graphql r (nextStreamId w) w.streamSettings with
  | .error f => return .error f
  | .ok s => return .ok (← startStream s none signal)

/-- Opens a stream of plain frames. -/
def openSocket (r : Request) (signal : SignalId) : Task World (Except Fault Nat) := do
  let w ← Task.get
  return .ok (← startStream (.ofRequest r (nextStreamId w) w.streamSettings .raw) (some []) signal)

/-- The next event of a stream, or none after its end. -/
def nextEvent (n : Nat) : Task World (Option Subscription.Event) := do
  .waitUntil (fun w => !(w.stream n).buffer.isEmpty || (w.stream n).ended) none
  .modifyGet fun w =>
    ((w.stream n).buffer.head?, w.modifyStream n fun s => { s with buffer := s.buffer.drop 1 })

/-- Hands a message to a stream of plain frames, as soon as there is room for it. -/
def sendMessage (n : Nat) (message : Json) : Task World (Except Fault Unit) :=
  Task.get.bind fun w =>
    if (w.stream n).outbox.isNone then
      .done (.error (.unsupported "GraphQL subscriptions do not accept client messages"))
    else do
      let full (s : Stream) : Bool := s.outbox.all fun waiting => Stream.capacity ≤ waiting.length
      .waitUntil (fun w => (w.stream n).ended || !full (w.stream n)) none
      .modifyGet fun w =>
        if (w.stream n).ended then (.error (.transport "socket task has stopped"), w)
        else (.ok (), w.modifyStream n fun s =>
          { s with outbox := s.outbox.map (· ++ [message.render]) })

/-- Cancels a stream and waits for its end. -/
def closeStream (n : Nat) : Task World Unit := do
  .modify fun w => w.fire (w.stream n).signal
  .waitUntil (fun w => (w.stream n).ended) none
  .modify (·.dropStream n)

end ScreenFlow.Simulation
