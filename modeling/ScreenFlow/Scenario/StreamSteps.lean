import ScreenFlow.Scenario.PartSteps

/-!
# Steps on streams

The listener's side, by the handle that was given when a stream was opened, and the server's side, by
the number of the connection. Whoever waits for something tells how long.
-/

namespace ScreenFlow.Scenario

open Simulation

/-! ### The listener -/

def handle? (w : World) (h : Nat) : Option Nat := (w.handles[h]?).join

def onHandle (v : Json) (f : Nat → Step) : Step := do
  let w ← Task.get
  match handle? w (v.natAt "handle") with
  | some n => f n
  | none => return missing

def forgetHandle (v : Json) : Task World Unit :=
  .modify fun w => { w with handles := w.handles.modify (v.natAt "handle") fun _ => none }

def openStep (v : Json) (run : Request → SignalId → Task World (Except Fault Nat)) :
    Option Step := do
  let r ← requestOf (v.at_ "request")
  return do
    match ← run r (← createSignal none) with
    | .error f => return faultForm f
    | .ok n => .modifyGet fun w =>
      (.ofFields [("handle", .nat w.handles.size), ("id", .str (w.stream n).subscription.id)],
        { w with handles := w.handles.push (some n) })

def nextStep (v : Json) : Step := onHandle v fun n => do
  match ← within (v.natAt "withinMs") (nextEvent n) with
  | none => return .str "nothing"
  | some none => return .str "ended"
  | some (some e) => return eitherForm (fun e => .obj [("event", e)]) e

def sendStep (v : Json) : Step := onHandle v fun n => do
  return eitherForm plain (← sendMessage n (v.at_ "message"))

def closeStep (v : Json) : Step := onHandle v fun n => do
  forgetHandle v
  closeStream n
  return .null

def dropStep (v : Json) : Step := do
  match handle? (← Task.get) (v.natAt "handle") with
  | none => return .bool false
  | some n =>
    forgetHandle v
    .modify (·.dropStream n)
    return .bool true

def cancelStep (v : Json) : Step := onHandle v fun n => do
  .modify fun w => w.fire (w.stream n).signal
  return .null

/-! ### The server -/

def acceptStep (v : Json) : Step := do
  let _ ← awaitWithin (v.natAt "withinMs") (·.sockets.hasUnaccepted)
  .modifyGet fun w =>
    let (accepted, sockets) := w.sockets.accept
    (accepted.elim (.str "nothing") fun a => connectionForm a.1 a.2, { w with sockets })

def onServer (v : Json) (f : Nat → Step) : Step := do
  let w ← Task.get
  if w.sockets.isServed (v.natAt "server") then f (v.natAt "server") else return missing

/-- The next message of a client, read as JSON where that is possible; none after the last one. -/
def serverMessage (n : Nat) : Task World (Option Json) := do
  .waitUntil (fun w => (w.sockets.serverFrame n).1.isSome || (w.sockets.serverFrame n).2) none
  .modifyGet fun w =>
    match w.sockets.serverFrame n with
    | (some text, _) =>
      (some ((Json.ofText? text).getD (.str text)),
        { w with sockets := w.sockets.dropServerFrame n })
    | (none, _) => (none, w)

def receiveStep (v : Json) : Step := onServer v fun n => do
  match ← within (v.natAt "withinMs") (serverMessage n) with
  | none => return .str "nothing"
  | some none => return .str "gone"
  | some (some m) => return .obj [("message", m)]

def pushText (n : Nat) (text : String) : Task World Unit :=
  .modify fun w => { w with sockets := w.sockets.sendToClient n text }

def pushStep (v : Json) : Step := onServer v fun n => do
  pushText n (((v.get? "message").map Json.render).getD (v.textAt "text"))
  return .null

def dropServerStep (v : Json) : Step := do
  let n := v.natAt "server"
  .modifyGet fun w =>
    if w.sockets.isServed n then (.bool true, { w with sockets := w.sockets.dropServer n })
    else (.bool false, w)

/-- Takes the opening message, acknowledges it, and answers the message that starts the stream. -/
def handshakeStep (v : Json) : Step := onServer v fun n => do
  let _ ← serverMessage n
  pushText n (Json.obj [("type", .str "connection_ack")]).render
  return (← serverMessage n).getD missing

def refuseStep (v : Json) : Step := do
  .modify fun w => { w with sockets := { w.sockets with refusals := v.natAt "count" } }
  return .null

def attemptsStep : Step := do
  let w ← Task.get
  return .nat w.sockets.attempts

def streamStepOf (name : String) (v : Json) : Option Step :=
  match name with
  | "next" => nextStep v
  | "socket_send" => sendStep v
  | "socket_close" => closeStep v
  | "socket_drop" => dropStep v
  | "socket_cancel" => cancelStep v
  | "accept" => acceptStep v
  | "server_recv" => receiveStep v
  | "server_push" => pushStep v
  | "server_drop" => dropServerStep v
  | "handshake" => handshakeStep v
  | "refuse_next" => refuseStep v
  | "attempts" => attemptsStep
  | _ => none

end ScreenFlow.Scenario
