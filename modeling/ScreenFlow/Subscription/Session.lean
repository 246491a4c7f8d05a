import ScreenFlow.Execute.Settings
import ScreenFlow.Fault
import ScreenFlow.Http.Request
import ScreenFlow.Json.Reader
import ScreenFlow.Process.Basic

/-!
# Streams over a socket

A session connects, speaks its sub-protocol, hands the payloads to a listener and connects again when
the socket is lost. Between two rounds it rests in a phase; a round is a process that ends in the next
phase. A raw session has no protocol and passes frames in both directions.
-/

namespace ScreenFlow

/-- What is spoken over the socket. -/
inductive StreamKind where
  | graphql (protocol : SubProtocol) (call : GraphqlCall)
  | raw
deriving Repr, Inhabited

/-- One stream, as it was asked for. -/
structure Subscription where
  id : String
  url : String
  headers : Headers
  kind : StreamKind
  settings : ExecuteSettings
deriving Repr, Inhabited

namespace Subscription

/-- The address of the socket that belongs to an endpoint. -/
def socketUrl (url : String) : String :=
  match Text.dropPrefix? "https://".toList url.toList, Text.dropPrefix? "http://".toList url.toList with
  | some rest, _ => "wss://" ++ String.ofList rest
  | none, some rest => "ws://" ++ String.ofList rest
  | none, none => url

def ofRequest (r : Request) (id : String) (settings : ExecuteSettings) (kind : StreamKind) :
    Subscription := { id, url := socketUrl r.url, headers := r.headers, kind, settings }

/-- The stream of a GraphQL request; one that names no vocabulary speaks the current one. -/
def graphql (r : Request) (id : String) (settings : ExecuteSettings) : Except Fault Subscription :=
  match r.graphql with
  | none => .error (.validation s!"data source '{r.dataSourceId}' has no subscription document")
  | some call => .ok (ofRequest r id settings (.graphql (r.protocol.getD .transportWs) call))

inductive Phase where
  /-- About to connect, for the `attempt`-th time since the last success. -/
  | connecting (attempt : Nat)
  /-- Connected, waiting for the acknowledgement until the deadline. -/
  | acknowledging (attempt deadline : Nat)
  | streaming
  /-- The connection is lost. -/
  | backingOff (attempt : Nat) (cause : Fault)
  | finished
deriving Repr, Inhabited

/-- What a session hands to its listener. -/
abbrev Event := Except Fault Json

/-- What comes while the session waits for the acknowledgement. -/
inductive Greeting where
  | frame (text : String)
  | failed (f : Fault)
  | closed
  | elapsed
  | cancelled
deriving Repr, Inhabited

/-- What comes while the session streams. -/
inductive Incoming where
  | frame (text : String)
  | failed (f : Fault)
  | closed
  /-- A message that the listener wants to send. -/
  | outgoing (text : String)
  /-- Nobody listens any more. -/
  | abandoned
  | cancelled
deriving Repr, Inhabited

inductive Ask where
  | connect (url : String) (protocol : Option String) (headers : Headers)
  | send (text : String)
  /-- The time after so many milliseconds. -/
  | deadline (d : Duration)
  | greeting (deadline : Nat)
  | incoming
  /-- Hands over an event as soon as there is room; the answer tells whether somebody listens. -/
  | emit (e : Event)
  /-- Waits; the answer tells whether the session goes on. -/
  | pause (d : Duration)
  /-- Takes no more frames from the connection. -/
  | close
  /-- Lets go of the connection. -/
  | release

/-- A connection that was cancelled has no answer. -/
@[reducible] def Answer : Ask → Type
  | .connect .. => Option (Except Fault Unit)
  | .send _ => Except Fault Unit
  | .deadline _ => Nat
  | .greeting _ => Greeting
  | .incoming => Incoming
  | .emit _ => Bool
  | .pause _ => Bool
  | .close => Unit
  | .release => Unit

@[reducible] def interface : Interface := ⟨Ask, Answer⟩

abbrev Operation (α : Type) := Process interface α

def ask (q : Ask) : Operation (Answer q) := Process.call (I := interface) q

/-! ### Messages -/

def message (fields : List (String × Json)) : String := (Json.ofFields fields).render

/-- What goes with the opening message: the authorization of the request, if it has one. -/
def initPayload (headers : Headers) : Json :=
  match headers.find? "authorization" with
  | some v => .obj [("Authorization", .str v)]
  | none => .empty

def initMessage (s : Subscription) : String :=
  message [("type", .str "connection_init"), ("payload", initPayload s.headers)]

def startMessage (s : Subscription) (p : SubProtocol) (call : GraphqlCall) : String :=
  message [("id", .str s.id), ("type", .str p.start), ("payload", call.wireBody)]

def stopMessage (s : Subscription) (p : SubProtocol) : String :=
  message [("id", .str s.id), ("type", .str p.stop)]

def pongMessage : String := message [("type", .str "pong")]

def terminateMessage : String := message [("type", .str "connection_terminate")]

/-- The protocols that announce the end of the whole connection. -/
def announcesEnd (p : SubProtocol) : Bool := p != .transportWs

mutual

/-- The text of an error payload: messages of several errors are joined. -/
def errorText : Json → String
  | .arr errors => Text.joinLines "; " (errorTexts errors)
  | .obj fields => ((Json.lookup fields "message").bind Json.str?).getD (Json.obj fields).render
  | .str s => s
  | v => v.render

def errorTexts : List Json → List String
  | [] => []
  | e :: es => errorText e :: errorTexts es

end

def payloadErrorText (payload : Option Json) : String :=
  match payload with
  | some v => errorText v
  | none => "subscription error"

def payloadText (m : Json) : String := ((m.get? "payload").getD .null).render

def messageType (m : Json) : String := ((m.get? "type").bind Json.str?).getD ""

/-- A message without the id of another stream is for this one. -/
def isFor (s : Subscription) (m : Json) : Bool :=
  ((m.get? "id").bind Json.str?).all (· == s.id)

/-- The event that a data message stands for. -/
def dataEvent (m : Json) : Event :=
  let payload := (m.get? "payload").getD .null
  match (payload.get? "data").filter (!·.isNull), payload.get? "errors" with
  | some data, _ => .ok data
  | none, some errors => .error (.graphql (errorText errors))
  | none, none => .ok .null

/-- What a frame means to a session that is waiting for its acknowledgement. -/
inductive GreetingMeaning where
  | acknowledged
  | rejected (payload : String)
  | ping
  | nothing
deriving DecidableEq, Repr

def greetingMeaning (text : String) : GreetingMeaning :=
  match Json.ofText? text with
  | none => .nothing
  | some m =>
    match messageType m with
    | "connection_ack" => .acknowledged
    | "connection_error" => .rejected (payloadText m)
    | "ping" => .ping
    | _ => .nothing

/-- What a frame means to a session that streams. -/
inductive FrameMeaning where
  | ping
  | broken (payload : String)
  | completed
  | refused (reason : String)
  | data (e : Event)
  | nothing
deriving Repr

def frameMeaning (s : Subscription) (p : SubProtocol) (text : String) : FrameMeaning :=
  match Json.ofText? text with
  | none => .nothing
  | some m =>
    let kind := messageType m
    if kind == "ping" then .ping
    else if kind == "connection_error" then .broken (payloadText m)
    else if !s.isFor m then .nothing
    else if kind == "complete" then .completed
    else if kind == "error" then .refused (payloadErrorText (m.get? "payload"))
    else if kind == p.data then .data (dataEvent m)
    else .nothing

/-! ### Rounds -/

/-- Leaves the connection for good. -/
def leave (next : Phase) : Operation Phase := do
  ask .close
  ask .release
  return next

/-- Tells the server to stop; whether the words arrive does not matter any more. -/
def stop (s : Subscription) (p : SubProtocol) : Operation Unit := do
  let _ ← ask (.send (s.stopMessage p))
  if announcesEnd p then
    let _ ← ask (.send terminateMessage)

/-- Sends, and loses the connection if that fails. -/
def sendOr (text : String) (attempt : Nat) (next : Phase) : Operation Phase := do
  match ← ask (.send text) with
  | .ok () => return next
  | .error f => leave (.backingOff attempt f)

def connectGraphql (s : Subscription) (p : SubProtocol) (attempt : Nat) : Operation Phase := do
  match ← ask (.connect s.url (some p.header) s.headers) with
  | none => return .finished
  | some (.error f) => return .backingOff attempt f
  | some (.ok ()) =>
    match ← ask (.send s.initMessage) with
    | .error f => leave (.backingOff attempt f)
    | .ok () =>
      let deadline ← ask (.deadline s.settings.ackTimeout)
      return .acknowledging attempt deadline

def acknowledge (s : Subscription) (p : SubProtocol) (call : GraphqlCall) (attempt deadline : Nat) :
    Operation Phase := do
  match ← ask (.greeting deadline) with
  | .cancelled => leave .finished
  | .elapsed => leave (.backingOff attempt (.timeout s.settings.ackTimeout))
  | .closed => leave (.backingOff attempt (.transport "socket closed before ack"))
  | .failed f => leave (.backingOff attempt f)
  | .frame text =>
    match greetingMeaning text with
    | .acknowledged => sendOr (s.startMessage p call) 0 .streaming
    | .rejected payload =>
      leave (.backingOff attempt (.transport ("connection rejected: " ++ payload)))
    | .ping => sendOr pongMessage attempt (.acknowledging attempt deadline)
    | .nothing => return .acknowledging attempt deadline

def streamGraphql (s : Subscription) (p : SubProtocol) : Operation Phase := do
  match ← ask .incoming with
  | .cancelled | .abandoned =>
    s.stop p
    leave .finished
  | .outgoing _ => return .streaming
  | .closed => leave (.backingOff 0 (.transport "socket closed by server"))
  | .failed f => leave (.backingOff 0 f)
  | .frame text =>
    match s.frameMeaning p text with
    | .ping => sendOr pongMessage 0 .streaming
    | .broken payload => leave (.backingOff 0 (.transport ("connection error: " ++ payload)))
    | .completed => leave .finished
    | .refused reason =>
      let _ ← ask (.emit (.error (.graphql reason)))
      leave .finished
    | .data e =>
      if ← ask (.emit e) then return .streaming
      else
        s.stop p
        leave .finished
    | .nothing => return .streaming

def connectRaw (s : Subscription) (attempt : Nat) : Operation Phase := do
  match ← ask (.connect s.url none s.headers) with
  | none => return .finished
  | some (.error f) => return .backingOff attempt f
  | some (.ok ()) => return .streaming

/-- A raw connection that is lost is closed now and let go of when the wait is over. -/
def loseRaw (f : Fault) : Operation Phase := do
  ask .close
  return .backingOff 0 f

def streamRaw : Operation Phase := do
  match ← ask .incoming with
  | .cancelled | .abandoned => leave .finished
  | .outgoing text =>
    match ← ask (.send text) with
    | .ok () => return .streaming
    | .error f => loseRaw f
  | .closed => loseRaw (.transport "socket closed by server")
  | .failed f => loseRaw f
  | .frame text =>
    if ← ask (.emit (.ok ((Json.ofText? text).getD (.str text)))) then return .streaming
    else leave .finished

/-- Waits before the next connection, or gives up and reports why. -/
def backOff (s : Subscription) (attempt : Nat) (cause : Fault) : Operation Phase := do
  if s.settings.maxReconnects.any (· ≤ attempt) then
    let _ ← ask (.emit (.error cause))
    ask .release
    return .finished
  let goOn ← ask (.pause (s.settings.reconnectDelay attempt))
  ask .release
  return if goOn then .connecting (attempt + 1) else .finished

/-- From one phase to the next. -/
def round (s : Subscription) : Phase → Operation Phase
  | .connecting n =>
    match s.kind with
    | .graphql p _ => s.connectGraphql p n
    | .raw => s.connectRaw n
  | .acknowledging n deadline =>
    match s.kind with
    | .graphql p call => s.acknowledge p call n deadline
    | .raw => return .streaming
  | .streaming =>
    match s.kind with
    | .graphql p _ => s.streamGraphql p
    | .raw => streamRaw
  | .backingOff n cause => s.backOff n cause
  | .finished => return .finished

end Subscription

end ScreenFlow
