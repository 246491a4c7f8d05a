import ScreenFlow.Execute.Answer
import ScreenFlow.Execute.Settings
import ScreenFlow.Host
import ScreenFlow.Offline.Settings
import ScreenFlow.Offline.Snapshot
import ScreenFlow.Retry.Run

/-!
# Executing a request

A request is attempted under its retry policy, each attempt within its time. A reply 401 leads to one
refresh of the session and one more attempt. Without connection a mutating request is queued and a
read is answered from what was kept of earlier ones; both also happen when no answer can be got.
-/

namespace ScreenFlow

/-- How one attempt to get a reply ended. -/
inductive Sent where
  | replied (r : Reply)
  | failed (f : Fault)
  /-- The time of the attempt ran out. -/
  | elapsed
deriving Repr, Inhabited

/-- Executes requests; `queueing` says that there is an offline queue and that it is enabled. -/
structure Executor where
  settings : ExecuteSettings := {}
  queueing : Bool := false
deriving Repr, Inhabited

namespace Executor

inductive Ask where
  /-- Whether the call has been cancelled. -/
  | cancelled
  | send (r : Request) (budget : Duration)
  | draw
  | pause (d : Duration)
  | notify (message : String) (variant : ToastVariant)
  /-- Sends the user to the login page. -/
  | toLogin (path : String)
  | canRefresh
  | refresh
  /-- The live session token. -/
  | token
  | isOnline
  | newEventId
  | enqueue (e : OfflineEvent)
  | cached (key : String)
  | keep (key : String) (value : Json)

/-- Where an answer may be `none`, the call was cancelled meanwhile. -/
@[reducible] def Answer : Ask → Type
  | .cancelled => Bool
  | .send .. => Option Sent
  | .draw => Nat
  | .pause _ => Bool
  | .notify .. => Unit
  | .toLogin _ => Unit
  | .canRefresh => Bool
  | .refresh => Option (Except Fault String)
  | .token => Option String
  | .isOnline => Bool
  | .newEventId => String
  | .enqueue _ => Except OfflineError String
  | .cached _ => Except OfflineError (Option Json)
  | .keep .. => Unit

@[reducible] def interface : Interface := ⟨Ask, Answer⟩

abbrev Execution (α : Type) := Process interface α

def ask (q : Ask) : Execution (Answer q) := Process.call (I := interface) q

/-- The key under which the answer to a read is kept: endpoint and, for GraphQL, what was asked. -/
def cacheKey (r : Request) : String :=
  match r.graphql with
  | some g => "GRAPHQL:" ++ r.url ++ ":" ++ g.query ++ ":" ++ g.vars.render
  | none => r.endpointKey

def attempt (x : Executor) (r : Request) (expected : Option ResponseType) :
    Execution (Option (Except Fault Response)) := do
  let budget := r.timeout.getD x.settings.requestTimeout
  match ← ask (.send r budget) with
  | none => return none
  | some .elapsed => return some (.error (.timeout budget))
  | some (.failed f) => return some (.error f)
  | some (.replied reply) => return some (reply.toResponse r.graphql.isSome expected)

/-- Answers the questions of the retry loop for a request. -/
def answerRetry (x : Executor) (r : Request) (expected : Option ResponseType) :
    (q : Retry.Ask) → Execution (Retry.Answer Response q)
  | .cancelled => ask .cancelled
  | .attempt _ => x.attempt r expected
  | .draw => ask .draw
  | .pause d => ask (.pause d)
  | .giveUp n => ask (.notify (Retry.exhaustedMessage n) .error)

def withRetry (x : Executor) (r : Request) (expected : Option ResponseType) :
    Execution (Except Fault Response) :=
  (Retry.run (r.retry.getD x.settings.retry)).runIn (x.answerRetry r expected)

/-- A fault of the refresh itself stays; any other one becomes its reason. -/
def refreshFault : Fault → Fault
  | .tokenRefresh s => .tokenRefresh s
  | f => .tokenRefresh f.message

/-- The request with the new session token in place of every other authorization. -/
def reauthorized (r : Request) (token : String) : Request :=
  r.setHeader authorizationHeader (bearerValue token)

def refreshAndRetry (x : Executor) (r : Request) (expected : Option ResponseType) :
    Execution (Except Fault Response) := do
  if ← ask .cancelled then return .error .cancelled
  match ← ask .refresh with
  | none => return .error .cancelled
  | some (.ok token) =>
    if ← ask .cancelled then return .error .cancelled
    match ← x.attempt (reauthorized r token) expected with
    | none => return .error .cancelled
    | some result => return result
  | some (.error f) =>
    ask (.toLogin x.settings.loginPath)
    return .error (refreshFault f)

def queue (r : Request) : Execution (Except Fault Response) := do
  let token ← ask .token
  let id ← ask .newEventId
  match ← ask (.enqueue (OfflineEvent.ofRequest id r token)) with
  | .ok id => return .ok (.accepted id)
  | .error e => return .error e.toFault

/-- What is said of a read that was never kept. -/
def uncached (r : Request) : Fault := .offlineUnavailable ("no cached data for " ++ r.url)

/-- Without connection, or after the fault `cause`: queues a mutation and answers a read from what was
kept. -/
def fallBack (r : Request) (cause : Option Fault) : Execution (Except Fault Response) := do
  if r.isMutating then queue r
  else
    match ← ask (.cached (cacheKey r)) with
    | .ok (some value) => return .ok { status := 200, body := .json value, fromCache := true }
    | .ok none => return .error (cause.getD (uncached r))
    | .error e => return .error (cause.getD e.toFault)

/-- Whether a response can be kept. -/
def isKept : ResponseBody → Bool
  | .json _ | .text _ => true
  | _ => false

def keepRead (x : Executor) (r : Request) (response : Response) : Execution Unit := do
  if x.settings.cacheReads && isKept response.body then ask (.keep (cacheKey r) response.value)

/-- The end of a call: a read is kept, and a call that got no answer falls back. -/
def settle (x : Executor) (r : Request) (offline : Bool) :
    Except Fault Response → Execution (Except Fault Response)
  | .ok response => do
    if offline && !r.isMutating then x.keepRead r response
    return .ok response
  | .error (.transport m) =>
    if offline then fallBack r (some (.transport m)) else return .error (.transport m)
  | .error f => return .error f

/-- Executes against the server. -/
def send (x : Executor) (r : Request) (expected : Option ResponseType) :
    Execution (Except Fault Response) := do
  match ← x.withRetry r expected with
  | .error (.network 401 m body) =>
    if ← ask .canRefresh then x.refreshAndRetry r expected else return .error (.network 401 m body)
  | result => return result

def run (x : Executor) (r : Request) (expected : Option ResponseType) (offline : Bool) :
    Execution (Except Fault Response) := do
  if r.isStreaming then
    return .error (.unsupported "streaming operations go through the subscription manager")
  if ← ask .cancelled then return .error .cancelled
  if offline then
    if !(← ask .isOnline) then return ← fallBack r none
  let result ← x.send r expected
  x.settle r offline result

/-- Executes a request, with the offline queue if there is one. -/
def execute (x : Executor) (r : Request) (expected : Option ResponseType) :
    Execution (Except Fault Response) := x.run r expected x.queueing

/-- Executes a request without queueing it and without kept reads, as in a replay. -/
def executeOnline (x : Executor) (r : Request) (expected : Option ResponseType) :
    Execution (Except Fault Response) := x.run r expected false

end Executor

end ScreenFlow
