import ScreenFlow.Scenario.Answers
import ScreenFlow.Scenario.Setup

/-!
# Steps on the parts of a world

Dispatches, requests, the offline queue and the session. A step that is described with a value of the
wrong type is refused before anything is done.
-/

namespace ScreenFlow.Scenario

open Simulation

/-- What a step does, and its answer. -/
abbrev Step := Task World Json

def orMissing {α : Type} (f : α → Json) (t : Task World (Option α)) : Step := do
  return (← t).elim missing f

/-! ### Dispatching -/

/-- A step on the dispatcher, if it can be reached. -/
def onDispatcher (f : DispatcherPart → Step) : Step := do
  let w ← Task.get
  match w.dispatcher.filter (·.held) with
  | some d => f d
  | none => return missing

def newId : Task World String := .modifyGet World.newId

def payloadOf (v : Json) : Json := (v.get? "payload").getD .empty

/-- Dispatches a described handler. A dispatch with an id of its own may take place on the screen. -/
def dispatchStep (v : Json) : Option Step := do
  let h ← EventHandler.decode (v.at_ "handler")
  return onDispatcher fun d => do
    match v.textAt? "id" with
    | none => return (← dispatch d { id := ← newId } h (payloadOf v)).toJson
    | some id =>
      let s ← .read (·.screen)
      let i := if v.flagAt "screen" false then onScreen id s else { id }
      return (← dispatch d i h (payloadOf v)).toJson

def dispatchScreenStep (v : Json) : Step := onDispatcher fun d => do
  let s ← .read (·.screen)
  match ← dispatchNamed d s (v.textAt "name") (payloadOf v) with
  | none => return noHandler (v.textAt "name")
  | some report => return report.toJson

/-- Lets go of the dispatcher. An assembly still holds its own. -/
def dropDispatcher : Step := onDispatcher fun d => do
  .modify fun w =>
    { w with dispatcher := if w.assembled then some { d with held := false } else none }
  return .null

def replayEventStep (v : Json) : Option Step := do
  let e ← OfflineEvent.decode (v.at_ "event")
  return onDispatcher fun d => do return eitherForm plain (← replayEvent d e)

/-! ### The assembly -/

def onAssembly (f : Step) : Step := do
  let w ← Task.get
  if w.assembled then f else return missing

def screenForm (s : Screen) : Json :=
  .ofFields [("id", textForm s.id), ("handlers", .arr (s.handlers.map fun h => .str h.1))]

def loadScreenStep (v : Json) : Step := onAssembly do
  match ← loadScreen ((v.get? "contents").map bytesOf) with
  | none => return failure "Screen"
  | some s => return screenForm s

def shutDownStep : Step := onAssembly do
  shutDown
  return .null

/-! ### Requests -/

def executeStep (v : Json)
    (run : SignalId → Request → Option ResponseType → Task World (Except Fault Response)) :
    Option Step := do
  let r ← requestOf (v.at_ "request")
  let expected ← v.typedAt? "expected" ResponseType.decode
  return do
    let w ← Task.get
    if w.executor.isNone then return missing
    let due := if v.flagAt "cancelled" false then some w.time
      else (v.natAt? "cancelAfterMs").map (w.time + ·)
    let signal ← createSignal due
    return eitherForm responseForm (← run signal r expected)

/-- The token of the moment; a prepared one with the number of refreshes. -/
def tokenStep : Step := do
  let w ← Task.get
  match w.tokens, w.session with
  | some t, _ => return .ofFields [("token", textForm t.token), ("refreshCalls", .nat t.refreshCalls)]
  | none, some s => return textForm (s.current.map (·.token))
  | none, none => return missing

/-! ### The offline queue -/

def queueStep {α : Type} (action : Bool) (f : α → Json)
    (op : OfflineSettings → OfflineQueue.Operation (Except OfflineError α)) : Step :=
  orMissing (fun
    | .ok a => f a
    | .error e => offlineErrorForm e action) (onQueue replay op)

def enqueueStep (e : OfflineEvent) : Step :=
  queueStep false .str fun s => OfflineQueue.enqueue s e

/-- Queues a new event, which has nothing but its kind and its data source. -/
def newEventStep (v : Json) : Option Step := do
  let kind ← v.typedAt "kind" .rest EventKind.decode
  return do
    let w ← Task.get
    if w.queue.isNone then return missing
    enqueueStep { id := ← newId, kind, dsId := v.textAt "dsId" }

def onlineStep : Step := do
  let w ← Task.get
  return w.queue.elim missing fun q => onlineForm q w.queueing

def queueStepOf (name : String) (v : Json) : Option Step :=
  match name with
  | "pending" => queueStep false pendingForm OfflineQueue.pending
  | "replay" => queueStep true replayReportForm OfflineQueue.replay
  | "set_online" => queueStep false replayReportForm fun s =>
      OfflineQueue.setOnline s (v.flagAt "online" true)
  | "online" => onlineStep
  | "clear_queue" => queueStep false plain OfflineQueue.clear
  | "cache_set" => queueStep false plain fun s =>
      OfflineQueue.keep s (v.textAt "key") (v.at_ "value")
  | "cache_get" => queueStep false foundForm fun s => OfflineQueue.cached s (v.textAt "key")
  | _ => none

/-! ### The session -/

def sessionStep {α : Type} (f : α → Json) (op : Auth → Auth.Operation (Except AuthError α)) : Step :=
  orMissing (fun
    | .ok a => f a
    | .error e => authErrorForm e) (onSession op)

/-- Starts a job that goes with the session. -/
def sessionJob (start : Task World Background) : Step := do
  let w ← Task.get
  if w.session.isNone then return missing
  keepRunning start
  return .null

def sessionStateStep : Step := do
  let w ← Task.get
  return w.session.elim missing fun s => sessionForm s w.sessionClock

def loginStep (v : Json) : Step := sessionStep StoredAuth.toJson fun a =>
  a.login (v.textAt "token") (v.textAt? "refresh") ((v.natAt? "expiresIn").map (· * 1000))

def sessionStepOf (name : String) (v : Json) : Option Step :=
  match name with
  | "login" => loginStep v
  | "logout" => sessionStep plain fun a => a.logout (v.flagAt "requiresAuth" false)
  | "refresh" => sessionStep .str Auth.refresh
  | "refresh_token" => orMissing (eitherForm .str) (onSession Auth.refreshForRequest)
  | "restore" => sessionStep (.ofOption StoredAuth.toJson) Auth.restore
  | "auth" => sessionStateStep
  | "load_profile" => sessionStep (fun p => .obj [("profile", .ofOption id p)]) fun a =>
      a.loadProfile (v.flagAt "force" false)
  | "start_refresh_loop" => sessionJob startRefreshing
  | "start_sync" => sessionJob startFollowing
  | _ => none

end ScreenFlow.Scenario
