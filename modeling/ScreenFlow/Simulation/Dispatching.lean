import ScreenFlow.Dispatch.Action
import ScreenFlow.Dispatch.Replay
import ScreenFlow.Dispatch.Run
import ScreenFlow.Simulation.Executing
import ScreenFlow.Simulation.Streaming

/-!
# Dispatching in a world
-/

namespace ScreenFlow.Simulation

namespace World

def modifyActive (w : World) (f : Active → Active) : World :=
  { w with dispatcher := w.dispatcher.map fun d => { d with active := f d.active } }

def track (w : World) (name : String) (properties : Json) : World :=
  w.note fun j => { j with telemetry := j.telemetry ++ [(name, properties)] }

end World

/-- What a script comes to. -/
def evaluate (w : World) (script : String) (scope : Json) : Except Fault Json :=
  match w.scripts with
  | none => .error (.unsupported "no script engine configured")
  | some scripts =>
    match scripts.find? (·.1 == script) with
    | some (_, p) => p.eval scope
    | none => .error (.validation ("unknown script " ++ script))

/-- What a device answers. -/
def useDevice (w : World) (kind : ActionKind) (params : Json) : Except Fault Json × World :=
  match w.devices with
  | none => (.error (.unsupported s!"{kind.name} is not available on this host"), w)
  | some devices =>
    let answer := match devices.find? (·.1 == kind) with
      | some (_, answer) => answer
      | none => .error (.unsupported s!"no device for {kind.name}")
    (answer, w.note fun j => { j with devices := j.devices ++ [(kind, params)] })

/-- Opens a stream on behalf of a dispatch, which does not wait for its end. -/
def openStream (invocation : String) (r : Request) (target : Option String) :
    Task World (Except Fault String) := do
  let signal ← createSignal none
  let isRaw := r.graphql.isNone && r.method == .websocket
  match ← if isRaw then openSocket r signal else subscribe r signal with
  | .error f => return .error f
  | .ok n => .modifyGet fun w =>
    let w := w.modifyActive (·.openStream invocation signal)
    (.ok (w.stream n).subscription.id, (w.start (.consuming n invocation target)).2)

def answerAction (signal : SignalId) (invocation : String) :
    (q : Action.Ask) → Task World (Action.Answer q)
  | .snapshot => .read (·.state.root)
  | .setState path value => .modify (·.setState path value)
  | .host c => .modifyGet fun w => w.tryHost c
  | .track name properties => .modify (·.track name properties)
  | .device kind params => .modifyGet fun w => useDevice w kind params
  | .evaluate script scope => .read (evaluate · script scope)
  | .token => .read (·.liveToken)
  | .execute r expected => execute signal r expected
  | .openStream r target => openStream invocation r target

/-- Performs an action, or what stands in for it. -/
def perform (d : DispatcherPart) (signal : SignalId) (i : Invocation) (spec : ActionSpec)
    (c : Context) : Task World (Except Fault Json) :=
  match d.substitutes.find? (·.1 == spec.action) with
  | some (_, s) => do
    if s.takes != 0 then pause s.takes
    .read fun w => s.result.eval (c.scope w.state.root)
  | none =>
    (Action.Situation.perform ⟨d.dispatcher, i, spec, c⟩).perform (answerAction signal i.id)
      fun _ _ => none

def answerDispatch (d : DispatcherPart) (signal : SignalId) (i : Invocation) :
    (q : Dispatch.Ask) → Task World (Dispatch.Answer q)
  | .cancelled => .read (·.holds signal)
  | .act spec c => do
    return (← untilFired signal (perform d signal i spec c)).getD (.error .cancelled)
  | .snapshot => .read (·.state.root)
  | .setState path value => .modify (·.setState path value)
  | .host c => .modify (·.host c)
  | .evaluate script scope => .read (evaluate · script scope)
  | .logIn t => do
    match ← onSession fun a => a.login t.token t.refreshToken t.expiresIn with
    | some (.ok _) => return true
    | _ => return false
  | .logOut toLogin => do
    let _ ← onSession fun a => a.logout toLogin

/-- Dispatches a handler under the invocation's id. -/
def dispatch (d : DispatcherPart) (i : Invocation) (h : EventHandler) (payload : Json) :
    Task World Report := do
  let signal ← createSignal none
  .modify (·.modifyActive (·.start i.id signal))
  let report ← (Dispatch.dispatch d.dispatcher i h payload).perform (answerDispatch d signal i)
    fun _ _ => none
  .modify fun w =>
    (w.track Dispatch.telemetryName (Dispatch.telemetry h report)).modifyActive (·.finish i.id)
  return report

/-- The invocation of a handler of a screen. -/
def onScreen (id : String) (s : Screen) : Invocation := ⟨id, s.dataSources, s.requiresAuth⟩

/-- Dispatches a handler of a screen by its name, if there is one, under a new id. -/
def dispatchNamed (d : DispatcherPart) (s : Screen) (name : String) (payload : Json) :
    Task World (Option Report) :=
  match s.handler? name with
  | none => return none
  | some h => do
    let id ← .modifyGet World.newId
    return some (← dispatch d (onScreen id s) h payload)

/-- Cancels what runs under an id; the answer tells whether there was something. -/
def cancel (id : String) : Task World Bool :=
  .modifyGet fun w =>
    match w.dispatcher with
    | some d =>
      let (signals, active) := d.active.cancel id
      (!signals.isEmpty,
        { w with dispatcher := some { d with active }, signals := w.signals.fireAll signals })
    | none => (false, w)

def cancelAll : Task World Unit :=
  .modify fun w =>
    match w.dispatcher with
    | some d =>
      let (signals, active) := d.active.cancelAll
      { w with dispatcher := some { d with active }, signals := w.signals.fireAll signals }
    | none => w

/-! ### Replaying -/

def answerReplay (signal : SignalId) : (q : Replay.Ask) → Task World (Replay.Answer q)
  | .snapshot => .read (·.state.root)
  | .setState path value => .modify (·.setState path value)
  | .token => .read (·.liveToken)
  | .executeOnline r expected => executeOnline signal r expected

/-- Replays an event through the dispatcher. -/
def replayEvent (d : DispatcherPart) (e : OfflineEvent) : Task World (Except Fault Unit) := do
  let signal ← createSignal none
  (Replay.replay d.dispatcher e).perform (answerReplay signal) fun _ _ => none

/-- The next answer of a prepared replayer to an event of a data source. -/
def takeReplayAnswer (source : String) :
    List (String × List ReplayAnswer) → ReplayAnswer × List (String × List ReplayAnswer)
  | [] => ({}, [])
  | (id, answers) :: rest =>
    if id == source then
      match answers with
      | [] => ({}, (id, []) :: rest)
      | [a] => (a, (id, [a]) :: rest)
      | a :: more => (a, (id, more) :: rest)
    else
      let (a, rest) := takeReplayAnswer source rest
      (a, (id, answers) :: rest)

/-- Replays an event as it was prepared. -/
def replayPrepared (answers : List (String × List ReplayAnswer)) (e : OfflineEvent) :
    Task World (Except Fault Unit) := do
  let (a, answers) := takeReplayAnswer e.dsId answers
  .modify fun w =>
    (w.modifyQueue ({ · with replayer := .prepared answers })).note fun j =>
      { j with replayed := j.replayed ++ [e.id] }
  if a.takes != 0 then pause a.takes
  match a.enqueues with
  | some other =>
    let _ ← onQueue noReplay fun s => OfflineQueue.enqueue s other
  | none => pure ()
  return match a.fault with
    | some f => .error f
    | none => .ok ()

/-- Replays an event with the replayer of the queue. -/
def replay : Replaying := fun e =>
  Task.get.bind fun w =>
    match (w.queue.map (·.replayer)).getD .missing, w.dispatcher with
    | .prepared answers, _ => replayPrepared answers e
    | _, some d => replayEvent d e
    | _, none => .done (.error (.configuration "dispatcher dropped"))

end ScreenFlow.Simulation
