import ScreenFlow.Config
import ScreenFlow.Simulation.Jobs

/-!
# Building a world

Parts are added one after another. A part takes those into account that are there already: a session
needs the stores, an executor the queue, and a dispatcher all of them.
-/

namespace ScreenFlow.Simulation

/-- A session as it is asked for. -/
structure SessionPlan where
  settings : AuthSettings := {}
  /-- Whether there is a persistent store that can be used. -/
  persistent : Bool := true
  connected : Bool := true
  hosted : Bool := true
  epoch : Int := World.sessionEpoch
  moves : Bool := true
deriving Repr, Inhabited

namespace World

/-- Replaces the shared store by one in a file. -/
def withFile (w : World) (path : FileName) : World :=
  w.modifyStore .shared ({ · with backing := .file { path } })

/-- Whether the shared store can keep a session of a kind; one in memory does not need it. -/
def keepsSession (w : World) : StorageBackend → Bool × World
  | .memory => (false, w)
  | _ => w.storeAvailable .shared

def withSession (w : World) (p : SessionPlan) : World :=
  let storage := AuthStorage.choose p.settings.backend p.settings.storageKey p.persistent
  let slot : Slot := if storage.backend == .memory then .session else .shared
  { w with session := some {
      auth := ⟨p.settings, storage, p.connected⟩
      slot
      epoch := p.epoch
      moves := p.moves
      hosted := p.hosted } }

def withQueue (w : World) (settings : OfflineSettings) (replayer : Replayer) : World :=
  { w with queue := some { settings, replayer } }

def withExecutor (w : World) (settings : ExecuteSettings) (hosted : Bool) : World :=
  { w with
    executor := some ⟨⟨settings, w.queueing⟩, hosted⟩
    streamSettings := settings }

/-- Adds a dispatcher, which must allow at least one level of handlers. -/
def withDispatcher (w : World) (settings : DispatchSettings) (registry : Registry)
    (defaults : Defaults) (translate : Template.Translator) (streaming : Bool)
    (substitutes : List (ActionKind × Substitute)) : Except Fault World :=
  if settings.maxDepth = 0 then .error (.configuration "max_depth must be at least 1")
  else
    let dispatcher : Dispatcher :=
      { settings, registry, defaults, translate, hasSession := w.session.isSome, streaming }
    .ok { w with dispatcher := some { dispatcher, substitutes } }

/-- Makes the dispatcher the replayer of the queue, if the executor uses a queue. -/
def installReplayer (w : World) : Bool × World :=
  if w.queueing then (true, w.modifyQueue ({ · with replayer := .dispatcher })) else (false, w)

/-- Assembles all parts from one configuration. -/
def assemble (w : World) (c : Config) (translate : Template.Translator) : Except Fault World := do
  let w := w.withQueue c.offline .missing
  let (persistent, w) := w.keepsSession c.authSettings.backend
  let w := w.withSession {
    settings := c.authSettings
    persistent
    epoch := w.wallClock
    moves := false }
  let w := w.withExecutor c.executeSettings true
  let w ← w.withDispatcher c.dispatchSettings c.registry c.defaults translate true []
  return { w.installReplayer.2 with assembled := true }

end World

/-- What an assembly does first: it takes over the stored session, if that can be read, and starts its
jobs if it is to have any. -/
def startUp (background : Bool) : Task World Unit := do
  let _ ← onSession Auth.restore
  if background then
    let refreshing ← startRefreshing
    let following ← startFollowing
    .modify ({ · with housekeeping := [refreshing, following] })

/-- Ends an assembly: dispatches are cancelled, its jobs stopped, and its parts are gone. -/
def shutDown : Task World Unit := do
  cancelAll
  let jobs ← .read (·.housekeeping)
  stopAll jobs
  .modify ({ · with
    session := none, queue := none, executor := none, dispatcher := none, housekeeping := []
    assembled := false })

/-- Reads a screen, which becomes the screen of the world, and writes its initial values to the
state. -/
def loadScreen (contents : Option Bytes) : Task World (Option Screen) :=
  match contents.bind Utf8.decode? with
  | none => .done none
  | some text =>
    match Screen.ofText text with
    | .error _ => .done none
    | .ok screen => .modifyGet fun w =>
      let initial := (screen.initialState.fields?).getD []
      let w := initial.foldl (fun w f => w.setState f.1 f.2) w
      (some screen, { w with screen })

end ScreenFlow.Simulation
