import ScreenFlow.AppState
import ScreenFlow.Auth.Session
import ScreenFlow.Dispatch.Active
import ScreenFlow.Dispatch.Basic
import ScreenFlow.Download
import ScreenFlow.Execute.Basic
import ScreenFlow.Handler.Kind
import ScreenFlow.Host
import ScreenFlow.Http.Request
import ScreenFlow.Offline.Queue
import ScreenFlow.Process.Broadcast
import ScreenFlow.Process.Turnstile
import ScreenFlow.Screen
import ScreenFlow.Simulation.Routes
import ScreenFlow.Simulation.Sockets
import ScreenFlow.Store.Access
import ScreenFlow.Subscription.Session

/-!
# Simulated worlds

Everything around a dispatcher as one value: clocks, stores, the servers it talks to, and the state of
its parts. Time is counted in milliseconds from the start and passes only while nothing can go on.
Parts that a world does not have are `none`.
-/

namespace ScreenFlow.Simulation

/-! ### The journal -/

/-- What was done to the surroundings, in order of time and by kind. -/
structure Journal where
  host : List HostCall := []
  /-- Requests that were sent. -/
  requests : List Request := []
  telemetry : List (String × Json) := []
  devices : List (ActionKind × Json) := []
  /-- Writes to the state, with their paths. -/
  patches : List (String × Json) := []
  /-- The ids of events that a prepared replayer was given. -/
  replayed : List String := []
  /-- Background syncs that were asked for. -/
  syncs : List String := []
deriving Repr, Inhabited

/-! ### Stores -/

structure FileState where
  path : FileName := {}
  cache : Option Entries := none
  lock : Turnstile := {}
deriving Repr, Inhabited

inductive Backing where
  | memory (entries : Entries)
  | file (f : FileState)
deriving Repr, Inhabited

structure StoreState where
  backing : Backing := .memory []
  changes : Broadcast StoreChange := { capacity := Store.changeCapacity }
deriving Repr

/-- The stores of a world: the one that everybody shares, and one for the session alone. -/
inductive Slot where
  | shared
  | session
deriving DecidableEq, Repr, Inhabited

/-! ### Parts -/

/-- Prepared tokens: the current one, and the outcomes of the next refreshes. -/
structure Tokens where
  token : Option String := none
  refreshes : List (Except Fault String) := []
  refreshCalls : Nat := 0

structure SessionPart where
  auth : Auth
  slot : Slot
  /-- What the session's clock shows at the start. -/
  epoch : Int
  /-- Whether that clock follows the time of the world. -/
  moves : Bool
  /-- Whether there is a host to send the user to the login page. -/
  hosted : Bool := true
  current : Option StoredAuth := none
  profile : Option (String × Json) := none
  lock : Turnstile := {}
  events : Broadcast AuthEvent := { capacity := 16 }

/-- What a prepared replayer does with an event. -/
structure ReplayAnswer where
  takes : Duration := 0
  /-- An event that is queued meanwhile. -/
  enqueues : Option OfflineEvent := none
  fault : Option Fault := none
deriving Repr, Inhabited

inductive Replayer where
  | missing
  | dispatcher
  /-- The answers by data source, each list from the next to the last, which repeats. -/
  | prepared (answers : List (String × List ReplayAnswer))
deriving Repr, Inhabited

structure QueuePart where
  settings : OfflineSettings := {}
  online : Bool := true
  lastStamp : Int := 0
  /-- The number of the pass that is running. -/
  running : Option Nat := none
  passes : Nat := 0
  lock : Turnstile := {}
  replayer : Replayer := .missing
  progress : Broadcast ReplayProgress := { capacity := 64 }

structure ExecutorPart where
  executor : Executor := {}
  hosted : Bool := true
deriving Repr, Inhabited

/-- An answer that is given, or picked out of the scope. -/
inductive Prepared where
  | answer (r : Except Fault Json)
  | pick (path : String)

namespace Prepared

def eval (p : Prepared) (scope : Json) : Except Fault Json :=
  match p with
  | answer r => r
  | pick path => .ok ((scope.getPath? path).getD .null)

end Prepared

/-- What stands in for the built-in action of a kind. -/
structure Substitute where
  takes : Duration := 0
  result : Prepared

structure DispatcherPart where
  dispatcher : Dispatcher
  /-- Whether somebody outside still holds it. -/
  held : Bool := true
  substitutes : List (ActionKind × Substitute) := []
  active : Active := {}

/-- A stream with both ends of its buffer. -/
structure Stream where
  subscription : Subscription
  signal : SignalId
  buffer : List Subscription.Event := []
  /-- Whether somebody listens. -/
  listened : Bool := true
  /-- Messages of the listener; GraphQL streams take none. -/
  outbox : Option (List String) := none
  connection : Option Nat := none
  ended : Bool := false
deriving Repr, Inhabited

/-- How many events, and how many messages, wait in a stream. -/
def Stream.capacity : Nat := 32

/-! ### Jobs -/

/-- A task in the background between two rounds. -/
inductive Job where
  /-- Looks at the lifetime of the session, next at `tick`. -/
  | refreshing (stop : SignalId) (tick : Nat)
  /-- Follows the changes of the stored session, `position` of which are read. -/
  | following (stop : SignalId) (position : Nat)
  /-- Reads the file of the shared store again every so often. -/
  | watching (stop : SignalId) (every tick : Nat)
  /-- Keeps a stream going. -/
  | streaming (stream : Nat) (phase : Subscription.Phase)
  /-- Writes what a stream brings to its place in the state. -/
  | consuming (stream : Nat) (invocation : String) (target : Option String)
deriving Repr, Inhabited

/-- A background job that was started by name. -/
structure Background where
  name : String
  job : Nat
  stop : SignalId
deriving DecidableEq, Repr, Inhabited

/-- How far an observer has read the channels of the parts. -/
structure Seen where
  changes : Nat := 0
  authEvents : Nat := 0
  progress : Nat := 0
deriving DecidableEq, Repr, Inhabited

/-! ### The world -/

structure World where
  time : Nat := 0
  /-- How often everything had gone on as far as it could. -/
  rests : Nat := 0
  /-- What the clock on the wall shows all the time. -/
  wallClock : Int := 1770000000000
  signals : Signals := {}
  /-- How many ids have been made. -/
  ids : Nat := 0
  shared : StoreState := {}
  sessionStore : StoreState := {}
  routes : Routes := []
  /-- The answer to requests that no route serves. -/
  unserved : Request → RouteAnswer := Routes.unserved
  /-- How long every request takes. -/
  latency : Duration := 0
  sockets : Sockets := {}
  state : AppState := .empty
  /-- An empty one until another is given. -/
  screen : Screen := {}
  devices : Option (List (ActionKind × Except Fault Json)) := none
  scripts : Option (List (String × Prepared)) := none
  tokens : Option Tokens := none
  session : Option SessionPart := none
  queue : Option QueuePart := none
  executor : Option ExecutorPart := none
  dispatcher : Option DispatcherPart := none
  /-- The settings with which streams are opened. -/
  streamSettings : ExecuteSettings := {}
  disk : Disk := {}
  /-- The folder that keeps downloads; without one the host takes them all. -/
  downloads : Option FileName := none
  streams : Array Stream := #[]
  /-- The streams that are held by a listener outside, by handle. -/
  handles : Array (Option Nat) := #[]
  /-- Jobs that were started, with their numbers, and have not had a first turn. -/
  started : List (Nat × Job) := []
  jobs : Nat := 0
  /-- Jobs that have come to their end. -/
  finished : List Nat := []
  background : List Background := []
  /-- Jobs that belong to the whole assembly and stop with it. -/
  housekeeping : List Background := []
  /-- Whether the parts were assembled from one configuration. -/
  assembled : Bool := false
  journal : Journal := {}
  seen : Seen := {}

namespace World

/-- What session clocks show at the start that are not set by the wall. -/
def sessionEpoch : Int := 1700000000000

variable (w : World)

def store : Slot → StoreState
  | .shared => w.shared
  | .session => w.sessionStore

def setStore (s : StoreState) : Slot → World
  | .shared => { w with shared := s }
  | .session => { w with sessionStore := s }

def note (f : Journal → Journal) : World := { w with journal := f w.journal }

def host (c : HostCall) : World := w.note fun j => { j with host := j.host ++ [c] }

/-- Calls the host. A download may fail. -/
def tryHost (c : HostCall) : Except Fault Unit × World :=
  match c, w.downloads with
  | .download filename _ data, some folder =>
    let (result, disk) := Download.save w.disk folder filename data
    let w := { w with disk }
    (result, if result.isOk then w.host c else w)
  | _, _ => (.ok (), w.host c)

def setState (path : String) (value : Json) : World :=
  { w with state := w.state.set path value }.note fun j =>
    { j with patches := j.patches ++ [(path, value)] }

def holds (s : SignalId) : Bool := w.signals.holds w.time s

def fire (s : SignalId) : World := { w with signals := w.signals.fire s }

/-- The next id. They ascend in the order in which they are made. -/
def newId : String × World :=
  let digits := Nat.toDigits 16 w.ids
  let padded := List.replicate (12 - digits.length) '0' ++ digits
  ("01900000-0000-7000-8000-" ++ String.ofList padded, { w with ids := w.ids + 1 })

/-- Starts a job; the answer is its number. -/
def start (j : Job) : Nat × World :=
  (w.jobs, { w with jobs := w.jobs + 1, started := w.started ++ [(w.jobs, j)] })

def modifyStream (n : Nat) (f : Stream → Stream) : World :=
  { w with streams := w.streams.modify n f }

/-- Whether the offline queue is there and takes requests. -/
def queueing : Bool := w.queue.any (·.settings.enabled)

end World

end ScreenFlow.Simulation
