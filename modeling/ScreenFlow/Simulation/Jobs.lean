import ScreenFlow.Simulation.Dispatching

/-!
# Jobs in the background

What each job does in a round, and what is left to do after it.
-/

namespace ScreenFlow.Simulation

/-- How late a tick may be that still counts as on time. -/
def tickTolerance : Duration := 5

/-- The tick after one that was noticed at `now`; a late one starts a new series. -/
def nextTick (period tick now : Nat) : Nat :=
  if tick + tickTolerance < now then now + period else tick + period

/-- Waits for a tick; the answer tells whether it came before the end of the job. -/
def awaitTick (stop : SignalId) (tick : Nat) : Task World Bool := do
  .waitUntil (fun w => w.holds stop || tick ≤ w.time) (some tick)
  .read fun w => !w.holds stop

namespace Job

def refresh (stop : SignalId) (tick : Nat) : Task World (Option Job) := do
  if !(← awaitTick stop tick) then return none
  let w ← Task.get
  match w.session with
  | none => return none
  | some s =>
    runAuth s.auth.refreshIfDue
    return some (refreshing stop (nextTick s.auth.settings.refreshInterval tick w.time))

def follow (stop : SignalId) (position : Nat) : Task World (Option Job) := do
  let changes (w : World) : Broadcast StoreChange := (w.store w.sessionSlot).changes
  .waitUntil (fun w => w.holds stop || (changes w).hasNews position) none
  let w ← Task.get
  match w.session with
  | none => return none
  | some s =>
    if w.holds stop then return none
    let (received, position) := (changes w).receive position
    runAuth (s.auth.onReceived received)
    return some (following stop position)

def watch (stop : SignalId) (every tick : Nat) : Task World (Option Job) := do
  if !(← awaitTick stop tick) then return none
  let _ ← runFile .shared FileStore.reload
  return some (watching stop every (tick + every))

def stream (n : Nat) (phase : Subscription.Phase) : Task World (Option Job) := do
  let w ← Task.get
  match ← runStream n ((w.stream n).subscription.round phase) with
  | .finished =>
    .modify (·.modifyStream n ({ · with ended := true }))
    return none
  | phase => return some (streaming n phase)

def consume (n : Nat) (invocation : String) (target : Option String) : Task World (Option Job) := do
  match ← nextEvent n with
  | some (.ok payload) =>
    match target with
    | some path => .modify (·.setState path payload)
    | none => pure ()
    return some (consuming n invocation target)
  | some (.error _) => return some (consuming n invocation target)
  | none =>
    .modify fun w => (w.modifyActive (·.endStream invocation)).dropStream n
    return none

/-- One round of a job, and the job that is left. -/
def round : Job → Task World (Option Job)
  | refreshing stop tick => refresh stop tick
  | following stop position => follow stop position
  | watching stop every tick => watch stop every tick
  | streaming n phase => stream n phase
  | consuming n invocation target => consume n invocation target

end Job

/-! ### Jobs with a name -/

/-- Starts a job with a signal that stops it. -/
def startBackground (name : String) (job : World → SignalId → Job) : Task World Background := do
  let stop ← createSignal none
  .modifyGet fun w =>
    let (n, w) := w.start (job w stop)
    (⟨name, n, stop⟩, w)

def startRefreshing : Task World Background :=
  startBackground "refresh_loop" fun w stop => .refreshing stop w.time

def startFollowing : Task World Background :=
  startBackground "sync" fun w stop => .following stop (w.store w.sessionSlot).changes.sent

def startWatching (every : Duration) : Task World Background :=
  startBackground "watcher" fun w stop => .watching stop every w.time

/-- Stops jobs and waits for their ends. -/
def stopAll (jobs : List Background) : Task World Unit := do
  .modify fun w => { w with signals := w.signals.fireAll (jobs.map (·.stop)) }
  .waitUntil (fun w => jobs.all fun b => w.finished.contains b.job) none

/-- Leaves a job running until `stopBackground`. -/
def keepRunning (start : Task World Background) : Task World Unit := do
  let b ← start
  .modify fun w => { w with background := w.background ++ [b] }

/-- Stops the jobs that were left running; the answer names them. -/
def stopBackground : Task World (List String) := do
  let jobs ← .modifyGet fun w => (w.background, { w with background := [] })
  stopAll jobs
  return jobs.map (·.name)

end ScreenFlow.Simulation
