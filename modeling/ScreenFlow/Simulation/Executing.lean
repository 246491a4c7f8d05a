import ScreenFlow.Simulation.Queueing

/-!
# Executing requests in a world

A call can be cancelled by a signal. A cancellation cuts off what is being waited for and comes first
at a moment when both are possible.
-/

namespace ScreenFlow.Simulation

def toSent : Option (Except Fault Reply) → Sent
  | none => .elapsed
  | some (.ok r) => .replied r
  | some (.error f) => .failed f

def answerExecutor (signal : SignalId) : (q : Executor.Ask) → Task World (Executor.Answer q)
  | .cancelled => .read (·.holds signal)
  | .send r budget => do
    let result ← untilFired signal (within budget (send r))
    return result.map toSent
  | .draw => .done 0
  | .pause d => do return (← untilFired signal (pause d)).isSome
  | .notify message variant => .modify fun w =>
    if w.executor.any (·.hosted) then w.host (.toast message variant) else w
  | .toLogin path => .modify fun w =>
    if w.executor.any (·.hosted) then w.host (.navigate path true) else w
  | .canRefresh => .read canRefresh
  | .refresh => untilFired signal refreshToken
  | .token => .read (·.liveToken)
  | .isOnline => .read fun w => w.queue.all (·.online)
  | .newEventId => .modifyGet World.newId
  | .enqueue e => do
    return (← onQueue noReplay fun s => OfflineQueue.enqueue s e).getD (.error noQueue)
  | .cached key => do
    return (← onQueue noReplay fun s => OfflineQueue.cached s key).getD (.error noQueue)
  | .keep key value => do
    let _ ← onQueue noReplay fun s => OfflineQueue.keep s key value

def runExecutor {α : Type} (signal : SignalId) (p : Executor.Execution α) : Task World α :=
  p.perform (answerExecutor signal) fun _ _ => none

/-- What a request comes to in a world that executes none. -/
def noExecutor : Fault := .configuration "a request executor is required"

def execute (signal : SignalId) (r : Request) (expected : Option ResponseType) :
    Task World (Except Fault Response) :=
  Task.get.bind fun w =>
    match w.executor with
    | some x => runExecutor signal (x.executor.execute r expected)
    | none => .done (.error noExecutor)

def executeOnline (signal : SignalId) (r : Request) (expected : Option ResponseType) :
    Task World (Except Fault Response) :=
  Task.get.bind fun w =>
    match w.executor with
    | some x => runExecutor signal (x.executor.executeOnline r expected)
    | none => .done (.error noExecutor)

end ScreenFlow.Simulation
