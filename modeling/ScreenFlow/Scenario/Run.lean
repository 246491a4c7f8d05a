import ScreenFlow.Scenario.StoreSteps
import ScreenFlow.Scenario.StreamSteps

/-!
# Running a scenario

A scenario is a world and a list of steps, one after another; steps may also be put side by side. Each
step at the top is answered with its result, the time, and what has happened since the one before.
-/

namespace ScreenFlow.Scenario

open Simulation

def sleepStep (v : Json) : Step := do
  pause (v.natAt "ms")
  return .null

/-- Adds the answers of a described route to the routes that are there. -/
def routeStep (v : Json) : Option Step := do
  let _ ← addRoute [] v
  return do
    .modify fun w => { w with routes := (addRoute w.routes v).getD w.routes }
    return .null

def stopBackgroundStep : Step := do
  let names ← stopBackground
  return .arr (names.map .str)

/-- Steps whose descriptions hold a typed value; the inner option is none if it is of another type. -/
def typedStepOf (name : String) (v : Json) : Option (Option Step) :=
  match name with
  | "route" => some (routeStep v)
  | "dispatch" => some (dispatchStep v)
  | "execute" => some (executeStep v execute)
  | "execute_online" => some (executeStep v executeOnline)
  | "replay_event" => some (replayEventStep v)
  | "queue_event" => some ((OfflineEvent.decode (v.at_ "event")).map enqueueStep)
  | "new_event" => some (newEventStep v)
  | "subscribe" => some (openStep v subscribe)
  | "open_socket" => some (openStep v openSocket)
  | _ => none

def dispatcherStepOf (name : String) (v : Json) : Option Step :=
  match name with
  | "dispatch_screen" => dispatchScreenStep v
  | "cancel" => onDispatcher fun _ => do return .bool (← cancel (v.textAt "id"))
  | "cancel_all" => onDispatcher fun _ => do
      cancelAll
      return .null
  | "active" => onDispatcher fun d => .done (.arr (d.active.ids.map .str))
  | "drop_dispatcher" => dropDispatcher
  | "install_replayer" => onDispatcher fun _ => do
      return .bool (← .modifyGet World.installReplayer)
  | _ => none

def otherStepOf (name : String) (v : Json) : Option Step :=
  match name with
  | "sleep" => sleepStep v
  | "load_screen" => loadScreenStep v
  | "shutdown" => shutDownStep
  | "token" => tokenStep
  | "stop_background" => some stopBackgroundStep
  | _ => none

def untypedStepOf (name : String) (v : Json) : Option Step :=
  [dispatcherStepOf, queueStepOf, sessionStepOf, storeStepOf, streamStepOf, otherStepOf].findSome?
    fun f => f name v

/-- The step of a name. -/
def stepOf (name : String) (v : Json) : Step :=
  match typedStepOf name v, untypedStepOf name v with
  | some (some s), _ => s
  | some none, _ => .done unreadable
  | none, some s => s
  | none, none => .done (failureForm "UnknownStep" name none)

/-- A described step, with the steps inside it down to a depth. -/
def scriptOf : Nat → Json → Script World Json
  | 0, _ => .task (.done unreadable)
  | depth + 1, v =>
    match v.textAt "do" with
    | "parallel" => .parallel ((v.itemsAt "steps").map (scriptOf depth)) .arr
    | "seq" => .sequence .arr ((v.itemsAt "steps").map (scriptOf depth)) []
    | name => .task (stepOf name v)

/-- Runs one step; the answer tells what came of it. -/
def runStep (m : Machine) (v : Json) : Machine × Json :=
  let (m, result) := m.run Machine.fuel (scriptOf (v.depth + 1) v)
  let (o, w) := m.world.observe
  ({ m with world := w },
    .ofFields ([("result", result.getD (failure "Stuck")), ("atMs", .nat w.time)] ++
      occurrencesForm o w.state.root))

def runSteps : Machine → List Json → List Json
  | _, [] => []
  | m, v :: rest =>
    let (m, answer) := runStep m v
    answer :: runSteps m rest

/-- The answers to the steps of a scenario. -/
def run (v : Json) : Except SetupError (List Json) := do
  return runSteps (← setUp (v.at_ "world")) (v.itemsAt "steps")

end ScreenFlow.Scenario
