import ScreenFlow.Process.Task
import ScreenFlow.Simulation.World

/-!
# Time and requests in a world
-/

namespace ScreenFlow.Simulation

/-- Lets so many milliseconds pass. -/
def pause (d : Duration) : Task World Unit :=
  Task.get.bind fun w => .waitUntil (fun x => w.time + d ≤ x.time) (some (w.time + d))

/-- Waits for good; whoever waits for this can only give up. -/
def never : Task World Unit := .waitUntil (fun _ => false) none

/-- Abandons a task when a signal fires. -/
def untilFired {α : Type} (s : SignalId) (t : Task World α) : Task World (Option α) :=
  Task.get.bind fun w => t.cutBefore (w.signals.due? s) (·.holds s)

/-- Abandons a task when its time is over. -/
def within {α : Type} (d : Duration) (t : Task World α) : Task World (Option α) :=
  Task.get.bind fun w => t.cutAfter (some (w.time + d)) fun x => w.time + d ≤ x.time

/-- Waits for something, but not for longer than `d`; the answer tells whether it came. -/
def awaitWithin (d : Duration) (ready : World → Bool) : Task World Bool := do
  return (← within d (.waitUntil ready none)).isSome

def createSignal (due : Option Nat) : Task World SignalId :=
  .modifyGet fun w =>
    let (s, signals) := w.signals.create due
    (s, { w with signals })

/-- Sends a request. It is noted, and its answer chosen, before the time that it takes passes. -/
def send (r : Request) : Task World (Except Fault Reply) := do
  let answer ← .modifyGet fun w =>
    let (answer, routes) := w.routes.take r
    let w := { w with routes }
    (answer, w.note fun j => { j with requests := j.requests ++ [r] })
  let w ← Task.get
  if w.latency != 0 then pause w.latency
  match answer.getD (w.unserved r) with
  | .respond reply => return .ok reply
  | .fail f => return .error f
  | .hang =>
    never
    return .error (.transport "no answer")

end ScreenFlow.Simulation
