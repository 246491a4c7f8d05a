import ScreenFlow.Simulation.Sessions

/-!
# The offline queue of a world

Who replays an event is a parameter, because a replay may execute requests and executing may queue.
-/

namespace ScreenFlow.Simulation

namespace QueuePart

def startPass (q : QueuePart) : Option Nat × QueuePart :=
  match q.running with
  | some _ => (none, q)
  | none => (some q.passes, { q with running := some q.passes, passes := q.passes + 1 })

/-- Ends a pass, unless another one is running. -/
def endPass (q : QueuePart) (pass : Nat) : QueuePart :=
  if q.running == some pass then { q with running := none } else q

def hasReplayer (q : QueuePart) : Bool :=
  match q.replayer with
  | .missing => false
  | _ => true

end QueuePart

namespace World

def modifyQueue (w : World) (f : QueuePart → QueuePart) : World := { w with queue := w.queue.map f }

end World

/-- How an event is replayed. -/
abbrev Replaying := OfflineEvent → Task World (Except Fault Unit)

/-- For operations that replay nothing. -/
def noReplay : Replaying := fun _ => .done (.ok ())

def answerQueue (replay : Replaying) : (q : OfflineQueue.Ask) → Task World (OfflineQueue.Answer q)
  | .store q => askStore .shared q
  | .takeTicket => .modifyGet fun w =>
    match w.queue with
    | some q =>
      let (ticket, lock) := q.lock.take
      (ticket, { w with queue := some { q with lock } })
    | none => (0, w)
  | .turn ticket => .waitUntil (fun w => w.queue.all (·.lock.hasTurn ticket)) none
  | .handBack ticket => .modify (·.modifyQueue fun q => { q with lock := q.lock.handBack ticket })
  | .lastStamp => .read fun w => (w.queue.map (·.lastStamp)).getD 0
  | .setLastStamp stamp => .modify (·.modifyQueue ({ · with lastStamp := stamp }))
  | .wallClock => .read (·.wallClock)
  | .startPass => .modifyGet fun w =>
    match w.queue with
    | some q =>
      let (pass, q) := q.startPass
      (pass, { w with queue := some q })
    | none => (none, w)
  | .endPass pass => .modify (·.modifyQueue (·.endPass pass))
  | .hasReplayer => .read fun w => w.queue.any (·.hasReplayer)
  | .replay e => replay e
  | .progress p => .modify (·.modifyQueue fun q => { q with progress := q.progress.send p })
  | .pause d => pause d
  | .registerSync tag => .modify (·.note fun j => { j with syncs := j.syncs ++ [tag] })
  | .switch online => .modifyGet fun w =>
    ((w.queue.map (·.online)).getD true, w.modifyQueue ({ · with online }))

/-- A ticket is handed back, and a pass comes to its end. -/
def undoQueue : (q : OfflineQueue.Ask) → OfflineQueue.Answer q → Option (World → World)
  | .takeTicket, ticket => some (·.modifyQueue fun q => { q with lock := q.lock.handBack ticket })
  | .startPass, some pass => some (·.modifyQueue (·.endPass pass))
  | _, _ => none

def runQueue {α : Type} (replay : Replaying) (p : OfflineQueue.Operation α) : Task World α :=
  p.perform (answerQueue replay) undoQueue

/-- An operation on the offline queue, if the world has one. -/
def onQueue {α : Type} (replay : Replaying) (f : OfflineSettings → OfflineQueue.Operation α) :
    Task World (Option α) :=
  Task.get.bind fun w =>
    match w.queue with
    | some q => (runQueue replay (f q.settings)).bind fun a => .done (some a)
    | none => .done none

/-- What a call for the queue comes to in a world without one. -/
def noQueue : OfflineError := .store (.unavailable "no offline queue")

end ScreenFlow.Simulation
