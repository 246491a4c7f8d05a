import ScreenFlow.Simulation.World

/-!
# Observing a world

What has happened since the last look. An observer of a channel that lets messages get lost learns how
many it has missed. For session events a look ends at the gap, and the next one begins after it.
-/

namespace ScreenFlow.Simulation

structure Occurrences where
  journal : Journal
  authEvents : List AuthEvent
  progress : List (Broadcast.Received ReplayProgress)

/-- The messages from a position on, or none if some of them are lost, and the position to go on
from. -/
def upToGap {α : Type} (b : Broadcast α) (position : Nat) : List α × Nat :=
  if position < b.oldest then ([], b.oldest)
  else (b.kept.drop (position - b.oldest), b.sent)

namespace World

/-- Takes everything that is new. -/
def observe (w : World) : Occurrences × World :=
  let events := (w.session.map (·.events)).getD ⟨16, [], 0⟩
  let progress := (w.queue.map (·.progress)).getD ⟨64, [], 0⟩
  let (authEvents, position) := upToGap events w.seen.authEvents
  let seen := { w.seen with authEvents := position, progress := progress.sent }
  (⟨w.journal, authEvents, progress.receiveAll w.seen.progress⟩, { w with journal := {}, seen })

/-- The changes of the shared store that are new. -/
def observeChanges (w : World) : List (Broadcast.Received StoreChange) × World :=
  (w.shared.changes.receiveAll w.seen.changes,
    { w with seen := { w.seen with changes := w.shared.changes.sent } })

end World

end ScreenFlow.Simulation
