/-!
# Broadcast channels

A sender keeps the last messages up to its capacity. Each receiver reads at its own pace; one that
has fallen behind learns how many messages it missed and goes on with the oldest one kept.
-/

namespace ScreenFlow

structure Broadcast (α : Type) where
  capacity : Nat
  /-- The messages still kept, oldest first. -/
  kept : List α := []
  /-- How many messages were sent in all. -/
  sent : Nat := 0
deriving Repr, DecidableEq

namespace Broadcast

variable {α : Type}

def send (b : Broadcast α) (a : α) : Broadcast α :=
  let all := b.kept ++ [a]
  { b with kept := all.drop (all.length - b.capacity), sent := b.sent + 1 }

/-- The number of the oldest message kept. -/
def oldest (b : Broadcast α) : Nat := b.sent - b.kept.length

/-- Whether a receiver that has read `position` messages finds something. -/
def hasNews (b : Broadcast α) (position : Nat) : Bool := position < b.sent

inductive Received (α : Type) where
  | message (a : α)
  | lagged (missed : Nat)
  | nothing
deriving Repr, DecidableEq

/-- What a receiver at `position` gets, and its position afterwards. -/
def receive (b : Broadcast α) (position : Nat) : Received α × Nat :=
  if position < b.oldest then (.lagged (b.oldest - position), b.oldest)
  else
    match b.kept[position - b.oldest]? with
    | some a => (.message a, position + 1)
    | none => (.nothing, position)

/-- Everything that a receiver at `position` can read now. -/
def receiveAll (b : Broadcast α) (position : Nat) : List (Received α) :=
  if position < b.oldest then .lagged (b.oldest - position) :: b.kept.map .message
  else (b.kept.drop (position - b.oldest)).map .message

end Broadcast

end ScreenFlow
