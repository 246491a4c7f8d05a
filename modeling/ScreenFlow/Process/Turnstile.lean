/-!
# Turnstiles

Whoever wants to pass takes a ticket; the oldest ticket that has not been handed back has the turn.
Handing a ticket back ends a turn, or gives up waiting for one.
-/

namespace ScreenFlow

structure Turnstile where
  waiting : List Nat := []
  next : Nat := 0
deriving DecidableEq, Repr, Inhabited

namespace Turnstile

def take (t : Turnstile) : Nat × Turnstile := (t.next, ⟨t.waiting ++ [t.next], t.next + 1⟩)

def hasTurn (t : Turnstile) (ticket : Nat) : Bool := t.waiting.head? == some ticket

def handBack (t : Turnstile) (ticket : Nat) : Turnstile := { t with waiting := t.waiting.erase ticket }

def isFree (t : Turnstile) : Bool := t.waiting.isEmpty

end Turnstile

end ScreenFlow
