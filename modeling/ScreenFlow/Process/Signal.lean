/-!
# Cancellation signals

A signal fires once and for good, either when it is told to or at a time set beforehand. Signals are
known by their number in the table.
-/

namespace ScreenFlow

/-- The number of a signal. -/
abbrev SignalId := Nat

structure Signal where
  fired : Bool := false
  due : Option Nat := none
deriving DecidableEq, Repr, Inhabited

namespace Signal

def holds (s : Signal) (time : Nat) : Bool := s.fired || s.due.any (· ≤ time)

end Signal

structure Signals where
  all : Array Signal := #[]
deriving Repr, Inhabited

namespace Signals

/-- A new signal, which may have a time to fire at. -/
def create (s : Signals) (due : Option Nat) : SignalId × Signals :=
  (s.all.size, ⟨s.all.push ⟨false, due⟩⟩)

def fire (s : Signals) (id : SignalId) : Signals :=
  ⟨s.all.modify id fun x => { x with fired := true }⟩

def fireAll (s : Signals) (ids : List SignalId) : Signals := ids.foldl fire s

def holds (s : Signals) (time : Nat) (id : SignalId) : Bool := (s.all[id]?).any (·.holds time)

/-- The time at which the signal fires by itself. -/
def due? (s : Signals) (id : SignalId) : Option Nat := (s.all[id]?).bind (·.due)

end Signals

end ScreenFlow
