import ScreenFlow.Process.Signal

/-!
# Active dispatches

Which dispatches are in flight, which streams are open, and the signal that cancels each. A dispatch is
found by its id; of the streams opened under one id the latest is known.
-/

namespace ScreenFlow

structure Active where
  dispatches : List (String × SignalId) := []
  streams : List (String × SignalId) := []
deriving DecidableEq, Repr, Inhabited

namespace Active

def find? (entries : List (String × SignalId)) (id : String) : Option SignalId :=
  (entries.find? (·.1 == id)).map (·.2)

def remove (entries : List (String × SignalId)) (id : String) : List (String × SignalId) :=
  entries.filter fun e => e.1 != id

def put (entries : List (String × SignalId)) (id : String) (s : SignalId) :
    List (String × SignalId) := remove entries id ++ [(id, s)]

def start (a : Active) (id : String) (s : SignalId) : Active :=
  { a with dispatches := put a.dispatches id s }

def finish (a : Active) (id : String) : Active := { a with dispatches := remove a.dispatches id }

def openStream (a : Active) (id : String) (s : SignalId) : Active :=
  { a with streams := put a.streams id s }

def endStream (a : Active) (id : String) : Active := { a with streams := remove a.streams id }

/-- The signals to fire when an id is cancelled. Its stream is forgotten, its dispatch is not. -/
def cancel (a : Active) (id : String) : List SignalId × Active :=
  ((find? a.dispatches id).toList ++ (find? a.streams id).toList, a.endStream id)

/-- The same for every id. -/
def cancelAll (a : Active) : List SignalId × Active :=
  (a.dispatches.map (·.2) ++ a.streams.map (·.2), { a with streams := [] })

def insertId (id : String) (ids : List String) : List String :=
  if ids.contains id then ids else ids.takeWhile (· < id) ++ id :: ids.dropWhile (· < id)

/-- The ids that are in flight or have a stream, in ascending order. -/
def ids (a : Active) : List String :=
  (a.dispatches ++ a.streams).foldl (fun acc e => insertId e.1 acc) []

end Active

end ScreenFlow
