import ScreenFlow.Duration
import ScreenFlow.Store.Entries

/-!
# Settings and failures of the offline queue
-/

namespace ScreenFlow

structure OfflineSettings where
  /-- Without it nothing is queued and nothing is kept. -/
  enabled : Bool := true
  /-- The key under which the queue is stored. -/
  queueKey : String := "weft:offline:queue"
  /-- Stands before the keys of kept reads. -/
  cachePrefix : String := "weft:cache:"
  /-- The pause between two replayed events. -/
  throttle : Duration := 250
  /-- Whether the queue is replayed when the connection comes back. -/
  replayOnReconnect : Bool := true
  /-- Names the background sync that is asked for after each new event. -/
  syncTag : String := "weft-offline-replay"
deriving DecidableEq, Repr, Inhabited

inductive OfflineError where
  | store (e : StoreError)
  /-- The stored queue cannot be read. -/
  | corrupt (reason : String)
  /-- Nobody is there to replay events. -/
  | noExecutor
deriving DecidableEq, Repr, Inhabited

namespace OfflineError

def message : OfflineError → String
  | store e => e.message
  | corrupt s => "corrupt offline queue: " ++ s
  | noExecutor => "no replay executor registered"

def toFault (e : OfflineError) : Fault := .storage e.message

end OfflineError

end ScreenFlow
