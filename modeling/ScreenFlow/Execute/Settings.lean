import ScreenFlow.Retry

/-!
# Settings of request execution

Execution of single requests and of streams shares these settings.
-/

namespace ScreenFlow

structure ExecuteSettings where
  /-- For requests that have no policy of their own. -/
  retry : RetryPolicy := {}
  /-- The time for one attempt of a request that has none of its own. -/
  requestTimeout : Duration := 30000
  loginPath : String := "/login"
  /-- Whether successful reads are kept for times without connection. -/
  cacheReads : Bool := true
  reconnectBase : Duration := 1000
  reconnectMax : Duration := 30000
  /-- How many reconnections in a row are tried; without a number there is no end. -/
  maxReconnects : Option Nat := none
  /-- How long the server may take to acknowledge a connection. -/
  ackTimeout : Duration := 10000
deriving DecidableEq, Repr, Inhabited

namespace ExecuteSettings

/-- The wait before reconnection number `n`: it doubles each time up to the longest wait. -/
def reconnectWait (base longest : Span) (n : Nat) : Span :=
  match base.times? (RetryPolicy.doubling n) with
  | some wait => min wait longest
  | none => longest

def reconnectDelay (s : ExecuteSettings) (n : Nat) : Duration :=
  (reconnectWait (.ofMillis s.reconnectBase) (.ofMillis s.reconnectMax) n).millis

end ExecuteSettings

end ScreenFlow
