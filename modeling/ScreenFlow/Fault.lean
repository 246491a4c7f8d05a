import ScreenFlow.Duration
import ScreenFlow.Json.Printer
import ScreenFlow.Json.Record

/-!
# Faults

Why an action did not succeed, one constructor per cause; the wording is in `Fault.message`.
-/

namespace ScreenFlow

inductive Fault where
  | validation (reason : String)
  /-- The server answered with a status that is no success. -/
  | network (status : Nat) (reason : String) (body : Option Json)
  /-- No answer came. -/
  | transport (reason : String)
  | timeout (after : Duration)
  | cancelled
  | offlineUnavailable (what : String)
  | tokenRefresh (reason : String)
  | transform (reason : String)
  | notFound (what : String)
  | graphql (reason : String)
  | serialization (reason : String)
  | storage (reason : String)
  | unsupported (what : String)
  | configuration (reason : String)
deriving DecidableEq, Repr, Inhabited

namespace Fault

def message : Fault → String
  | validation s => "validation error: " ++ s
  | network status s _ => "HTTP " ++ toString status ++ ": " ++ s
  | transport s => "transport error: " ++ s
  | timeout d => "timed out after " ++ Duration.text d
  | cancelled => "operation cancelled"
  | offlineUnavailable s => "offline and no cached response for " ++ s
  | tokenRefresh s => "token refresh failed: " ++ s
  | transform s => "transform error: " ++ s
  | notFound s => "data source not found: " ++ s
  | graphql s => "graphql error: " ++ s
  | serialization s => "serialization error: " ++ s
  | storage s => "storage error: " ++ s
  | unsupported s => "unsupported action: " ++ s
  | configuration s => "configuration error: " ++ s

def code : Fault → String
  | validation _ => "VALIDATION"
  | network .. => "NETWORK"
  | transport _ => "TRANSPORT"
  | timeout _ => "TIMEOUT"
  | cancelled => "CANCELLED"
  | offlineUnavailable _ => "OFFLINE_UNAVAILABLE"
  | tokenRefresh _ => "TOKEN_REFRESH"
  | transform _ => "TRANSFORM"
  | notFound _ => "NOT_FOUND"
  | graphql _ => "GRAPHQL"
  | serialization _ => "SERIALIZATION"
  | storage _ => "STORAGE"
  | unsupported _ => "UNSUPPORTED"
  | configuration _ => "CONFIGURATION"

/-- The statuses after which another attempt makes sense. -/
def retryableStatuses : List Nat := [429, 500, 502, 503, 504]

def isRetryable : Fault → Bool
  | network status _ _ => retryableStatuses.contains status
  | transport _ | timeout _ => true
  | _ => false

def isCancelled : Fault → Bool
  | cancelled => true
  | _ => false

def status? : Fault → Option Nat
  | network status _ _ => some status
  | _ => none

end Fault

/-- What a handler's error branch sees of a fault. -/
structure FaultInfo where
  message : String
  status : Option Nat
deriving DecidableEq, Repr

namespace FaultInfo

def ofFault (f : Fault) : FaultInfo :=
  let text := match f with
    | .network _ reason _ => reason
    | _ => f.message
  ⟨text, f.status?⟩

def toJson (i : FaultInfo) : Json :=
  .obj (("message", .str i.message) :: match i.status with
    | some s => [("status", .nat s)]
    | none => [])

def decode : Decoder FaultInfo := .record do
  return ⟨← .required "message" .string, ← .optionalByName "status" (.natBelow 16)⟩

end FaultInfo

end ScreenFlow
