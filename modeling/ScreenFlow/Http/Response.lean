import ScreenFlow.Http.Headers
import ScreenFlow.Json.Basic
import ScreenFlow.Text.Utf8

/-!
# Responses

`Reply` is what came over the wire, `Response` what a caller gets.
-/

namespace ScreenFlow

/-- Status, headers and bytes as the server sent them. -/
structure Reply where
  status : Nat
  headers : Headers := []
  body : Bytes := []
deriving DecidableEq, Repr, Inhabited

inductive ResponseBody where
  | empty
  | json (value : Json)
  | text (s : String)
  | blob (contentType : Option String) (data : Bytes)
  | attachment (filename : String) (contentType : Option String) (data : Bytes)
deriving DecidableEq, Repr, Inhabited

namespace ResponseBody

/-- A binary payload is summarised by its size and type. -/
def blobSummary (contentType : Option String) (data : Bytes) : Json :=
  .obj [("contentType", .ofOption .str contentType), ("size", .nat data.length)]

/-- The body as a value for state and sub-handlers. -/
def toValue : ResponseBody → Json
  | empty => .null
  | json v => v
  | text s => .str s
  | blob type data => .obj [("blob", blobSummary type data)]
  | attachment name type data => .obj [("blob", blobSummary type data), ("filename", .str name)]

end ResponseBody

structure Response where
  status : Nat
  headers : Headers := []
  body : ResponseBody := .empty
  fromCache : Bool := false
  /-- The id of the queued event that stands for this response. -/
  queued : Option String := none
deriving DecidableEq, Repr, Inhabited

def isSuccessStatus (status : Nat) : Bool := 200 ≤ status && status < 300

namespace Response

def isSuccess (r : Response) : Bool := isSuccessStatus r.status

def value (r : Response) : Json := r.body.toValue

/-- The placeholder for a mutation that waits in the queue. -/
def accepted (eventId : String) : Response where
  status := 202
  body := .json (.obj [("eventId", .str eventId), ("queued", .bool true)])
  queued := some eventId

end Response

end ScreenFlow
