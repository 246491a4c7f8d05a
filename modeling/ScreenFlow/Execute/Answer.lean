import ScreenFlow.Fault
import ScreenFlow.Http.Decoding
import ScreenFlow.Http.Request

/-!
# From a reply to a response

A status that is no success is a fault that carries the server's own words. The envelope of a GraphQL
reply is opened: its data counts if there is any, otherwise its errors.
-/

namespace ScreenFlow

/-- The keys under which servers explain a failure. -/
def explanationKeys : List String := ["message", "error", "detail"]

/-- The longest plain text that is taken as an explanation, in bytes. -/
def maxExplanation : Nat := 500

/-- The server's own words about a failure. -/
def explanation? : Json → Option String
  | .str s => if !s.isEmpty && s.utf8ByteSize ≤ maxExplanation then some s else none
  | .obj fields => explanationKeys.findSome? fun k => (Json.lookup fields k).bind Json.str?
  | _ => none

namespace GraphqlCall

def errorText (error : Json) : String :=
  match (error.get? "message").bind Json.str? with
  | some s => s
  | none => error.render

def errorTexts (envelope : Json) : List String :=
  (((envelope.get? "errors").bind Json.items?).getD []).map errorText

/-- The data of an envelope. Data beside errors is a success. -/
def openEnvelope (envelope : Json) : Except Fault Json :=
  match (envelope.get? "data").filter (!·.isNull) with
  | some data => .ok data
  | none =>
    match errorTexts envelope with
    | [] => .ok .null
    | texts => .error (.graphql (Text.joinLines "; " texts))

/-- Opens the envelope of a body that is JSON. -/
def openBody : ResponseBody → Except Fault ResponseBody
  | .json envelope => (openEnvelope envelope).map .json
  | body => .ok body

end GraphqlCall

namespace Reply

def toFault (r : Reply) (body : Json) : Fault :=
  .network r.status ((explanation? body).getD s!"HTTP {r.status}")
    (if body.isNull then none else some body)

/-- What the caller of a request gets for a reply. -/
def toResponse (r : Reply) (isGraphql : Bool) (expected : Option ResponseType) :
    Except Fault Response :=
  let body := r.decode expected
  if !isSuccessStatus r.status then .error (r.toFault body.toValue)
  else
    (if isGraphql then GraphqlCall.openBody body else .ok body).map fun body =>
      { status := r.status, headers := r.headers, body }

end Reply

end ScreenFlow
