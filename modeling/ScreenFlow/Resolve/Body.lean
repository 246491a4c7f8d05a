import ScreenFlow.Fault
import ScreenFlow.Http.Request
import ScreenFlow.Text.Base64

/-!
# Bodies of requests

How a resolved value is encoded, and which content type goes with it.
-/

namespace ScreenFlow

def contentTypeHeader : String := "Content-Type"

namespace Request

/-- Sets the content type unless there is one in any spelling. -/
def defaultContentType (r : Request) (type : String) : Request :=
  if r.hasHeader contentTypeHeader then r else r.setHeader contentTypeHeader type

end Request

namespace MultipartPart

/-- The bytes of a file part: `data` is base 64, `content` is taken as text. -/
def fileData (name : String) (file : List (String × Json)) : Except Fault Bytes :=
  match Json.lookup file "data", Json.lookup file "content" with
  | some (.str encoded), _ =>
    (Base64.decode encoded).mapError fun e => .validation s!"part '{name}': {e.message}"
  | _, some content => .ok (Utf8.encode content.inlineText)
  | _, none => .ok []

/-- An object with a `filename` is a file, every other value a text. -/
def ofField (name : String) (v : Json) : Except Fault MultipartPart :=
  match v with
  | .obj file =>
    match Json.lookup file "filename" with
    | some filename => do
      let data ← fileData name file
      return ⟨name, .file filename.inlineText ((Json.lookup file "contentType").bind Json.str?) data⟩
    | none => .ok ⟨name, .text v.inlineText⟩
  | v => .ok ⟨name, .text v.inlineText⟩

def ofValue : Json → Except Fault (List MultipartPart)
  | .obj fields => fields.mapM fun f => ofField f.1 f.2
  | _ => .error (.validation "multipart body must be an object")

end MultipartPart

namespace Request

/-- The pairs of a form; null fields are left out. -/
def formPairs : Json → Except Fault (List (String × String))
  | .obj fields => .ok ((fields.filter fun f => !f.2.isNull).map fun f => (f.1, f.2.inlineText))
  | other => .error (.validation s!"form body must be an object, got {other.render}")

def withEncodedBody (r : Request) (encoding : BodyEncoding) (body : Json) : Except Fault Request :=
  match encoding with
  | .json => .ok ({ r with body := .json body }.defaultContentType "application/json")
  | .form => do
    let pairs ← formPairs body
    return { r with body := .form pairs }.setHeader contentTypeHeader
      "application/x-www-form-urlencoded"
  | .raw => .ok ({ r with body := .raw body.inlineText }.defaultContentType "text/plain")
  | .multipart => do
    let parts ← MultipartPart.ofValue body
    -- the content type carries the boundary, which only the transport knows
    return { r with body := .multipart parts }.removeHeader contentTypeHeader

end Request

end ScreenFlow
