import ScreenFlow.Bits
import ScreenFlow.Fault
import ScreenFlow.Http.Request
import ScreenFlow.Http.Response
import ScreenFlow.Json.Fields
import ScreenFlow.Json.Printer
import ScreenFlow.Text.Base64

/-!
# Forms of values

How faults, requests and answers are described in a scenario, and how they are shown. The forms are
plain JSON, apart from the library's own formats, which stand in them where a field has such a type.
-/

namespace ScreenFlow.Scenario

/-! ### Bytes and durations -/

/-- Bytes as text, as a JSON value, or in Base64. -/
def bytesOf (v : Json) : Bytes :=
  match v.textAt? "text", v.get? "json", v.textAt? "base64" with
  | some s, _, _ => Utf8.encode s
  | none, some j, _ => Utf8.encode j.render
  | none, none, some s => (Base64.decode s).toOption.getD []
  | none, none, none => []

def bytesForm (bytes : Bytes) : Json :=
  match Utf8.decode? bytes with
  | some s => .obj [("text", .str s)]
  | none => .obj [("base64", .str (Base64.encode bytes))]

/-- Milliseconds, as text where doubles would lose digits. -/
def durationForm (d : Duration) : Json := if d < Bits.values 53 then .nat d else .str (toString d)

/-- A field that is only there if it has a value. -/
def field {α : Type} (key : String) (f : α → Json) (a : Option α) : List (String × Json) :=
  a.toList.map fun a => (key, f a)

/-! ### Faults -/

def faultOf (v : Json) : Fault :=
  let m := v.textAt "message"
  match v.textAt "kind" with
  | "validation" => .validation m
  | "network" => .network (v.natAt "status" % Bits.values 16) m (v.get? "body")
  | "timeout" => .timeout (v.natAt "ms")
  | "cancelled" => .cancelled
  | "offline_unavailable" => .offlineUnavailable m
  | "token_refresh" => .tokenRefresh m
  | "transform" => .transform m
  | "not_found" => .notFound m
  | "graphql" => .graphql m
  | "serialization" => .serialization m
  | "storage" => .storage m
  | "unsupported" => .unsupported m
  | "configuration" => .configuration m
  | _ => .transport m

def faultForm (f : Fault) : Json :=
  .ofFields ([("error", .str f.code), ("message", .str f.message)] ++
    match f with
    | .network status _ body => ("status", .nat status) :: field "body" id body
    | _ => [])

def eitherForm {α : Type} (f : α → Json) : Except Fault α → Json
  | .ok a => f a
  | .error e => faultForm e

/-- An outcome that is described as a value or a fault. -/
def eitherOf (v : Json) : Except Fault Json :=
  match v.get? "err" with
  | some e => .error (faultOf e)
  | none => .ok (v.at_ "ok")

/-! ### Requests -/

def pairOf : Json → String × String
  | .arr (a :: rest) => (a.str?.getD "", (rest.head?.bind Json.str?).getD "")
  | _ => ("", "")

def partOf (v : Json) : MultipartPart :=
  match v.textAt? "filename" with
  | some filename =>
    ⟨v.textAt "name", .file filename (v.textAt? "contentType")
      ((Base64.decode (v.textAt "data")).toOption.getD [])⟩
  | none => ⟨v.textAt "name", .text (v.textAt "text")⟩

def bodyOf (v : Json) : RequestBody :=
  match v.textAt "type" with
  | "json" => .json (v.at_ "value")
  | "form" => .form ((v.itemsAt "value").map pairOf)
  | "raw" => .raw (v.textAt "value")
  | "multipart" => .multipart ((v.itemsAt "value").map partOf)
  | _ => .empty

def partForm (p : MultipartPart) : Json :=
  .ofFields (("name", .str p.name) :: match p.value with
    | .text s => [("text", .str s)]
    | .file filename type data =>
      [("filename", .str filename), ("contentType", .ofOption .str type),
        ("data", .str (Base64.encode data))])

def tagged (name : String) (v : Json) : Json := .obj [("type", .str name), ("value", v)]

def bodyForm : RequestBody → Json
  | .empty => .null
  | .json v => tagged "json" v
  | .form pairs => tagged "form" (.arr (pairs.map fun p => .arr [.str p.1, .str p.2]))
  | .raw s => tagged "raw" (.str s)
  | .multipart parts => tagged "multipart" (.arr (parts.map partForm))

def headersOf (v : Json) : Headers :=
  (v.textFieldsAt "headers").foldl (fun hs h => hs.insert h.1 h.2) ([] : Headers)

def headersForm (hs : Headers) : Json := .ofFields (hs.map fun h => (h.1, .str h.2))

def callOf (v : Json) : Option GraphqlCall := do
  return ⟨← v.typedAt "operation" .query Operation.decode, v.textAt "query", v.at_ "variables"⟩

def requestOf (v : Json) : Option Request := do
  return {
    dataSourceId := (v.textAt? "dataSourceId").getD "ds"
    method := ← v.typedAt "method" .get Method.decode
    url := v.textAt "url"
    headers := headersOf v
    body := bodyOf (v.at_ "body")
    credentials := ← v.typedAt "credentials" .sameOrigin Cookies.decode
    timeout := v.natAt? "timeoutMs"
    retry := ← v.typedAt? "retry" RetryPolicy.decode
    graphql := ← match v.present? "graphql" with
      | some g => (callOf g).map some
      | none => some none
    protocol := ← v.typedAt? "subscriptionProtocol" SubProtocol.decode }

def requestForm (r : Request) : Json :=
  .ofFields ([("dataSourceId", .str r.dataSourceId), ("method", r.method.toJson),
    ("url", .str r.url), ("headers", headersForm r.headers), ("body", bodyForm r.body),
    ("credentials", r.credentials.toJson)] ++
    field "timeoutMs" durationForm r.timeout ++ field "retry" RetryPolicy.toJson r.retry ++
    field "graphql" GraphqlCall.toJson r.graphql ++
    field "subscriptionProtocol" SubProtocol.toJson r.protocol)

/-! ### Answers -/

/-- A reply; one with a JSON value says so in its headers, unless they say otherwise. -/
def replyOf (v : Json) : Reply :=
  let json := v.get? "json"
  let typed : Headers := if json.isSome then [("content-type", "application/json")] else []
  { status := (v.natAt? "status").getD 200
    headers := (v.textFieldsAt "headers").foldl (fun hs h => hs.insert (Text.lower h.1) h.2) typed
    body := match json with
      | some j => Utf8.encode j.render
      | none => bytesOf v }

def responseBodyForm : ResponseBody → Json
  | .empty => .obj [("type", .str "empty")]
  | .json v => tagged "json" v
  | .text s => tagged "text" (.str s)
  | .blob type data =>
    .ofFields [("type", .str "blob"), ("contentType", .ofOption .str type),
      ("data", .str (Base64.encode data))]
  | .attachment filename type data =>
    .ofFields [("type", .str "attachment"), ("filename", .str filename),
      ("contentType", .ofOption .str type), ("data", .str (Base64.encode data))]

def responseForm (r : Response) : Json :=
  .ofFields [("status", .nat r.status), ("headers", headersForm r.headers),
    ("body", responseBodyForm r.body), ("value", r.value), ("success", .bool r.isSuccess),
    ("fromCache", .bool r.fromCache), ("queued", .ofOption .str r.queued),
    ("contentType", .ofOption .str (r.headers.find? "content-type"))]

/-- A value that may not have been found. -/
def foundForm (v : Option Json) : Json :=
  .obj [("found", .bool v.isSome), ("value", v.getD .null)]

end ScreenFlow.Scenario
