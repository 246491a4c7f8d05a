import ScreenFlow.DataSource
import ScreenFlow.Http.Headers
import ScreenFlow.Text.Utf8

/-!
# Requests

A request plan with every template filled in.
-/

namespace ScreenFlow

inductive PartValue where
  | text (s : String)
  | file (filename : String) (contentType : Option String) (data : Bytes)
deriving DecidableEq, Repr, Inhabited

namespace PartValue

def decodeByte : Decoder UInt8 := fun v => ((Decoder.natBelow 8) v).map Nat.toUInt8

def decodeFile : Decoder PartValue := .record do
  return .file (← .required "filename" .string) (← .optionalByName "content_type" .string)
    (← .required "data" (.list decodeByte))

/-- Files are tagged by name; a value that has been read before it was known to be a part may also have
the number of the kind as its tag. -/
def isFileTag (known : Bool) : Source → Bool
  | .str s => s == "file"
  | .num n => !known && n == .int 1
  | _ => false

/-- Only files have a written form: a text has no place beside the tag. What stands beside the tag is
read as a whole. -/
def decode (known : Bool) : Decoder PartValue := .whole fun
  | .obj format fields =>
    match fields.filter (·.1 == "kind") with
    | [(_, tag)] =>
      if isFileTag known tag then decodeFile (.obj format (fields.filter (·.1 != "kind"))) else none
    | _ => none
  | .arr format (tag :: rest) =>
    if isFileTag known tag then decodeFile (.arr format rest) else none
  | _ => none

def toJson? : PartValue → Option Json
  | text _ => none
  | file name type data =>
    some (.obj [("kind", .str "file"), ("filename", .str name),
      ("content_type", .ofOption .str type), ("data", .arr (data.map fun b => .nat b.toNat))])

end PartValue

structure MultipartPart where
  name : String
  value : PartValue
deriving DecidableEq, Repr, Inhabited

namespace MultipartPart

/-- Reads a part of a body; `known` says that this is known when reading begins. -/
def decode (known : Bool) : Decoder MultipartPart := .record do
  return {
    name := ← .required "name" .string
    value := ← .required "value" (PartValue.decode known) }

def toJson? (p : MultipartPart) : Option Json :=
  p.value.toJson?.map fun v => .obj [("name", .str p.name), ("value", v)]

end MultipartPart

inductive RequestBody where
  | empty
  | json (value : Json)
  | form (pairs : List (String × String))
  | raw (text : String)
  | multipart (parts : List MultipartPart)
deriving DecidableEq, Repr, Inhabited

namespace RequestBody

def isEmpty : RequestBody → Bool
  | empty => true
  | _ => false

def isMultipart : RequestBody → Bool
  | multipart _ => true
  | _ => false

/-- A pair is written as a list of two. -/
def decodePair : Decoder (String × String)
  | .arr _ [.str a, .str b] => some (a, b)
  | _ => none

/-- Reads the value that belongs to a tag. -/
def decodeTagged (known : Bool) (value : Source) : String → Option RequestBody
  | "empty" => if value matches .null then some empty else none
  | "json" => (Decoder.value value).map json
  | "form" => (Decoder.list decodePair value).map form
  | "raw" => (Decoder.string value).map raw
  | "multipart" => (Decoder.list (MultipartPart.decode known) value).map multipart
  | _ => none

def decodeTag : Decoder String := .choice some

/-- A value that stands before its tag is read as a whole. Only an empty body may lack its value. -/
def decode : Decoder RequestBody
  | .obj _ fields =>
    match fields.filter fun f => f.1 == "type" || f.1 == "value" with
    | [("type", tag)] => do if (← decodeTag tag) == "empty" then some empty else none
    | [("type", tag), ("value", v)] => do decodeTagged true v (← decodeTag tag)
    | [("value", v), ("type", tag)] => do
      let tag ← decodeTag tag
      Decoder.whole (decodeTagged false · tag) v
    | _ => none
  | .arr _ [.str tag, v] => decodeTagged true v tag
  | _ => none

def toJson? : RequestBody → Option Json
  | empty => some (.obj [("type", .str "empty")])
  | json v => some (tagged "json" v)
  | form ps => some (tagged "form" (.arr (ps.map fun p => .arr [.str p.1, .str p.2])))
  | raw s => some (tagged "raw" (.str s))
  | multipart parts => (parts.mapM MultipartPart.toJson?).map fun items => tagged "multipart" (.arr items)
where
  tagged (tag : String) (v : Json) : Json := .obj [("type", .str tag), ("value", v)]

/-- The body as it is kept in a queued event. -/
def toValue? : RequestBody → Option Json
  | empty => none
  | json v => some v
  | form ps => some (.ofFields (ps.map fun p => (p.1, .str p.2)))
  | raw s => some (.str s)
  | multipart parts => ((multipart parts).toJson?).map Json.normalize

end RequestBody

structure GraphqlCall where
  operation : Operation
  query : String
  vars : Json
deriving DecidableEq, Repr, Inhabited

namespace GraphqlCall

/-- What is sent: the document and its variables. -/
def wireBody (g : GraphqlCall) : Json :=
  .obj [("query", .str g.query), ("variables", g.vars)]

def decode : Decoder GraphqlCall := .record do
  return {
    operation := ← .required "operation" Operation.decode
    query := ← .required "query" .string
    vars := ← .required "variables" .value }

def toJson (g : GraphqlCall) : Json :=
  .obj [("operation", g.operation.toJson), ("query", .str g.query), ("variables", g.vars)]

end GraphqlCall

structure Request where
  dataSourceId : String
  method : Method
  url : String
  headers : Headers := []
  body : RequestBody := .empty
  credentials : Cookies := .sameOrigin
  timeout : Option Duration := none
  retry : Option RetryPolicy := none
  graphql : Option GraphqlCall := none
  protocol : Option SubProtocol := none
deriving DecidableEq, Repr, Inhabited

namespace Request

def setHeader (r : Request) (name value : String) : Request :=
  { r with headers := r.headers.set name value }

def removeHeader (r : Request) (name : String) : Request :=
  { r with headers := r.headers.remove name }

def hasHeader (r : Request) (name : String) : Bool := r.headers.has name

/-- The key of a successful read: method and URL, or for a GraphQL query its endpoint, document and
variables. -/
def endpointKey (r : Request) : String := r.method.name ++ ":" ++ r.url

def isMutating (r : Request) : Bool :=
  match r.graphql with
  | some g => g.operation == .mutation
  | none => r.method.isMutating

/-- Streams go over a socket, not through the executor. -/
def isStreaming (r : Request) : Bool :=
  r.method == .websocket || r.graphql.any (·.operation == .subscription)

end Request

end ScreenFlow
