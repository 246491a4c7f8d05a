import ScreenFlow.Http.Method
import ScreenFlow.Retry

/-!
# Data sources

The declared form of a remote endpoint. Its strings are templates; a request is made from it when a
handler calls it, and the declaration itself never changes.
-/

namespace ScreenFlow

inductive AuthScheme where
  | bearer
  | basic
  | apiKey
  | none
deriving DecidableEq, Repr, Inhabited

namespace AuthScheme

def all : List AuthScheme := [bearer, basic, apiKey, none]

def name : AuthScheme → String
  | bearer => "bearer"
  | basic => "basic"
  | apiKey => "api_key"
  | none => "none"

def decode : Decoder AuthScheme := .oneOf all name

def toJson (s : AuthScheme) : Json := .str s.name

end AuthScheme

/-- A declared credential; `header` is where an API key goes. -/
structure Credential where
  scheme : AuthScheme := .none
  value : Option String := Option.none
  header : Option String := Option.none
deriving DecidableEq, Repr, Inhabited

namespace Credential

def isNone (c : Credential) : Bool := c.scheme == .none

def decode : Decoder Credential := .record do
  return {
    scheme := ← .withDefault ["type"] .none AuthScheme.decode
    value := ← .optional "value" .string
    header := ← .optional "header" .string }

def toJson (c : Credential) : Json :=
  .obj [("type", c.scheme.toJson), ("value", .ofOption .str c.value),
    ("header", .ofOption .str c.header)]

/-- The printable fields of a credential; its value is not one of them. -/
def visibleText (c : Credential) : List String := c.scheme.name :: c.header.toList

end Credential

/-- Which cookies go along. -/
inductive Cookies where
  | include
  | sameOrigin
  | omit
deriving DecidableEq, Repr, Inhabited

namespace Cookies

def all : List Cookies := [.include, .sameOrigin, .omit]

def name : Cookies → String
  | .include => "include"
  | .sameOrigin => "same-origin"
  | .omit => "omit"

def decode : Decoder Cookies := .oneOf all name

def toJson (c : Cookies) : Json := .str c.name

end Cookies

inductive BodyEncoding where
  | json
  | form
  | multipart
  | raw
deriving DecidableEq, Repr, Inhabited

namespace BodyEncoding

def all : List BodyEncoding := [json, form, multipart, raw]

def name : BodyEncoding → String
  | json => "json"
  | form => "form"
  | multipart => "multipart"
  | raw => "raw"

def decode : Decoder BodyEncoding := .oneOf all name

def toJson (e : BodyEncoding) : Json := .str e.name

end BodyEncoding

inductive Operation where
  | query
  | mutation
  | subscription
deriving DecidableEq, Repr, Inhabited

namespace Operation

def all : List Operation := [query, mutation, subscription]

def name : Operation → String
  | query => "query"
  | mutation => "mutation"
  | subscription => "subscription"

def ofName? (s : String) : Option Operation := all.find? fun o => o.name == s

def decode : Decoder Operation := .oneOf all name

def toJson (o : Operation) : Json := .str o.name

end Operation

/-- The message vocabularies of subscriptions. -/
inductive SubProtocol where
  | graphqlWs
  | transportWs
  | subscriptionsTransportWs
deriving DecidableEq, Repr, Inhabited

namespace SubProtocol

def all : List SubProtocol := [graphqlWs, transportWs, subscriptionsTransportWs]

def name : SubProtocol → String
  | graphqlWs => "graphql-ws"
  | transportWs => "graphql-transport-ws"
  | subscriptionsTransportWs => "subscriptions-transport-ws"

/-- What is offered to the server; the older two share one word. -/
def header : SubProtocol → String
  | transportWs => "graphql-transport-ws"
  | _ => "graphql-ws"

def start : SubProtocol → String
  | transportWs => "subscribe"
  | _ => "start"

def data : SubProtocol → String
  | transportWs => "next"
  | _ => "data"

def stop : SubProtocol → String
  | transportWs => "complete"
  | _ => "stop"

def decode : Decoder SubProtocol := .oneOf all name

def toJson (p : SubProtocol) : Json := .str p.name

end SubProtocol

structure DataSource where
  id : String
  name : Option String := none
  /-- Without a method, the calling action decides. -/
  method : Option Method := none
  baseUrl : Option String := none
  path : String := ""
  headers : List (String × String) := []
  queryParams : List (String × Json) := []
  body : Option Json := none
  bodyEncoding : BodyEncoding := .json
  auth : Option Credential := none
  credentials : Cookies := .sameOrigin
  retry : Option RetryPolicy := none
  timeoutMs : Option Nat := none
  operation : Option Operation := none
  query : Option String := none
  vars : Option Json := none
  protocol : Option SubProtocol := none
deriving DecidableEq, Repr, Inhabited

namespace DataSource

/-- The name by which login and logout endpoints are recognised. -/
def displayName (d : DataSource) : String := d.name.getD d.id

def decode : Decoder DataSource := .record do
  return {
    id := ← .required "id" .string
    name := ← .optional "name" .string
    method := ← .optional "method" Method.decode
    baseUrl := ← .optional "baseUrl" .string
    path := ← .withDefault ["path", "url"] "" .string
    headers := ← .withDefault ["headers"] [] (.map .string)
    queryParams := ← .withDefault ["queryParams"] [] (.map .value)
    body := ← .optional "body" .value
    bodyEncoding := ← .withDefault ["bodyEncoding"] .json BodyEncoding.decode
    auth := ← .optional "auth" Credential.decode
    credentials := ← .withDefault ["credentials"] .sameOrigin Cookies.decode
    retry := ← .optional "retry" RetryPolicy.decode
    timeoutMs := ← .optional "timeoutMs" (.natBelow 64)
    operation := ← .optional "operation" Operation.decode
    query := ← .optional "query" .string
    vars := ← .optional "variables" .value
    protocol := ← .optional "subscriptionProtocol" SubProtocol.decode }

def toJson (d : DataSource) : Json :=
  .obj [("id", .str d.id), ("name", .ofOption .str d.name),
    ("method", .ofOption Method.toJson d.method), ("baseUrl", .ofOption .str d.baseUrl),
    ("path", .str d.path), ("headers", .obj (d.headers.map fun h => (h.1, .str h.2))),
    ("queryParams", .obj d.queryParams), ("body", d.body.getD .null),
    ("bodyEncoding", d.bodyEncoding.toJson), ("auth", .ofOption Credential.toJson d.auth),
    ("credentials", d.credentials.toJson), ("retry", .ofOption RetryPolicy.toJson d.retry),
    ("timeoutMs", .ofOption .nat d.timeoutMs),
    ("operation", .ofOption Operation.toJson d.operation), ("query", .ofOption .str d.query),
    ("variables", d.vars.getD .null),
    ("subscriptionProtocol", .ofOption SubProtocol.toJson d.protocol)]

end DataSource

end ScreenFlow
