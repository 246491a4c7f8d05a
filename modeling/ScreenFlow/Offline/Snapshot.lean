import ScreenFlow.Fault
import ScreenFlow.Http.Request
import ScreenFlow.Offline.Event
import ScreenFlow.Resolve.Credentials
import ScreenFlow.Resolve.Url

/-!
# Requests as queued events

A request becomes an event when it has to wait, and the event becomes a request again when it is
replayed. The session token is taken out on the way in; the query string is kept as decoded
parameters.
-/

namespace ScreenFlow

namespace QueryParams

/-- Adds one pair; a key that is there already collects its values in an array. -/
def add (params : List (String × Json)) (p : String × String) : List (String × Json) :=
  let value := match Json.lookup params p.1 with
    | some (.arr items) => .arr (items ++ [.str p.2])
    | some first => .arr [first, .str p.2]
    | none => .str p.2
  Json.insert params p.1 value

def ofQuery (query : String) : List (String × Json) := (FormFields.decode query).foldl add []

/-- A stored value as text; null is written out. -/
def text : Json → String
  | .str s => s
  | v => v.render

def pairs (params : List (String × Json)) : List (String × String) :=
  params.flatMap fun p =>
    match p.2 with
    | .null => []
    | .arr items => items.map fun v => (p.1, text v)
    | v => [(p.1, text v)]

end QueryParams

namespace RequestBody

/-- How the stored form of the body is to be read; JSON needs no mark. -/
def storedEncoding? : RequestBody → Option BodyEncoding
  | .empty | .json _ => none
  | .form _ => some .form
  | .raw _ => some .raw
  | .multipart _ => some .multipart

def malformed (what : String) : Fault := .serialization s!"queued {what} body is malformed"

def ofStored (body : Json) : BodyEncoding → Except Fault RequestBody
  | .json => .ok (.json body)
  | .form =>
    match body with
    | .obj fields => .ok (.form (fields.map fun f => (f.1, QueryParams.text f.2)))
    | _ => .error (malformed "form")
  | .raw =>
    match body with
    | .str s => .ok (.raw s)
    | _ => .error (malformed "raw")
  | .multipart =>
    match decode body with
    | some b => .ok b
    | none => .error (malformed "multipart")

end RequestBody

namespace OfflineEvent

/-- Whether the header is the bearer header of this session token. -/
def isSessionHeader (token : Option String) (h : String × String) : Bool :=
  Text.sameName h.1 authorizationHeader && token.map bearerValue == some h.2

/-- The event that stands for a request, under the session token of the moment. -/
def ofRequest (id : String) (r : Request) (token : Option String) : OfflineEvent :=
  let kept := r.headers.filter (!isSessionHeader token ·)
  let (url, query) := Url.splitQuery r.url
  let shell : OfflineEvent := {
    id, kind := .rest, dsId := r.dataSourceId
    method := some r.method
    url := some url
    queryParams := query.map QueryParams.ofQuery
    headers := if kept.isEmpty then none else some kept
    credentials := if r.credentials == .sameOrigin then none else some r.credentials
    sessionAuth := r.headers.any (isSessionHeader token) }
  match r.graphql with
  | some g => { shell with
      kind := .graphql, operation := some g.operation.name, query := some g.query,
      vars := some g.vars }
  | none => { shell with body := r.body.toValue?, encoding := r.body.storedEncoding? }

/-- The stored URL with its query parameters. -/
def fullUrl (base : String) (params : List (String × Json)) : String :=
  if params.isEmpty then base
  else base ++ (if base.toList.contains '?' then "&" else "?") ++
    FormFields.encode (QueryParams.pairs params)

/-- The request that a queued event stands for. -/
def toRequest (e : OfflineEvent) : Except Fault Request := do
  let base ← match e.url with
    | some url => .ok url
    | none => .error (.validation s!"queued event {e.id} has no URL")
  let implied : Method := if e.kind == .graphql then .graphql else .post
  let shell : Request := {
    dataSourceId := e.dsId
    method := e.method.getD implied
    url := fullUrl base (e.queryParams.getD [])
    headers := e.headers.getD []
    credentials := e.credentials.getD .sameOrigin }
  match e.kind with
  | .graphql =>
    match e.query with
    | none => .error (.validation s!"queued event {e.id} has no GraphQL query")
    | some query =>
      let call : GraphqlCall := {
        operation := (e.operation.bind Operation.ofName?).getD .mutation
        query
        vars := e.vars.getD .empty }
      return { shell with body := .json call.wireBody, graphql := some call }
  | .rest | .action =>
    match e.body with
    | none => return shell
    | some body => return { shell with body := ← RequestBody.ofStored body (e.encoding.getD .json) }

end OfflineEvent

end ScreenFlow
