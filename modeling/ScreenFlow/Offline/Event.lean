import ScreenFlow.DataSource
import ScreenFlow.Handler.Response

/-!
# Queued events

A mutating operation that waits for connectivity, kept as a snapshot of its request. The URL stands
without its query; `sessionAuth` says that the request carried the session token, which is not kept.
-/

namespace ScreenFlow

inductive EventKind where
  | action
  | rest
  | graphql
deriving DecidableEq, Repr, Inhabited

namespace EventKind

def all : List EventKind := [action, rest, graphql]

def name : EventKind → String
  | action => "action"
  | rest => "rest"
  | graphql => "graphql"

/-- The kind as a heading. -/
def title : EventKind → String
  | action => "Action"
  | rest => "Rest"
  | graphql => "Graphql"

def decode : Decoder EventKind := .oneOf all name

def toJson (k : EventKind) : Json := .str k.name

end EventKind

structure OfflineEvent where
  id : String
  kind : EventKind
  dsId : String
  operation : Option String := none
  query : Option String := none
  method : Option Method := none
  url : Option String := none
  vars : Option Json := none
  body : Option Json := none
  encoding : Option BodyEncoding := none
  queryParams : Option (List (String × Json)) := none
  headers : Option (List (String × String)) := none
  credentials : Option Cookies := none
  sessionAuth : Bool := false
  statePath : Option String := none
  responseType : Option ResponseType := none
  /-- The stamp that orders the queue. -/
  createdAt : Int := 0
deriving DecidableEq, Repr, Inhabited

namespace OfflineEvent

def decode : Decoder OfflineEvent := .record do
  return {
    id := ← .required "id" .string
    kind := ← .required "kind" EventKind.decode
    dsId := ← .required "dsId" .string
    operation := ← .optional "operation" .string
    query := ← .optional "query" .string
    method := ← .optional "method" Method.decode
    url := ← .optional "url" .string
    vars := ← .optional "variables" .value
    body := ← .optional "body" .value
    encoding := ← .optional "encoding" BodyEncoding.decode
    queryParams := ← .optional "queryParams" (.map .value)
    headers := ← .optional "headers" (.map .string)
    credentials := ← .optional "credentials" Cookies.decode
    sessionAuth := ← .withDefault ["sessionAuth"] false .bool
    statePath := ← .optional "statePath" .string
    responseType := ← .optional "responseType" ResponseType.decode
    createdAt := ← .withDefault ["createdAt"] 0 .int64 }

/-- A field that is left out when it has nothing to say. -/
def field {α : Type} (name : String) (f : α → Json) (a : Option α) : List (String × Json) :=
  a.toList.map fun a => (name, f a)

def toJson (e : OfflineEvent) : Json :=
  .obj ([("id", .str e.id), ("kind", e.kind.toJson), ("dsId", .str e.dsId)] ++
    field "operation" .str e.operation ++ field "query" .str e.query ++
    field "method" Method.toJson e.method ++ field "url" .str e.url ++
    field "variables" (fun v => v) e.vars ++ field "body" (fun v => v) e.body ++
    field "encoding" BodyEncoding.toJson e.encoding ++
    field "queryParams" .obj e.queryParams ++
    field "headers" (fun hs => .obj (hs.map fun h => (h.1, .str h.2))) e.headers ++
    field "credentials" Cookies.toJson e.credentials ++
    (if e.sessionAuth then [("sessionAuth", .bool true)] else []) ++
    field "statePath" .str e.statePath ++ field "responseType" ResponseType.toJson e.responseType ++
    [("createdAt", .int e.createdAt)])

end OfflineEvent

end ScreenFlow
