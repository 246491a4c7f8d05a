import ScreenFlow.Json.Record

/-!
# Request methods

The HTTP verbs, and two methods that name a protocol on top of them.
-/

namespace ScreenFlow

inductive Method where
  | get
  | post
  | put
  | patch
  | delete
  /-- A GraphQL document, posted or subscribed to. -/
  | graphql
  /-- A plain stream of frames. -/
  | websocket
deriving DecidableEq, Repr, Inhabited

namespace Method

def all : List Method := [get, post, put, patch, delete, graphql, websocket]

def name : Method → String
  | get => "GET"
  | post => "POST"
  | put => "PUT"
  | patch => "PATCH"
  | delete => "DELETE"
  | graphql => "GRAPHQL"
  | websocket => "WEBSOCKET"

/-- Whether the request changes the server, so that it is queued rather than refused offline. -/
def isMutating : Method → Bool
  | post | put | patch | delete => true
  | _ => false

def hasBody : Method → Bool
  | post | put | patch | graphql => true
  | _ => false

def decode : Decoder Method := .oneOf all name

def toJson (m : Method) : Json := .str m.name

end Method

end ScreenFlow
