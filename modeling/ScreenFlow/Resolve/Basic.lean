import ScreenFlow.Resolve.Body
import ScreenFlow.Resolve.Credentials
import ScreenFlow.Resolve.Registry
import ScreenFlow.Resolve.Url

/-!
# Resolving a data source

From a declared source and a scope to a request. A body that the caller gives replaces the declared
template; for GraphQL it is merged into the variables.
-/

namespace ScreenFlow

/-- What resolving needs besides the source: translations, and the session token of the moment. -/
structure Resolver where
  translate : Template.Translator := Template.noTranslations
  live : Option String := none

namespace DataSource

def isGraphql (d : DataSource) : Bool := d.method == some .graphql || d.query.isSome

/-- The declared method, or the one that the source's shape implies. -/
def methodFor (d : DataSource) (hasBody : Bool) : Method :=
  match d.method with
  | some m => m
  | none => if d.isGraphql then .graphql else if hasBody then .post else .get

end DataSource

namespace Resolver

def fill (r : Resolver) (scope : Json) : Json → Json := Template.resolve scope r.translate

def fillText (r : Resolver) (scope : Json) : String → String :=
  Template.resolveText scope r.translate

/-- The variables of a call: two objects are merged, otherwise the extra value wins. -/
def mergeVariables (declared extra : Json) : Json :=
  match declared, extra with
  | .obj into, .obj from_ => .obj (Json.extend into from_)
  | _, extra => extra

def graphqlCall (r : Resolver) (d : DataSource) (scope : Json) (body : Option Json) :
    Except Fault GraphqlCall :=
  match d.query with
  | none => .error (.validation s!"data source '{d.id}' has no GraphQL query")
  | some query =>
    let declared := (d.vars.map (r.fill scope)).getD .empty
    let vars := match body with
      | some extra => mergeVariables declared (r.fill scope extra)
      | none => declared
    .ok { operation := d.operation.getD .query, query, vars }

/-- The request with its target and headers, but neither body nor credential. -/
def frame (r : Resolver) (d : DataSource) (g : Defaults) (scope : Json) (method : Method)
    (url : String) : Request :=
  let base : Request := {
    dataSourceId := d.id, method, url, credentials := d.credentials,
    timeout := d.timeoutMs.or g.timeout, retry := d.retry.or g.retry, protocol := d.protocol }
  (g.headers ++ d.headers).foldl (fun q h => q.setHeader h.1 (r.fillText scope h.2)) base

def withPayload (r : Resolver) (d : DataSource) (scope : Json) (body : Option Json) (q : Request) :
    Except Fault Request :=
  if d.isGraphql then do
    let call ← r.graphqlCall d scope body
    let q := if q.method == .websocket then q
      else { q with body := .json call.wireBody }.defaultContentType "application/json"
    return { q with graphql := some call }
  else
    match body.or d.body with
    | some template =>
      if q.method.hasBody then q.withEncodedBody d.bodyEncoding (r.fill scope template) else .ok q
    | none => .ok q

def resolve (r : Resolver) (d : DataSource) (g : Defaults) (scope : Json) (body : Option Json) :
    Except Fault Request := do
  let method := d.methodFor (body.or d.body).isSome
  let url ← Url.build d g scope r.translate
  let q ← r.withPayload d scope body (r.frame d g scope method url)
  return q.authenticate d.auth g r.live (r.fillText scope)

end Resolver

end ScreenFlow
