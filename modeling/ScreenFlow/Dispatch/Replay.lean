import ScreenFlow.Dispatch.Basic
import ScreenFlow.Http.Response
import ScreenFlow.Offline.Snapshot
import ScreenFlow.Process.Basic

/-!
# Replaying queued events

An event with a URL is sent as it was; it only gets the session token of the moment if its request
carried one. An event without a URL is resolved again from the registry. The response goes to the
event's place in the state.
-/

namespace ScreenFlow.Replay

inductive Ask where
  | snapshot
  | setState (path : String) (value : Json)
  /-- The live session token. -/
  | token
  | executeOnline (r : Request) (expected : Option ResponseType)

@[reducible] def Answer : Ask → Type
  | .snapshot => Json
  | .setState .. => Unit
  | .token => Option String
  | .executeOnline .. => Except Fault Response

@[reducible] def interface : Interface := ⟨Ask, Answer⟩

abbrev Operation (α : Type) := Process interface α

def ask (q : Ask) : Operation (Answer q) := Process.call (I := interface) q

/-- The registered source as the event wants it, and the body that goes with it. -/
def sourceFor (e : OfflineEvent) (source : DataSource) : DataSource × Option Json :=
  match e.kind with
  | .rest => ({ source with method := e.method.or source.method }, e.body)
  | .graphql =>
    ({ source with
        query := e.query.or source.query
        operation := (e.operation.bind Operation.ofName?).or source.operation }, e.vars)
  | .action =>
    let source := match e.operation.bind ActionKind.ofName? with
      | some kind => source.forAction kind
      | none => source
    ({ source with method := e.method.or source.method }, e.body.or e.vars)

/-- The stored headers are added where their very spelling is missing. -/
def addHeaders (r : Request) (headers : List (String × String)) : Request :=
  headers.foldl (fun r h => { r with headers := r.headers.insertNew h.1 h.2 }) r

def resolveAgain (d : Dispatcher) (e : OfflineEvent) : Operation (Except Fault Request) :=
  match d.registry.find [] e.dsId with
  | .error f => return .error f
  | .ok source => do
    let (source, body) := sourceFor e source
    let scope ← ask .snapshot
    let live ← ask .token
    let resolver : Resolver := ⟨d.translate, live⟩
    return (resolver.resolve source d.defaults scope body).map (addHeaders · (e.headers.getD []))

def request (d : Dispatcher) (e : OfflineEvent) : Operation (Except Fault Request) :=
  if e.url.isSome then return e.toRequest else resolveAgain d e

def authenticate (e : OfflineEvent) (r : Request) : Operation Request := do
  if e.sessionAuth then
    let live ← ask .token
    return (r.attachSession live).2
  else return r

/-- Executes a queued event. -/
def replay (d : Dispatcher) (e : OfflineEvent) : Operation (Except Fault Unit) := do
  match ← request d e with
  | .error f => return .error f
  | .ok r =>
    let r ← authenticate e r
    match ← ask (.executeOnline r e.responseType) with
    | .error f => return .error f
    | .ok response =>
      match e.statePath with
      | some path => ask (.setState path response.value)
      | none => pure ()
      return .ok ()

end ScreenFlow.Replay
