import ScreenFlow.Dispatch.Result
import ScreenFlow.Export
import ScreenFlow.Host
import ScreenFlow.Http.Response
import ScreenFlow.Process.Basic

/-!
# Main actions

What each kind of action does. Parameters are filled in from the state of the moment, each time one is
needed.
-/

namespace ScreenFlow.Action

inductive Ask where
  /-- The state as it is now. -/
  | snapshot
  | setState (path : String) (value : Json)
  | host (c : HostCall)
  | track (name : String) (properties : Json)
  | device (kind : ActionKind) (params : Json)
  | evaluate (script : String) (scope : Json)
  /-- The live session token. -/
  | token
  | execute (r : Request) (expected : Option ResponseType)
  /-- Opens a stream whose payloads go to a state path, and gives its id. -/
  | openStream (r : Request) (target : Option String)

@[reducible] def Answer : Ask → Type
  | .snapshot => Json
  | .setState .. => Unit
  | .host _ => Except Fault Unit
  | .track .. => Unit
  | .device .. => Except Fault Json
  | .evaluate .. => Except Fault Json
  | .token => Option String
  | .execute .. => Except Fault Response
  | .openStream .. => Except Fault String

@[reducible] def interface : Interface := ⟨Ask, Answer⟩

abbrev Operation (α : Type) := Process interface α

def ask (q : Ask) : Operation (Answer q) := Process.call (I := interface) q

/-- The action of one handler in one dispatch. -/
structure Situation where
  dispatcher : Dispatcher
  invocation : Invocation
  spec : ActionSpec
  context : Context

namespace Situation

variable (s : Situation)

def scope : Operation Json := do
  let state ← ask .snapshot
  return s.context.scope state

def resolve (v : Json) : Operation Json := do
  let scope ← s.scope
  return s.dispatcher.fill scope v

/-- A parameter with its placeholders filled in. -/
def param (key : String) : Operation (Option Json) :=
  match s.spec.param? key with
  | some v => do return some (← s.resolve v)
  | none => return none

/-- The first of the parameters that is there, as text; null counts as none. -/
def paramText (keys : List String) : Operation (Option String) :=
  match keys.findSome? s.spec.param? with
  | some v => do
    let v ← s.resolve v
    return if v.isNull then none else some v.inlineText
  | none => return none

def missing (what : String) : Fault := .validation s!"{s.spec.action.name} requires {what}"

def requireText (keys : List String) (what : String) : Operation (Except Fault String) := do
  match (← s.paramText keys).filter (!·.isEmpty) with
  | some text => return .ok text
  | none => return .error (s.missing what)

/-- All parameters as one object. -/
def params : Operation Json := s.resolve (.obj s.spec.params)

/-! ### The screen -/

def navigate : Operation (Except Fault Json) := do
  match ← s.requireText ["href", "path", "url", "to"] "an href" with
  | .error f => return .error f
  | .ok href =>
    let replace := ((← s.param "replace").bind Json.bool?).getD false
    let _ ← ask (.host (.navigate href replace))
    return .ok (.obj [("href", .str href), ("replace", .bool replace)])

def toggleModal (open_ : Bool) : Operation (Except Fault Json) := do
  match ← s.requireText ["modalId", "modal", "id"] "a modal id" with
  | .error f => return .error f
  | .ok id =>
    let _ ← ask (.host (if open_ then .openModal id else .closeModal id))
    return .ok (.obj [("modalId", .str id)])

def toast : Operation (Except Fault Json) := do
  match ← s.requireText ["message", "text"] "a message" with
  | .error f => return .error f
  | .ok message =>
    let variant := ((← s.paramText ["variant", "type"]).map ToastVariant.ofName).getD .info
    let _ ← ask (.host (.toast message variant))
    return .ok (.str message)

/-! ### State and scripts -/

def updateState : Operation (Except Fault Json) := do
  match ← s.requireText ["path", "statePath", "key"] "a state path" with
  | .error f => return .error f
  | .ok path =>
    let value := (← s.param "value").getD .null
    ask (.setState path value)
    return .ok value

/-- The script is taken as it is written; it sees the scope. -/
def runScript : Operation (Except Fault Json) := do
  match (s.spec.paramText? "script").or (s.spec.paramText? "code") with
  | none => return .error (s.missing "a script")
  | some script =>
    match ← ask (.evaluate script (← s.scope)) with
    | .error f => return .error f
    | .ok value =>
      match ← s.paramText ["path", "statePath"] with
      | some path => ask (.setState path value)
      | none => pure ()
      return .ok value

/-! ### Requests -/

/-- The request of the action, with a body that is laid over the declared one. -/
def request (body : Option Json) : Operation (Except Fault Request) :=
  match s.spec.dataSourceId with
  | none => return .error (s.missing "a dataSourceId")
  | some id =>
    match s.dispatcher.registry.find s.invocation.own id with
    | .error f => return .error f
    | .ok source => do
      let scope ← s.scope
      let live ← ask .token
      let resolver : Resolver := ⟨s.dispatcher.translate, live⟩
      return resolver.resolve (source.forAction s.spec.action) s.dispatcher.defaults scope body

def send (body : Option Json) : Operation (Except Fault Json) := do
  match ← s.request body with
  | .error f => return .error f
  | .ok r =>
    match ← ask (.execute r (s.spec.response.bind (·.responseType))) with
    | .error f => return .error f
    | .ok response =>
      match response.queued with
      | some id => return .ok (Result.queued id)
      | none => return .ok response.value

/-- The body that the parameters give. -/
def requestBody : Operation (Option Json) :=
  match s.spec.action with
  | .graphql | .graphqlMutation => s.param "variables"
  | .aiGenerate => do
    match ← s.param "body" with
    | some body => return some body
    | none => return some (← s.params)
  | _ => s.param "body"

def callSource : Operation (Except Fault Json) := do
  let body ← s.requestBody
  s.send body

/-- Tracks the parameters, and posts them as well if there is a data source. -/
def audit : Operation (Except Fault Json) := do
  let entry := match ← s.params with
    | .obj fields => Json.obj (Json.insert fields "invocationId" (.str s.invocation.id))
    | v => v
  let name := (← s.paramText ["event"]).getD "audit_log"
  ask (.track name entry)
  if s.spec.dataSourceId.isSome then s.send (some entry) else return .ok entry

/-- Where the payloads of a stream go. -/
def streamTarget : Operation (Option String) :=
  match s.spec.response.bind (·.statePath) with
  | some template => do return some (s.dispatcher.fillText (← s.scope) template)
  | none => s.paramText ["statePath"]

def subscribe : Operation (Except Fault Json) :=
  if !s.dispatcher.streaming then
    return .error (.unsupported "no subscription manager configured")
  else do
    let vars ← s.param "variables"
    match ← s.request vars with
    | .error f => return .error f
    | .ok r =>
      let target ← s.streamTarget
      match ← ask (.openStream r target) with
      | .error f => return .error f
      | .ok id => return .ok (.obj [("subscriptionId", .str id)])

/-! ### Exports and devices -/

def exportFile (filename contentType content : String) (rows : Nat) :
    Operation (Except Fault Json) := do
  match ← ask (.host (.download filename contentType (Utf8.encode content))) with
  | .error f => return .error f
  | .ok () => return .ok (.obj [("filename", .str filename), ("rows", .nat rows)])

def exportJson : Operation (Except Fault Json) := do
  match ← s.param "data" with
  | none => return .error (s.missing "data")
  | some data =>
    let filename := (← s.paramText ["filename"]).getD "export.json"
    let rows := match data with
      | .arr items => items.length
      | _ => 1
    exportFile filename "application/json" data.pretty rows

def columnNames : Option Json → Option (List String)
  | some (.arr names) => some (names.filterMap Json.str?)
  | _ => none

def exportCsv : Operation (Except Fault Json) := do
  match ← s.param "data" with
  | none => return .error (s.missing "data")
  | some data =>
    let filename := (← s.paramText ["filename"]).getD "export.csv"
    match data with
    | .arr rows =>
      let columns := (columnNames (← s.param "columns")).getD (Csv.columns rows)
      exportFile filename "text/csv;charset=utf-8" (Csv.table columns rows) rows.length
    | _ => return .error (.validation "export_csv data must be a list")

def useDevice : Operation (Except Fault Json) := do
  let params ← s.params
  ask (.device s.spec.action params)

/-- Performs the main action. -/
def perform : Operation (Except Fault Json) :=
  match s.spec.action with
  | .navigation => s.navigate
  | .openModal => s.toggleModal true
  | .closeModal => s.toggleModal false
  | .updateState => s.updateState
  | .runScript => s.runScript
  | .toast => s.toast
  | .apiCall | .crudCreate | .crudRead | .crudUpdate | .crudDelete | .aiGenerate | .graphql
  | .graphqlMutation => s.callSource
  | .graphqlSubscription => s.subscribe
  | .auditLog => s.audit
  | .exportCsv => s.exportCsv
  | .exportJson => s.exportJson
  | .voiceCommand | .initiateCall | .walletConnect | .walletSign => s.useDevice

end Situation

end ScreenFlow.Action
