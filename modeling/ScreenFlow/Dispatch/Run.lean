import ScreenFlow.Dispatch.Report
import ScreenFlow.Dispatch.Result
import ScreenFlow.Host
import ScreenFlow.Process.Basic

/-!
# Running a handler

A handler runs its before-handlers, its main action, the branch that the outcome chooses, and its
finally-handlers. A sub-handler that fails has handled that itself and does not stop its siblings. A
cancellation stops everything that is left; while the main action is under way it is cut short.
-/

namespace ScreenFlow.Dispatch

inductive Ask where
  /-- Whether the dispatch has been cancelled. -/
  | cancelled
  /-- Performs a main action, unless the cancellation comes first. -/
  | act (spec : ActionSpec) (context : Context)
  | snapshot
  | setState (path : String) (value : Json)
  | host (c : HostCall)
  | evaluate (script : String) (input : Json)
  /-- Begins a session and tells whether that succeeded. -/
  | logIn (t : LoginTokens)
  | logOut (toLogin : Bool)

@[reducible] def Answer : Ask → Type
  | .cancelled => Bool
  | .act .. => Except Fault Json
  | .snapshot => Json
  | .setState .. => Unit
  | .host _ => Unit
  | .evaluate .. => Except Fault Json
  | .logIn _ => Bool
  | .logOut _ => Unit

@[reducible] def interface : Interface := ⟨Ask, Answer⟩

abbrev Operation (α : Type) := Process interface α

def ask (q : Ask) : Operation (Answer q) := Process.call (I := interface) q

/-- What the run of one handler comes to. -/
structure Run where
  phases : List Phase
  result : Except Fault Json

namespace Run

def cancelled (visited : List Phase) : Run := ⟨visited ++ [.done], .error .cancelled⟩

end Run

def scope (c : Context) : Operation Json := do
  let state ← ask .snapshot
  return c.scope state

/-- Applies patches in order, each one to the state that the ones before it left. -/
def applyPatches (d : Dispatcher) (c : Context) : List StatePatch → Operation Unit
  | [] => return
  | p :: ps => do
    let scope ← scope c
    ask (.setState (d.fillText scope p.path) (d.fill scope p.value))
    applyPatches d c ps

def host (c : Option HostCall) : Operation Unit :=
  match c with
  | some c => ask (.host c)
  | none => return

def applyTransition (d : Dispatcher) (c : Context) (t : Transition) : Operation Unit := do
  applyPatches d c t.setState
  let scope ← scope c
  host (t.closeModal.map fun id => .closeModal (d.fillText scope id))
  host (t.openModal.map fun id => .openModal (d.fillText scope id))
  host (t.navigate.map fun n => .navigate (d.fillText scope n.href) n.replace)

def transition (d : Dispatcher) (c : Context) : Option Transition → Operation Unit
  | some t => applyTransition d c t
  | none => return

/-! ### The result -/

/-- The result as the handler wants it. A mapping that fails never fails the action. -/
def mapResult (m : Option ResultMapping) (v : Json) : Operation Json :=
  match m with
  | none => return v
  | some (.paths ps) => return Result.pick ps v
  | some (.script script) => do
    let state ← ask .snapshot
    match ← ask (.evaluate script (.obj [("result", v), ("state", state)])) with
    | .ok mapped => return mapped
    | .error f => return Result.unmapped f

/-- Maps the result and writes it to its place in the state. Streams and queued requests have no result
of that kind. -/
def bindResult (d : Dispatcher) (spec : ActionSpec) (c : Context) (v : Json) : Operation Json :=
  match spec.response with
  | none => return v
  | some response =>
    if spec.action == .graphqlSubscription || Result.isQueued v then return v
    else do
      let mapped ← mapResult response.mapping v
      match response.statePath with
      | none => return mapped
      | some template =>
        let scope ← scope c
        ask (.setState (Result.targetPath (d.fillText scope template) c.event? scope) mapped)
        return mapped

/-- Begins or ends the session if the request was a login or a logout. -/
def updateSession (d : Dispatcher) (i : Invocation) (spec : ActionSpec) (v : Json) : Operation Unit :=
  if !d.hasSession then return
  else
    match SessionEffect.ofAction spec (d.sourceName i spec) with
    | .none => return
    | .logout => do
      ask (.logOut (i.requiresAuth && d.settings.postLogoutRedirect.isNone))
      host (d.settings.postLogoutRedirect.map fun href => .navigate href true)
    | .login =>
      match LoginTokens.ofResult? v with
      | none => return
      | some tokens => do
        if ← ask (.logIn tokens) then
          host (d.settings.postLoginRedirect.map fun href => .navigate href true)

/-- What is said about a success. A request that waits in the queue has not come to anything yet. -/
def confirmation (d : Dispatcher) (spec : ActionSpec) (c : Context) (v : Json) :
    Operation (Option String) :=
  match spec.successMessage with
  | some template => do return some (d.fillText (← scope c) template)
  | none => return if Result.isQueued v then none else spec.action.successMessage?

/-- What follows a success, up to the success handlers: the result, and the context with it. -/
def succeed (d : Dispatcher) (i : Invocation) (spec : ActionSpec) (c : Context) (v : Json) :
    Operation (Json × Context) := do
  let v ← bindResult d spec c v
  updateSession d i spec v
  let c := c.set "result" v
  let message ← confirmation d spec c v
  host (message.map fun m => .toast m .success)
  return (v, c)

def errorValue (info : FaultInfo) : Json :=
  .obj [("message", .str info.message), ("status", .ofOption .nat info.status)]

/-- What follows a failure, up to the error handlers: the context with the error. -/
def fail (d : Dispatcher) (spec : ActionSpec) (c : Context) (f : Fault) : Operation Context := do
  let info := FaultInfo.ofFault f
  let c := c.set "error" (errorValue info)
  if d.settings.errorToast then
    let message ← match spec.errorMessage with
      | some template => do pure (d.fillText (← scope c) template)
      | none => pure info.message
    ask (.host (.toast message .error))
  return c

/-- The main action, unless the dispatch has been cancelled. -/
def main (spec : ActionSpec) (c : Context) : Operation (Except Fault Json) := do
  if ← ask .cancelled then return .error .cancelled
  ask (.act spec c)

def tooDeep (d : Dispatcher) : Run :=
  ⟨[.idle, .done], .error (.validation s!"handler nesting exceeds {d.settings.maxDepth} levels")⟩

/-! ### The tree -/

mutual

/-- Runs a handler that nests `depth` deep. -/
def run (d : Dispatcher) (i : Invocation) (c : Context) (depth : Nat) : EventHandler → Operation Run
  | .node spec before success error finally_ => do
    if d.settings.maxDepth < depth then return tooDeep d
    let visited := if before.isEmpty then [Phase.idle] else [.idle, .before]
    if !(← runAll d i c depth false before) then return .cancelled visited
    applyPatches d c spec.optimistic
    let visited := visited ++ [.executing]
    match ← main spec c with
    | .error .cancelled => return .cancelled visited
    | .ok v =>
      let visited := visited ++ [.success]
      let (v, c) ← succeed d i spec c v
      if !(← runAll d i c depth false success) then return .cancelled visited
      transition d c spec.successTransition
      let visited := visited ++ [.finally_]
      if !(← runAll d i c depth false finally_) then return .cancelled visited
      return ⟨visited ++ [.done], .ok v⟩
    | .error f =>
      let visited := visited ++ [.error]
      let c ← fail d spec c f
      if !(← runAll d i c depth false error) then return .cancelled visited
      transition d c spec.errorTransition
      let visited := visited ++ [.finally_]
      if !(← runAll d i c depth true finally_) then return .cancelled visited
      return ⟨visited ++ [.done], .error f⟩

/-- Runs sub-handlers in order and tells whether they got through without a cancellation. With
`staying`, navigations are left out, so that the user stays where the error is shown. -/
def runAll (d : Dispatcher) (i : Invocation) (c : Context) (depth : Nat) (staying : Bool) :
    List EventHandler → Operation Bool
  | [] => return true
  | h :: hs => do
    if ← ask .cancelled then return false
    if staying && h.action == .navigation then runAll d i c depth staying hs
    else
      match (← run d i c (depth + 1) h).result with
      | .error .cancelled => return false
      | _ => runAll d i c depth staying hs

end

/-- Runs a top-level handler. -/
def dispatch (d : Dispatcher) (i : Invocation) (h : EventHandler) (payload : Json) :
    Operation Report := do
  let r ← run d i (Context.ofEvent payload) 1 h
  return ⟨i.id, r.phases, .ofResult r.result⟩

/-- What is tracked about a dispatch. -/
def telemetryName : String := "action_dispatched"

def telemetry (h : EventHandler) (r : Report) : Json :=
  .obj [("action", h.action.toJson), ("invocationId", .str r.invocation),
    ("outcome", .str r.outcome.name)]

end ScreenFlow.Dispatch
