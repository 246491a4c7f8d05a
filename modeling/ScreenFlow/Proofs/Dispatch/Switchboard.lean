import ScreenFlow.Proofs.Dispatch.Cancelling
import ScreenFlow.Proofs.Dispatch.Registry
import ScreenFlow.Proofs.Process.Standing
import ScreenFlow.Simulation.Dispatching

/-!
# Dispatches side by side

Several dispatches of one dispatcher, with the calls that cancel them and the ends of the streams that
they opened, in any order. A dispatch registers itself, asks what its handler asks, and unregisters
itself; whatever the handler asks, others may go on before it is answered.

* `State`: the registry with its signals, and the streams opened so far;
* `body`: the process of a call;
* `Stands`, `stands_of_reachable`: where the process of a call can stand;
* `Moves`, `moves_of_step`: what one step of a pool can be;
* `run_cancel`, `run_dispatch`: a world keeps its registry in the same way.
-/

namespace ScreenFlow.Switchboard

/-! ### State -/

/-- A stream that was opened. -/
structure Stream where
  /-- The invocation that opened it. -/
  id : String
  signal : SignalId
  /-- Whether its listener has seen its end. -/
  ended : Bool := false
  /-- Whether another stream of its invocation has been open together with it. -/
  met : Bool := false
deriving DecidableEq, Repr

structure State where
  active : Active := {}
  signals : Signals := {}
  streams : List Stream := []

namespace State

/-- Whether a signal has been fired. The signals here have no time to fire at. -/
def holds (s : State) (n : SignalId) : Bool := s.signals.holds 0 n

/-- Neither ended nor cancelled. -/
def isOpen (s : State) (o : Stream) : Bool := !o.ended && !s.holds o.signal

/-- Registers a dispatch; the answer is its signal. -/
def enter (s : State) (id : String) : SignalId × State :=
  let (n, signals) := s.signals.create none
  (n, { s with active := s.active.start id n, signals })

def leave (s : State) (id : String) : State := { s with active := s.active.finish id }

def cancel (s : State) (id : String) : Bool × State :=
  let (ns, active) := s.active.cancel id
  (!ns.isEmpty, { s with active, signals := s.signals.fireAll ns })

def cancelAll (s : State) : State :=
  let (ns, active) := s.active.cancelAll
  { s with active, signals := s.signals.fireAll ns }

/-- Marks the open streams of an invocation as having met another one. -/
def meet (s : State) (id : String) : List Stream :=
  s.streams.map fun o => if o.id == id && s.isOpen o then { o with met := true } else o

/-- Registers a new stream of an invocation. -/
def openStream (s : State) (id : String) : State :=
  let (n, signals) := s.signals.create none
  let met := s.streams.any fun o => o.id == id && s.isOpen o
  { active := s.active.openStream id n, signals
    streams := s.meet id ++ [{ id, signal := n, met }] }

/-- The listener of a stream has seen its end, and lets go of it. -/
def close (s : State) (k : Nat) : State :=
  match s.streams[k]? with
  | some o =>
    if o.ended then s
    else
      { active := s.active.endStream o.id, signals := s.signals.fire o.signal
        streams := s.streams.set k { o with ended := true } }
  | none => s

end State

/-! ### Calls -/

inductive Call where
  | dispatch (i : Invocation) (h : EventHandler) (payload : Json)
  | cancel (id : String)
  | cancelAll
  /-- The end of the stream that was opened as the `k`-th one. -/
  | close (k : Nat)

inductive Outcome where
  | reported (r : Report)
  | found (b : Bool)
  | settled

inductive Ask where
  | enter (id : String)
  /-- What the handler asks of a dispatch, which has this signal. -/
  | handler (id : String) (signal : SignalId) (q : Dispatch.Ask)
  | leave (id : String)
  | cancel (id : String)
  | cancelAll
  | close (k : Nat)

@[reducible] def Answer : Ask → Type
  | .enter _ => SignalId
  | .handler _ _ q => Dispatch.Answer q
  | .leave _ => Unit
  | .cancel _ => Bool
  | .cancelAll => Unit
  | .close _ => Unit

@[reducible] def interface : Interface := ⟨Ask, Answer⟩

abbrev Operation (α : Type) := Process interface α

/-- A dispatch from here on, which is registered with this signal. -/
def serving (id : String) (signal : SignalId) : Dispatch.Operation Report → Operation Outcome
  | .done r => .ask (.leave id) fun _ => .done (.reported r)
  | .ask q next => .ask (.handler id signal q) fun x => serving id signal (next x)

def body (d : Dispatcher) : Call → Operation Outcome
  | .dispatch i h payload =>
    .ask (.enter i.id) fun signal => serving i.id signal (Dispatch.dispatch d i h payload)
  | .cancel id => .ask (.cancel id) fun found => .done (.found found)
  | .cancelAll => .ask .cancelAll fun _ => .done .settled
  | .close k => .ask (.close k) fun _ => .done .settled

/-- Whether a main action of this kind opens a stream when it comes out like this. -/
def Opens (spec : ActionSpec) (result : Except Fault Json) : Prop :=
  spec.action = .graphqlSubscription ∧ ∃ v, result = .ok v

/-- What a handler can be answered. A main action comes to nothing when its dispatch has been
cancelled; otherwise it comes out anyhow, and may have opened a stream. -/
def HandlerAnswers (s : State) (id : String) (signal : SignalId) :
    (q : Dispatch.Ask) → Dispatch.Answer q → State → Prop
  | .cancelled, stopped, s' => stopped = s.holds signal ∧ s' = s
  | .act spec _, result, s' =>
    if s.holds signal then result = .error .cancelled ∧ s' = s
    else s' = s ∨ Opens spec result ∧ s' = s.openStream id
  | _, _, s' => s' = s

/-- An answer to the handler leaves the registry as it is, unless it opens a stream for a dispatch that
has not been cancelled. -/
theorem HandlerAnswers.state {s s' : State} {id : String} {signal : SignalId} {q : Dispatch.Ask}
    {x : Dispatch.Answer q} (answer : HandlerAnswers s id signal q x s') :
    s' = s ∨ s.holds signal = false ∧ s' = s.openStream id := by
  cases q with
  | cancelled => exact .inl answer.2
  | act spec c =>
    by_cases fired : s.holds signal = true
    · have cut : x = .error .cancelled ∧ s' = s := by simpa [HandlerAnswers, fired] using answer
      exact .inl cut.2
    · have open_ : s' = s ∨ Opens spec x ∧ s' = s.openStream id := by
        simpa [HandlerAnswers, fired] using answer
      exact open_.imp_right fun opened => ⟨Bool.eq_false_iff.mpr fired, opened.2⟩
  | _ => exact .inl answer

/-- What the handler of a cancelled dispatch is told. -/
theorem HandlerAnswers.told {s s' : State} {id : String} {signal : SignalId} {q : Dispatch.Ask}
    {x : Dispatch.Answer q} (answer : HandlerAnswers s id signal q x s')
    (fired : s.holds signal = true) : Dispatch.Told q x ∧ s' = s := by
  cases q with
  | cancelled => exact ⟨answer.1.trans fired, answer.2⟩
  | act spec c =>
    have cut : x = .error .cancelled ∧ s' = s := by simpa [HandlerAnswers, fired] using answer
    exact cut
  | _ => exact ⟨trivial, answer⟩

/-- Every question of a handler has an answer. -/
theorem exists_handlerAnswers (s : State) (id : String) (signal : SignalId) (q : Dispatch.Ask) :
    ∃ x, HandlerAnswers s id signal q x s := by
  cases q with
  | cancelled => exact ⟨s.holds signal, rfl, rfl⟩
  | act spec c => exact ⟨.error .cancelled, by simp [HandlerAnswers]⟩
  | snapshot => exact ⟨.null, rfl⟩
  | setState | host | logOut => exact ⟨(), rfl⟩
  | evaluate => exact ⟨.ok .null, rfl⟩
  | logIn => exact ⟨true, rfl⟩

def Answers (s : State) : (q : Ask) → Answer q → State → Prop
  | .enter id, signal, s' => signal = (s.enter id).1 ∧ s' = (s.enter id).2
  | .handler id signal q, x, s' => HandlerAnswers s id signal q x s'
  | .leave id, _, s' => s' = s.leave id
  | .cancel id, found, s' => found = (s.cancel id).1 ∧ s' = (s.cancel id).2
  | .cancelAll, _, s' => s' = s.cancelAll
  | .close k, _, s' => s' = s.close k

/-- A dispatch that is abandoned unregisters itself as well. -/
def surroundings : Surroundings interface State where
  suspends
    | .handler .. => true
    | _ => false
  answers := Answers
  undo
    | .enter id, _ => some (·.leave id)
    | _, _ => none

/-! ### Where the process of a call stands -/

/-- A question of the handler and its answer, as the dispatch asks and is answered. -/
def within (id : String) (signal : SignalId) (e : Happening Dispatch.interface) :
    Happening interface :=
  ⟨.handler id signal e.question, e.answer⟩

/-- What a dispatch has been answered so far, from what its handler has been. -/
def past (id : String) (signal : SignalId) (history : List (Happening Dispatch.interface)) :
    List (Happening interface) :=
  ⟨.enter id, signal⟩ :: history.map (within id signal)

theorem past_append (id : String) (signal : SignalId)
    (history : List (Happening Dispatch.interface)) (e : Happening Dispatch.interface) :
    past id signal history ++ [within id signal e] = past id signal (history ++ [e]) := by
  simp [past]

variable {d : Dispatcher} {s s' : State}

/-- A dispatch goes on to its next question, or to its end. -/
theorem runs_serving_iff {id : String} {signal : SignalId} {o : Dispatch.Operation Report}
    {pre pre' : List (Happening interface)} {r : Operation Outcome} :
    surroundings.Runs s (serving id signal o) pre s' r pre' ↔
      (∃ q next, o = .ask q next ∧ s' = s ∧ r = serving id signal o ∧ pre' = pre) ∨
      ∃ report, o = .done report ∧ s' = s.leave id ∧ r = .done (.reported report) ∧
        pre' = pre ++ [⟨.leave id, ()⟩] := by
  cases o with
  | ask q next =>
    rw [serving, Surroundings.runs_suspended_iff rfl]
    constructor
    · rintro ⟨rfl, rfl, rfl⟩
      exact .inl ⟨q, next, rfl, rfl, rfl, rfl⟩
    · rintro (⟨q', next', -, rfl, rfl, rfl⟩ | ⟨report, done, -⟩)
      · exact ⟨rfl, rfl, rfl⟩
      · cases done
  | done report =>
    rw [serving, Surroundings.runs_answered_iff rfl]
    constructor
    · rintro ⟨⟨⟩, s₁, rfl, rest⟩
      obtain ⟨rfl, rfl, rfl⟩ := Surroundings.runs_done_iff.mp rest
      exact .inr ⟨report, rfl, rfl, rfl, rfl⟩
    · rintro (⟨q, next, asks, -⟩ | ⟨report', done, rfl, rfl, rfl⟩)
      · cases asks
      · cases done
        exact ⟨(), _, rfl, Surroundings.runs_done_iff.mpr ⟨rfl, rfl, rfl⟩⟩

def Call.isDispatch : Call → Bool
  | .dispatch .. => true
  | _ => false

/-- Where the process of a call can stand. -/
inductive Stands (d : Dispatcher) : Thread interface Call Outcome → Prop
  /-- The handler waits for an answer. -/
  | waiting {i : Invocation} {h : EventHandler} {payload : Json} {signal : SignalId}
      {history : List (Happening Dispatch.interface)} {q : Dispatch.Ask}
      {next : Dispatch.Answer q → Dispatch.Operation Report} {abandoned : Bool}
      (comes : (Dispatch.dispatch d i h payload).Comes history (.ask q next)) :
      Stands d ⟨.dispatch i h payload, serving i.id signal (.ask q next),
        past i.id signal history, abandoned⟩
  /-- The dispatch has reported. -/
  | reported {i : Invocation} {h : EventHandler} {payload : Json} {signal : SignalId}
      {history : List (Happening Dispatch.interface)} {r : Report}
      (ends : (Dispatch.dispatch d i h payload).Ends history r) :
      Stands d ⟨.dispatch i h payload, .done (.reported r),
        past i.id signal history ++ [⟨.leave i.id, ()⟩], false⟩
  /-- Another call is done at once. -/
  | settled {c : Call} {o : Outcome} {pre : List (Happening interface)}
      (other : c.isDispatch = false) : Stands d ⟨c, .done o, pre, false⟩

/-- A dispatch goes on from where it comes to. -/
theorem Stands.of_runs {i : Invocation} {h : EventHandler} {payload : Json} {signal : SignalId}
    {history : List (Happening Dispatch.interface)} {o : Dispatch.Operation Report}
    {r : Operation Outcome} {pre : List (Happening interface)}
    (comes : (Dispatch.dispatch d i h payload).Comes history o)
    (runs : surroundings.Runs s (serving i.id signal o) (past i.id signal history) s' r pre) :
    Stands d ⟨.dispatch i h payload, r, pre, false⟩ := by
  rcases runs_serving_iff.mp runs with ⟨q, next, rfl, -, rfl, rfl⟩ | ⟨report, rfl, -, rfl, rfl⟩
  · exact .waiting comes
  · exact .reported (Process.comes_done_iff.mp comes)

/-! ### Steps -/

/-- What a call that is no dispatch makes of the state. -/
def Call.change (s : State) : Call → State
  | .dispatch .. => s
  | .cancel id => (s.cancel id).2
  | .cancelAll => s.cancelAll
  | .close k => s.close k

/-- How a dispatch in flight goes on. -/
inductive Goes (d : Dispatcher) (s : State) :
    Thread interface Call Outcome → State → Thread interface Call Outcome → Prop
  /-- The handler gets an answer. -/
  | answered {i : Invocation} {h : EventHandler} {payload : Json} {signal : SignalId}
      {history : List (Happening Dispatch.interface)} {q : Dispatch.Ask}
      {next : Dispatch.Answer q → Dispatch.Operation Report}
      (comes : (Dispatch.dispatch d i h payload).Comes history (.ask q next))
      (x : Dispatch.Answer q) {s₁ s' : State} (answer : HandlerAnswers s i.id signal q x s₁)
      {r : Operation Outcome} {pre : List (Happening interface)}
      (runs : surroundings.Runs s₁ (serving i.id signal (next x))
        (past i.id signal (history ++ [⟨q, x⟩])) s' r pre) :
      Goes d s ⟨.dispatch i h payload, serving i.id signal (.ask q next),
        past i.id signal history, false⟩ s' ⟨.dispatch i h payload, r, pre, false⟩
  /-- The dispatch is abandoned. -/
  | abandoned {i : Invocation} {h : EventHandler} {payload : Json} {signal : SignalId}
      {history : List (Happening Dispatch.interface)} {q : Dispatch.Ask}
      {next : Dispatch.Answer q → Dispatch.Operation Report}
      (comes : (Dispatch.dispatch d i h payload).Comes history (.ask q next)) :
      Goes d s ⟨.dispatch i h payload, serving i.id signal (.ask q next),
        past i.id signal history, false⟩ (s.leave i.id)
        ⟨.dispatch i h payload, serving i.id signal (.ask q next), past i.id signal history, true⟩

/-- One step of a pool in which every call stands where it can. -/
inductive Moves (d : Dispatcher) :
    Pool interface State Call Outcome → Pool interface State Call Outcome → Prop
  /-- A dispatch begins. -/
  | enters {p : Pool interface State Call Outcome} (i : Invocation) (h : EventHandler)
      (payload : Json) {s' : State} {r : Operation Outcome} {pre : List (Happening interface)}
      (runs : surroundings.Runs (p.state.enter i.id).2
        (serving i.id (p.state.enter i.id).1 (Dispatch.dispatch d i h payload))
        (past i.id (p.state.enter i.id).1 []) s' r pre) :
      Moves d p ⟨s', p.threads ++ [⟨.dispatch i h payload, r, pre, false⟩]⟩
  /-- Another call comes and is done. -/
  | calls {p : Pool interface State Call Outcome} (c : Call) (other : c.isDispatch = false)
      {o : Outcome} {pre : List (Happening interface)} :
      Moves d p ⟨c.change p.state, p.threads ++ [⟨c, .done o, pre, false⟩]⟩
  /-- A dispatch goes on. -/
  | goes {p : Pool interface State Call Outcome} {k : Nat}
      {t t' : Thread interface Call Outcome} {s' : State} (here : p.threads[k]? = some t)
      (goes : Goes d p.state t s' t') : Moves d p ⟨s', p.threads.set k t'⟩

theorem undone_past (id : String) (signal : SignalId)
    (history : List (Happening Dispatch.interface)) :
    surroundings.undone (past id signal history) s = s.leave id := by
  have none : (history.map (within id signal)).filterMap
      (fun e => surroundings.undo e.question e.answer) = [] := by
    simp [within, surroundings]
  rw [Surroundings.undone, past, List.filterMap_cons, none]
  rfl

theorem moves_of_step {p p' : Pool interface State Call Outcome}
    (stands : ∀ t ∈ p.threads, Stands d t) (step : surroundings.Step (body d) p p') :
    Moves d p p' := by
  cases step with
  | begin c runs =>
    cases c with
    | dispatch i h payload =>
      obtain ⟨signal, s₁, ⟨rfl, rfl⟩, rest⟩ := (Surroundings.runs_answered_iff rfl).mp runs
      exact .enters i h payload rest
    | cancel id =>
      obtain ⟨found, s₁, ⟨rfl, rfl⟩, rest⟩ := (Surroundings.runs_answered_iff rfl).mp runs
      obtain ⟨rfl, rfl, rfl⟩ := Surroundings.runs_done_iff.mp rest
      exact .calls (.cancel id) rfl
    | cancelAll =>
      obtain ⟨⟨⟩, s₁, rfl, rest⟩ := (Surroundings.runs_answered_iff rfl).mp runs
      obtain ⟨rfl, rfl, rfl⟩ := Surroundings.runs_done_iff.mp rest
      exact .calls .cancelAll rfl
    | close k =>
      obtain ⟨⟨⟩, s₁, rfl, rest⟩ := (Surroundings.runs_answered_iff rfl).mp runs
      obtain ⟨rfl, rfl, rfl⟩ := Surroundings.runs_done_iff.mp rest
      exact .calls (.close k) rfl
  | resume resumes =>
    cases resumes with
    | mk here live waits ha runs =>
      cases stands _ (List.mem_of_getElem? here) with
      | waiting comes =>
        subst live
        cases waits
        refine .goes here (.answered comes _ ha ?_)
        rw [← past_append]
        exact runs
      | reported ends => cases waits
      | settled => cases waits
  | abandon here live waits =>
    cases stands _ (List.mem_of_getElem? here) with
    | waiting comes =>
      subst live
      cases waits
      rw [undone_past]
      exact .goes here (.abandoned comes)
    | reported ends => cases waits
    | settled => cases waits

/-- A step keeps every call where it can stand. -/
theorem Moves.stands {p p' : Pool interface State Call Outcome} (move : Moves d p p')
    (stands : ∀ t ∈ p.threads, Stands d t) : ∀ t ∈ p'.threads, Stands d t := by
  intro t ht
  cases move with
  | enters i h payload runs =>
    rcases List.mem_append.mp ht with old | new
    · exact stands t old
    · rw [List.mem_singleton.mp new]
      exact .of_runs (.here _) runs
  | calls c other =>
    rcases List.mem_append.mp ht with old | new
    · exact stands t old
    · rw [List.mem_singleton.mp new]
      exact .settled other
  | goes here goes =>
    rcases List.mem_or_eq_of_mem_set ht with old | rfl
    · exact stands t old
    · cases goes with
      | answered comes x answer runs => exact .of_runs (comes.answered x) runs
      | abandoned comes => exact .waiting comes

/-- What a step does to one call: nothing, or it goes on. -/
theorem Moves.thread {p p' : Pool interface State Call Outcome} {k : Nat}
    {t : Thread interface Call Outcome} (move : Moves d p p') (here : p.threads[k]? = some t) :
    ∃ t', p'.threads[k]? = some t' ∧ (t' = t ∨ Goes d p.state t p'.state t') := by
  cases move with
  | enters | calls =>
    have bound := (List.getElem?_eq_some_iff.mp here).1
    exact ⟨t, (List.getElem?_append_left bound).trans here, .inl rfl⟩
  | @goes j t₁ t₂ s₁ at_ goes =>
    rcases getElem?_of_set t₂ here at_ with other | ⟨-, rfl, replaced⟩
    · exact ⟨t, other, .inl rfl⟩
    · exact ⟨t₂, replaced, .inr goes⟩

theorem Goes.call {s s' : State} {t t' : Thread interface Call Outcome} (goes : Goes d s t s' t') :
    t'.call = t.call := by
  cases goes <;> rfl

theorem calls_set {threads : List (Thread interface Call Outcome)} {k : Nat}
    {t t' : Thread interface Call Outcome} (here : threads[k]? = some t) (same : t'.call = t.call) :
    (threads.set k t').map (·.call) = threads.map (·.call) := by
  have at_ : (threads.map (·.call))[k]? = some t.call := by rw [List.getElem?_map, here]; rfl
  obtain ⟨bound, at_⟩ := List.getElem?_eq_some_iff.mp at_
  rw [List.map_set, same, ← at_, List.set_getElem_self]

/-- Calls are added to a pool, and keep their places. -/
theorem Moves.calls_prefix {p p' : Pool interface State Call Outcome} (move : Moves d p p') :
    p.threads.map (·.call) <+: p'.threads.map (·.call) := by
  cases move with
  | enters => exact ⟨_, List.map_append.symm⟩
  | calls => exact ⟨_, List.map_append.symm⟩
  | goes here goes =>
    exact ⟨[], (List.append_nil _).trans (calls_set here goes.call).symm⟩

/-- The steps of a pool, one after the other. -/
theorem moves_of_steps {p p' : Pool interface State Call Outcome}
    (stands : ∀ t ∈ p.threads, Stands d t)
    (steps : Relation.ReflTransGen (surroundings.Step (body d)) p p') :
    Relation.ReflTransGen (Moves d) p p' ∧ ∀ t ∈ p'.threads, Stands d t := by
  induction steps with
  | refl => exact ⟨.refl, stands⟩
  | tail _ step ih =>
    obtain ⟨moves, stands⟩ := ih
    have move := moves_of_step stands step
    exact ⟨moves.tail move, move.stands stands⟩

section

open Simulation

variable {w : World} {part : DispatcherPart} {streams : List Stream}

/-- The registry of a world. -/
def registry (w : World) (part : DispatcherPart) (streams : List Stream) : State :=
  { active := part.active, signals := w.signals, streams }

/-- The world with another registry. -/
def withRegistry (w : World) (part : DispatcherPart) (s : State) : World :=
  { w with dispatcher := some { part with active := s.active }, signals := s.signals }

theorem run_cancel (hw : w.dispatcher = some part) (id : String) :
    (Simulation.cancel id).run w =
      (withRegistry w part ((registry w part streams).cancel id).2,
        .done ((registry w part streams).cancel id).1) := by
  simp [Simulation.cancel, Task.modifyGet, Task.run, hw, withRegistry, registry, State.cancel]

theorem run_cancelAll (hw : w.dispatcher = some part) :
    Simulation.cancelAll.run w =
      (withRegistry w part (registry w part streams).cancelAll, .done ()) := by
  simp [Simulation.cancelAll, Task.modify, Task.run, hw, withRegistry, registry, State.cancelAll]

/-- A dispatch enters with a new signal, asks what its handler asks, and leaves. -/
theorem run_dispatch (hw : w.dispatcher = some part) (i : Invocation) (h : EventHandler)
    (payload : Json) :
    (Simulation.dispatch part i h payload).run w =
      (((Dispatch.dispatch part.dispatcher i h payload).perform
        (answerDispatch part ((registry w part streams).enter i.id).1 i)
        fun _ _ => none).bind fun report => (Task.modify fun w =>
          (w.track Dispatch.telemetryName (Dispatch.telemetry h report)).modifyActive
            (·.finish i.id)).bind fun _ => .done report).run
      (withRegistry w part ((registry w part streams).enter i.id).2) := by
  have entered : World.modifyActive { w with signals := (w.signals.create none).2 }
      (·.start i.id (w.signals.create none).1) =
      withRegistry w part ((registry w part streams).enter i.id).2 := by
    simp [World.modifyActive, withRegistry, registry, State.enter, hw]
  rw [← entered]
  rfl

/-- A dispatch looks whether its signal has been fired. -/
theorem run_looks {signal : SignalId} (undated : w.signals.due? signal = none) (i : Invocation) :
    (answerDispatch part signal i .cancelled).run w =
      (w, .done ((registry w part streams).holds signal)) := by
  have same : w.holds signal = (registry w part streams).holds signal := by
    simp only [World.holds, State.holds, Signals.holds, registry, Signals.due?] at *
    cases hs : w.signals.all[signal]? with
    | none => rfl
    | some x =>
      rw [hs] at undated
      have hx : x.due = none := undated
      simp [Signal.holds, hx]
  rw [← same]
  rfl

/-- What waits under a signal that has been fired is cut short. -/
theorem run_cut {α : Type} {signal : SignalId} (fired : w.holds signal = true)
    (wake due : Option Nat) (ready : World → Bool) (next : Task World α)
    (abandon : World → World) :
    ((Task.wait wake ready next abandon).cutBefore due (·.holds signal)).run w =
      (abandon w, .done none) := by
  simp [Task.cutBefore, Task.run, fired]

end

end ScreenFlow.Switchboard
