import ScreenFlow.Dispatch.Run
import ScreenFlow.Proofs.Process.Histories
import ScreenFlow.Proofs.Process.Standing

/-!
# What a cancellation leaves undone

Apart from main actions, and from looking whether it has been cancelled, a handler only reads and
writes the state, tells the host things, and begins or ends a session. Once a dispatch is cancelled it
is told so whenever it looks, and a main action under way is cut short.

* `Quiet`: what does no more than that, and `Plain`: what leaves the session alone as well;
* `plain_bindResult`, `plain_fail`, `plain_transition`: all that follows a main action, up to the
  sub-handlers, is plain, but for `quiet_updateSession`;
* `Stops`: a process that begins no main action any more when it is cancelled;
* `Yields`: one that stops wherever a cancellation finds it;
* `opening`: a handler up to the answer of its main action, and `run_node`, the rest of it;
* `opening_yields`: while it opens, a handler that is cancelled comes to nothing else.
-/

/-! ## Between the main actions -/

namespace ScreenFlow.Dispatch

variable {α β : Type}

/-- Neither a main action nor whether the dispatch has been cancelled. -/
def Ask.isQuiet : Ask → Bool
  | .cancelled | .act .. => false
  | _ => true

/-- Nothing but the state, scripts and the host. -/
def Ask.isPlain : Ask → Bool
  | .snapshot | .setState .. | .host _ | .evaluate .. => true
  | _ => false

/-- Performs no main action and does not look whether the dispatch has been cancelled. -/
def Quiet (o : Operation α) : Prop := o.Asks fun q => Ask.isQuiet q = true

/-- Uses the state, scripts and the host only. -/
def Plain (o : Operation α) : Prop := o.Asks fun q => Ask.isPlain q = true

theorem plain_pure (a : α) : Plain (pure a) := trivial

theorem plain_ask {q : Ask} (h : q.isPlain = true) : Plain (ask q) := ⟨h, fun _ => trivial⟩

theorem Plain.bind {o : Operation α} {k : α → Operation β} (h : Plain o)
    (hk : ∀ a, Plain (k a)) : Plain (o >>= k) :=
  Process.Asks.bind h hk

theorem Plain.quiet {o : Operation α} (h : Plain o) : Quiet o :=
  Process.Asks.mono h fun q plain => by cases q <;> first | rfl | cases plain

theorem plain_scope (c : Context) : Plain (scope c) :=
  (plain_ask rfl).bind fun _ => plain_pure _

theorem plain_host (call : Option HostCall) : Plain (host call) := by
  cases call with
  | none => exact plain_pure ()
  | some call => exact plain_ask rfl

theorem plain_applyPatches (d : Dispatcher) (c : Context) (ps : List StatePatch) :
    Plain (applyPatches d c ps) := by
  induction ps with
  | nil => exact plain_pure ()
  | cons p ps ih =>
    refine (plain_scope c).bind fun scope => ?_
    exact (plain_ask rfl).bind fun _ => ih

theorem plain_transition (d : Dispatcher) (c : Context) (t : Option Transition) :
    Plain (transition d c t) := by
  cases t with
  | none => exact plain_pure ()
  | some t =>
    refine (plain_applyPatches d c t.setState).bind fun _ => (plain_scope c).bind fun scope => ?_
    refine (plain_host _).bind fun _ => (plain_host _).bind fun _ => ?_
    exact plain_host _

theorem plain_mapResult (m : Option ResultMapping) (v : Json) : Plain (mapResult m v) := by
  match m with
  | none => exact plain_pure v
  | some (.paths ps) => exact plain_pure _
  | some (.script script) =>
    refine (plain_ask rfl).bind fun state => (plain_ask rfl).bind fun mapped => ?_
    cases mapped <;> exact plain_pure _

theorem plain_bindResult (d : Dispatcher) (spec : ActionSpec) (c : Context) (v : Json) :
    Plain (bindResult d spec c v) := by
  unfold bindResult
  cases spec.response with
  | none => exact plain_pure v
  | some response =>
    dsimp only
    split
    · exact plain_pure v
    · refine (plain_mapResult response.mapping v).bind fun mapped => ?_
      cases response.statePath with
      | none => exact plain_pure mapped
      | some template =>
        refine (plain_scope c).bind fun scope => ?_
        exact (plain_ask rfl).bind fun _ => plain_pure mapped

theorem plain_confirmation (d : Dispatcher) (spec : ActionSpec) (c : Context) (v : Json) :
    Plain (confirmation d spec c v) := by
  unfold confirmation
  cases spec.successMessage with
  | none => exact plain_pure _
  | some template => exact (plain_scope c).bind fun scope => plain_pure _

theorem plain_fail (d : Dispatcher) (spec : ActionSpec) (c : Context) (f : Fault) :
    Plain (fail d spec c f) := by
  unfold fail
  dsimp only
  split
  · cases spec.errorMessage with
    | none =>
      refine (plain_pure _).bind fun message => ?_
      exact (plain_ask rfl).bind fun _ => plain_pure _
    | some template =>
      refine (plain_scope _).bind fun scope => (plain_pure _).bind fun message => ?_
      exact (plain_ask rfl).bind fun _ => plain_pure _
  · exact plain_pure _

/-! ### With the session -/

theorem quiet_pure (a : α) : Quiet (pure a) := trivial

theorem quiet_ask {q : Ask} (h : q.isQuiet = true) : Quiet (ask q) := ⟨h, fun _ => trivial⟩

theorem Quiet.bind {o : Operation α} {k : α → Operation β} (h : Quiet o)
    (hk : ∀ a, Quiet (k a)) : Quiet (o >>= k) :=
  Process.Asks.bind h hk

theorem quiet_updateSession (d : Dispatcher) (i : Invocation) (spec : ActionSpec) (v : Json) :
    Quiet (updateSession d i spec v) := by
  unfold updateSession
  split
  · exact quiet_pure ()
  · cases SessionEffect.ofAction spec (d.sourceName i spec) with
    | none => exact quiet_pure ()
    | logout => exact (quiet_ask rfl).bind fun _ => (plain_host _).quiet
    | login =>
      dsimp only
      cases LoginTokens.ofResult? v with
      | none => exact quiet_pure ()
      | some tokens =>
        refine (quiet_ask rfl).bind fun begun => ?_
        split
        · exact (plain_host _).quiet
        · exact quiet_pure ()

theorem quiet_succeed (d : Dispatcher) (i : Invocation) (spec : ActionSpec) (c : Context)
    (v : Json) : Quiet (succeed d i spec c v) := by
  refine (plain_bindResult d spec c v).quiet.bind fun v => ?_
  refine (quiet_updateSession d i spec v).bind fun _ => ?_
  refine (plain_confirmation d spec (c.set "result" v) v).quiet.bind fun message => ?_
  exact (plain_host _).quiet.bind fun _ => quiet_pure _

end ScreenFlow.Dispatch

/-! ## Cancelled -/

namespace ScreenFlow.Dispatch

variable {α β : Type} {P : α → Prop} {Q : β → Prop}

def Ask.isAct : Ask → Bool
  | .act .. => true
  | _ => false

/-- What a dispatch that has been cancelled can be told. -/
def Told : (q : Ask) → Answer q → Prop
  | .cancelled, stopped => stopped = true
  | .act .., result => result = .error .cancelled
  | _, _ => True

/-- Cancelled before it goes on from here, the process begins no main action and ends like this. -/
def Stops (P : α → Prop) : Operation α → Prop
  | .done a => P a
  | .ask q next => Ask.isAct q = false ∧ ∀ x, Told q x → Stops P (next x)

/-- Cancelled while it waits for any of its answers, the process stops. -/
def Yields (P : α → Prop) : Operation α → Prop
  | .done _ => True
  | .ask q next => (∀ x, Told q x → Stops P (next x)) ∧ ∀ x, Yields P (next x)

theorem Stops.bind {o : Operation α} {k : α → Operation β} (h : Stops P o)
    (hk : ∀ a, P a → Stops Q (k a)) : Stops Q (o >>= k) := by
  induction o with
  | done a => exact hk a h
  | ask q next ih => exact ⟨h.1, fun x told => ih x (h.2 x told)⟩

theorem Yields.bind {o : Operation α} {k : α → Operation β} (h : Yields P o)
    (hk : ∀ a, P a → Stops Q (k a)) (hy : ∀ a, Yields Q (k a)) : Yields Q (o >>= k) := by
  induction o with
  | done a => exact hy a
  | ask q next ih => exact ⟨fun x told => (h.1 x told).bind hk, fun x => ih x (h.2 x)⟩

/-- What yields does so wherever it stands. -/
theorem Yields.comes {o r : Operation α} {history : List (Happening interface)} (h : Yields P o)
    (comes : o.Comes history r) : Yields P r := by
  induction comes with
  | here => exact h
  | asked x rest ih => exact ih (h.2 x)

/-- Begins no main action once it is cancelled, at whatever point that happens. -/
structure Heeds (o : Operation α) : Prop where
  stops : Stops (fun _ => True) o
  yields : Yields (fun _ => True) o

theorem heeds_pure (a : α) : Heeds (pure a : Operation α) := ⟨trivial, trivial⟩

theorem Heeds.bind {o : Operation α} {k : α → Operation β} (h : Heeds o)
    (hk : ∀ a, Heeds (k a)) : Heeds (o >>= k) where
  stops := h.stops.bind fun a _ => (hk a).stops
  yields := h.yields.bind (fun a _ => (hk a).stops) fun a => (hk a).yields

theorem Quiet.heeds {o : Operation α} (h : Quiet o) : Heeds o := by
  induction o with
  | done a => exact heeds_pure a
  | ask q next ih =>
    have after : ∀ x, Heeds (next x) := fun x => ih x (h.2 x)
    refine ⟨⟨?_, fun x _ => (after x).stops⟩, fun x _ => (after x).stops, fun x => (after x).yields⟩
    have quiet : Ask.isQuiet q = true := h.1
    cases q with
    | act => cases quiet
    | _ => rfl

/-- A main action comes to nothing when it is cancelled before it has its result. -/
theorem main_stops (spec : ActionSpec) (c : Context) :
    Stops (· = .error .cancelled) (main spec c) := by
  refine ⟨rfl, fun stopped told => ?_⟩
  obtain rfl : stopped = true := told
  rfl

theorem main_yields (spec : ActionSpec) (c : Context) :
    Yields (· = .error .cancelled) (main spec c) := by
  refine ⟨(main_stops spec c).2, fun stopped => ?_⟩
  cases stopped with
  | true => exact trivial
  | false => exact ⟨fun result told => told, fun result => trivial⟩

theorem heeds_main (spec : ActionSpec) (c : Context) : Heeds (main spec c) where
  stops := (bind_pure (main spec c)) ▸ (main_stops spec c).bind fun _ _ => trivial
  yields := (bind_pure (main spec c)) ▸
    (main_yields spec c).bind (fun _ _ => trivial) fun _ => trivial

variable {d : Dispatcher} {i : Invocation}

mutual

theorem heeds_run (c : Context) (depth : Nat) : (h : EventHandler) → Heeds (run d i c depth h)
  | .node spec before success error finally_ => by
    rw [run]
    split
    · exact heeds_pure _
    refine (heeds_runAll c depth false before).bind fun through => ?_
    split
    · exact heeds_pure _
    refine (plain_applyPatches d c spec.optimistic).quiet.heeds.bind fun _ => ?_
    refine (heeds_main spec c).bind fun result => ?_
    split
    · exact heeds_pure _
    · refine (quiet_succeed d i spec c _).heeds.bind fun (v, c) => ?_
      refine (heeds_runAll c depth false success).bind fun through => ?_
      split
      · exact heeds_pure _
      refine (plain_transition d c spec.successTransition).quiet.heeds.bind fun _ => ?_
      refine (heeds_runAll c depth false finally_).bind fun through => ?_
      split <;> exact heeds_pure _
    · refine (plain_fail d spec c _).quiet.heeds.bind fun c => ?_
      refine (heeds_runAll c depth false error).bind fun through => ?_
      split
      · exact heeds_pure _
      refine (plain_transition d c spec.errorTransition).quiet.heeds.bind fun _ => ?_
      refine (heeds_runAll c depth true finally_).bind fun through => ?_
      split <;> exact heeds_pure _

theorem heeds_runAll (c : Context) (depth : Nat) (staying : Bool) :
    (hs : List EventHandler) → Heeds (runAll d i c depth staying hs)
  | [] => by
    rw [runAll]
    exact heeds_pure true
  | h :: hs => by
    have later := heeds_runAll c depth staying hs
    have looks : Heeds (ask .cancelled) :=
      ⟨⟨rfl, fun _ _ => trivial⟩, fun _ _ => trivial, fun _ => trivial⟩
    rw [runAll]
    refine looks.bind fun stopped => ?_
    split
    · exact heeds_pure false
    split
    · exact later
    refine (heeds_run c (depth + 1) h).bind fun r => ?_
    split
    · exact heeds_pure false
    · exact later

end

/-! ### Up to the main action -/

/-- A handler up to the answer of its main action: the phases so far, and the answer. -/
def opening (d : Dispatcher) (i : Invocation) (c : Context) (depth : Nat) (spec : ActionSpec)
    (before : List EventHandler) : Operation (List Phase × Except Fault Json) := do
  let visited := if before.isEmpty then [Phase.idle] else [.idle, .before]
  if !(← runAll d i c depth false before) then return (visited, .error .cancelled)
  applyPatches d c spec.optimistic
  let result ← main spec c
  return (visited ++ [.executing], result)

/-- The rest of a handler. -/
def conclude (d : Dispatcher) (i : Invocation) (c : Context) (depth : Nat) (spec : ActionSpec)
    (success error finally_ : List EventHandler) : List Phase × Except Fault Json → Operation Run
  | (visited, .error .cancelled) => return .cancelled visited
  | (visited, .ok v) => do
    let visited := visited ++ [.success]
    let (v, c) ← succeed d i spec c v
    if !(← runAll d i c depth false success) then return .cancelled visited
    transition d c spec.successTransition
    let visited := visited ++ [.finally_]
    if !(← runAll d i c depth false finally_) then return .cancelled visited
    return ⟨visited ++ [.done], .ok v⟩
  | (visited, .error f) => do
    let visited := visited ++ [.error]
    let c ← fail d spec c f
    if !(← runAll d i c depth false error) then return .cancelled visited
    transition d c spec.errorTransition
    let visited := visited ++ [.finally_]
    if !(← runAll d i c depth true finally_) then return .cancelled visited
    return ⟨visited ++ [.done], .error f⟩

theorem run_node {c : Context} {depth : Nat} (fits : depth ≤ d.settings.maxDepth)
    (spec : ActionSpec) (before success error finally_ : List EventHandler) :
    run d i c depth (.node spec before success error finally_) =
      opening d i c depth spec before >>= conclude d i c depth spec success error finally_ := by
  rw [run, opening, if_neg (Nat.not_lt.mpr fits)]
  simp only [bind_assoc]
  refine bind_congr fun through => ?_
  cases through with
  | false => rfl
  | true =>
    simp only [Bool.not_true, Bool.false_eq_true, if_false, bind_assoc, pure_bind]
    refine bind_congr fun _ => bind_congr fun result => ?_
    rcases result with f | v
    · cases f <;> rfl
    · rfl

/-- The handler was cancelled while it opened. -/
structure CutShort (opened : List Phase × Except Fault Json) : Prop where
  result : opened.2 = .error .cancelled
  phases : ∀ phase ∈ opened.1, phase = .idle ∨ phase = .before ∨ phase = .executing

end ScreenFlow.Dispatch
