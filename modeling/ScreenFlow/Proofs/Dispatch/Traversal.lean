import ScreenFlow.Proofs.Dispatch.Cancelling
import ScreenFlow.Proofs.Dispatch.Visits

/-!
# The order of main actions

A dispatch walks down a tree of handlers. Which main actions it performs, and in which order, is
decided by how they come out.

* `runAt`: running a handler, where every question names the place of the handler that asks it;
  `forget_runAt` shows that this is `run` once the places are forgotten;
* `runAt_traverses`: what a run performs, by recursion over the tree;
* `dispatch_traverses`: a whole dispatch.
-/

namespace ScreenFlow.Dispatch

variable {α β : Type}

/-! ### Running with places -/

@[reducible] def placed : Interface := ⟨Place × Ask, fun q => Answer q.2⟩

abbrev Placed (α : Type) := Process placed α

/-- Everything that is asked is asked by the handler at this place. -/
def asking (place : Place) (o : Operation α) : Placed α :=
  o.runIn fun q => Process.call (I := placed) (place, q)

/-- Forgets which handler asks. -/
def forget (o : Placed α) : Operation α := o.runIn fun q : Place × Ask => ask q.2

mutual

/-- `run` at a place. A handler nests one level deeper than the way to it is long. -/
def runAt (d : Dispatcher) (i : Invocation) (c : Context) (place : Place) :
    EventHandler → Placed Run
  | .node spec before success error finally_ => do
    if d.settings.maxDepth < place.length + 1 then return tooDeep d
    let visited := if before.isEmpty then [Phase.idle] else [.idle, .before]
    if !(← runAllAt d i c place .before 0 false before) then return .cancelled visited
    asking place (applyPatches d c spec.optimistic)
    let visited := visited ++ [.executing]
    match ← asking place (main spec c) with
    | .error .cancelled => return .cancelled visited
    | .ok v =>
      let visited := visited ++ [.success]
      let (v, c) ← asking place (succeed d i spec c v)
      if !(← runAllAt d i c place .success 0 false success) then return .cancelled visited
      asking place (transition d c spec.successTransition)
      let visited := visited ++ [.finally_]
      if !(← runAllAt d i c place .finally_ 0 false finally_) then return .cancelled visited
      return ⟨visited ++ [.done], .ok v⟩
    | .error f =>
      let visited := visited ++ [.error]
      let c ← asking place (fail d spec c f)
      if !(← runAllAt d i c place .error 0 false error) then return .cancelled visited
      asking place (transition d c spec.errorTransition)
      let visited := visited ++ [.finally_]
      if !(← runAllAt d i c place .finally_ 0 true finally_) then return .cancelled visited
      return ⟨visited ++ [.done], .error f⟩

/-- `runAll` over the sub-handlers of the handler at a place, from the `n`-th of a list on. -/
def runAllAt (d : Dispatcher) (i : Invocation) (c : Context) (place : Place) (branch : Branch)
    (n : Nat) (staying : Bool) : List EventHandler → Placed Bool
  | [] => return true
  | h :: hs => do
    if ← asking place (ask .cancelled) then return false
    if staying && h.action == .navigation then runAllAt d i c place branch (n + 1) staying hs
    else
      match (← runAt d i c (place ++ [(branch, n)]) h).result with
      | .error .cancelled => return false
      | _ => runAllAt d i c place branch (n + 1) staying hs

end

def dispatchAt (d : Dispatcher) (i : Invocation) (h : EventHandler) (payload : Json) :
    Placed Report := do
  let r ← runAt d i (Context.ofEvent payload) [] h
  return ⟨i.id, r.phases, .ofResult r.result⟩

@[simp] theorem forget_pure (a : α) : forget (pure a) = pure a := rfl

@[simp] theorem forget_bind (o : Placed α) (k : α → Placed β) :
    forget (o >>= k) = forget o >>= fun a => forget (k a) := by
  induction o with
  | done a => rfl
  | ask q next ih => exact congrArg (Process.ask (I := interface) q.2) (funext fun a => ih a)

@[simp] theorem forget_asking (place : Place) (o : Operation α) : forget (asking place o) = o := by
  induction o with
  | done a => rfl
  | ask q next ih => exact congrArg (Process.ask (I := interface) q) (funext fun a => ih a)

variable {d : Dispatcher} {i : Invocation}

theorem forget_ite {p : Prop} [Decidable p] (o o' : Placed α) :
    forget (if p then o else o') = if p then forget o else forget o' :=
  apply_ite forget p o o'

mutual

/-- Without the places a run is the run of the handler. -/
theorem forget_runAt (c : Context) (place : Place) :
    (h : EventHandler) → forget (runAt d i c place h) = run d i c (place.length + 1) h
  | .node spec before success error finally_ => by
    rw [runAt, run]
    simp only [forget_ite, forget_pure, forget_bind, forget_asking,
      forget_runAllAt _ place .before 0 _ before]
    refine ite_congr rfl (fun _ => rfl) fun _ => bind_congr fun through => ?_
    refine ite_congr rfl (fun _ => rfl) fun _ => bind_congr fun _ => bind_congr fun result => ?_
    cases result with
    | ok v =>
      simp only [forget_ite, forget_pure, forget_bind, forget_asking,
        forget_runAllAt _ place .success 0 _ success, forget_runAllAt _ place .finally_ 0 _ finally_]
    | error f =>
      cases f with
      | cancelled => rfl
      | _ =>
        simp only [forget_ite, forget_pure, forget_bind, forget_asking,
          forget_runAllAt _ place .error 0 _ error, forget_runAllAt _ place .finally_ 0 _ finally_]

theorem forget_runAllAt (c : Context) (place : Place) (branch : Branch) (n : Nat)
    (staying : Bool) : (hs : List EventHandler) →
    forget (runAllAt d i c place branch n staying hs) = runAll d i c (place.length + 1) staying hs
  | [] => by rw [runAllAt, runAll, forget_pure]
  | h :: hs => by
    have deeper : (place ++ [(branch, n)]).length + 1 = place.length + 1 + 1 := by simp
    rw [runAllAt, runAll]
    simp only [forget_ite, forget_pure, forget_bind, forget_asking,
      forget_runAllAt c place branch (n + 1) staying hs, forget_runAt c _ h, deeper]
    refine bind_congr fun stopped => ite_congr rfl (fun _ => rfl) fun _ => ?_
    refine ite_congr rfl (fun _ => rfl) fun _ => bind_congr fun r => ?_
    obtain ⟨phases, f | v⟩ := r
    · cases f with
      | cancelled => rfl
      | _ => exact forget_runAllAt c place branch (n + 1) staying hs
    · exact forget_runAllAt c place branch (n + 1) staying hs

end

theorem forget_dispatchAt (h : EventHandler) (payload : Json) :
    forget (dispatchAt d i h payload) = dispatch d i h payload := by
  rw [dispatchAt, dispatch, forget_bind, forget_runAt]
  rfl

/-! ### What a run performs -/

/-- The main actions that were performed, each with its place. -/
def performed (history : List (Happening placed)) : List (Place × ActionSpec) :=
  history.filterMap fun e =>
    match e.question with
    | (place, .act spec _) => some (place, spec)
    | _ => none

/-- The dispatch is not cancelled, and a main action comes out as `σ` says. -/
def Fits (σ : Place → Except Fault Json) : Happening placed → Prop
  | ⟨(_, .cancelled), stopped⟩ => stopped = false
  | ⟨(place, .act ..), result⟩ => result = σ place
  | _ => True

def Obeys (σ : Place → Except Fault Json) (history : List (Happening placed)) : Prop :=
  ∀ e ∈ history, Fits σ e

variable {σ : Place → Except Fault Json} {history first rest : List (Happening placed)}

@[simp] theorem performed_append (first rest : List (Happening placed)) :
    performed (first ++ rest) = performed first ++ performed rest := by
  simp [performed]

@[simp] theorem obeys_append : Obeys σ (first ++ rest) ↔ Obeys σ first ∧ Obeys σ rest := by
  simp [Obeys, or_imp, forall_and]

/-- When nothing is cancelled and the main actions come out as `σ` says, the process can perform these
ones and come to this. -/
def Performs (σ : Place → Except Fault Json) (o : Placed α) (did : List (Place × ActionSpec))
    (a : α) : Prop :=
  ∃ history, o.Ends history a ∧ Obeys σ history ∧ performed history = did

variable {did : List (Place × ActionSpec)}

theorem performs_pure_iff {a b : α} : Performs σ (pure a) did b ↔ did = [] ∧ b = a := by
  constructor
  · rintro ⟨history, ends, obeys, rfl⟩
    obtain ⟨rfl, rfl⟩ := Process.ends_done_iff.mp ends
    exact ⟨rfl, rfl⟩
  · rintro ⟨rfl, rfl⟩
    exact ⟨[], .done b, by simp [Obeys], rfl⟩

theorem performs_bind_iff {o : Placed α} {k : α → Placed β} {b : β} :
    Performs σ (o >>= k) did b ↔
      ∃ did₁ a did₂, did = did₁ ++ did₂ ∧ Performs σ o did₁ a ∧ Performs σ (k a) did₂ b := by
  constructor
  · rintro ⟨history, ends, obeys, rfl⟩
    obtain ⟨first, a, rest, rfl, here, later⟩ := Process.ends_bind_iff.mp ends
    obtain ⟨obeys₁, obeys₂⟩ := obeys_append.mp obeys
    exact ⟨_, a, _, performed_append first rest, ⟨first, here, obeys₁, rfl⟩,
      ⟨rest, later, obeys₂, rfl⟩⟩
  · rintro ⟨_, a, _, rfl, ⟨first, here, obeys₁, rfl⟩, ⟨rest, later, obeys₂, rfl⟩⟩
    exact ⟨first ++ rest, Process.ends_bind_iff.mpr ⟨first, a, rest, rfl, here, later⟩,
      obeys_append.mpr ⟨obeys₁, obeys₂⟩, performed_append first rest⟩

theorem asks_asking {P : Ask → Prop} {o : Operation α} (h : o.Asks P) (place : Place) :
    (asking place o).Asks fun q : Place × Ask => P q.2 := by
  induction o with
  | done a => trivial
  | ask q next ih => exact ⟨h.1, fun a => ih a (h.2 a)⟩

/-- What is quiet performs nothing. -/
theorem Performs.of_quiet {o : Operation α} {place : Place} {a : α}
    (h : Performs σ (asking place o) did a) (quiet : Quiet o) : did = [] := by
  obtain ⟨history, ends, -, rfl⟩ := h
  refine List.filterMap_eq_nil_iff.mpr fun e he => ?_
  have hq := (asks_asking quiet place).of_ends ends e he
  obtain ⟨⟨at_, q⟩, x⟩ := e
  cases q with
  | act => cases hq
  | _ => rfl

/-- The handler asks and is answered. -/
theorem performs_ask {q : Ask} {place : Place} {x : Answer q}
    (h : Performs σ (asking place (ask q)) did x) :
    Fits σ ⟨(place, q), x⟩ ∧ did = performed [⟨(place, q), x⟩] := by
  obtain ⟨history, ends, obeys, rfl⟩ := h
  have asks : asking place (ask q) = Process.ask (I := placed) (place, q) Process.done := rfl
  rw [asks, Process.ends_ask_iff] at ends
  obtain ⟨y, rest, rfl, ends⟩ := ends
  obtain ⟨rfl, rfl⟩ := Process.ends_done_iff.mp ends
  exact ⟨obeys _ List.mem_cons_self, rfl⟩

theorem asking_bind (place : Place) (o : Operation α) (k : α → Operation β) :
    asking place (o >>= k) = asking place o >>= fun a => asking place (k a) := by
  induction o with
  | done a => rfl
  | ask q next ih => exact congrArg (Process.ask (I := placed) (place, q)) (funext fun a => ih a)

theorem performs_main {spec : ActionSpec} {c : Context} {place : Place}
    {result : Except Fault Json} (h : Performs σ (asking place (main spec c)) did result) :
    did = [(place, spec)] ∧ result = σ place := by
  rw [main, asking_bind, performs_bind_iff] at h
  obtain ⟨_, stopped, _, rfl, looked, acted⟩ := h
  obtain ⟨running, rfl⟩ := performs_ask looked
  obtain rfl : stopped = false := running
  obtain ⟨hresult, rfl⟩ := performs_ask acted
  exact ⟨rfl, hresult⟩

/-- A quiet part and what follows it. -/
theorem Performs.after_quiet {o : Operation α} {place : Place} {k : α → Placed β} {b : β}
    (h : Performs σ (asking place o >>= k) did b) (quiet : Quiet o) :
    ∃ a, Performs σ (k a) did b := by
  obtain ⟨_, a, _, rfl, here, later⟩ := performs_bind_iff.mp h
  obtain rfl := here.of_quiet quiet
  exact ⟨a, later⟩

/-- Sub-handlers that get through, and what follows them. -/
theorem Performs.after_all {subs : Placed Bool} {stop next : Placed α} {a : α}
    {expected : List (Place × ActionSpec)}
    (h : Performs σ (subs >>= fun through => if !through then stop else next) did a)
    (all : ∀ {did through}, Performs σ subs did through → did = expected ∧ through = true) :
    ∃ rest, did = expected ++ rest ∧ Performs σ next rest a := by
  obtain ⟨_, through, rest, rfl, here, later⟩ := performs_bind_iff.mp h
  obtain ⟨rfl, rfl⟩ := all here
  exact ⟨rest, rfl, later⟩

/-- A handler comes out as its own main action does. -/
def ComesOut (r : Run) : Except Fault Json → Prop
  | .ok _ => ∃ v, r.result = .ok v
  | .error f => r.result = .error f

mutual

/-- A run performs the reference traversal of its handler, which comes out as its own main action
does. -/
theorem runAt_traverses (uncancelled : ∀ place, σ place ≠ .error .cancelled) (c : Context)
    (place : Place) (h : EventHandler) {did : List (Place × ActionSpec)} {r : Run}
    (performs : Performs σ (runAt d i c place h) did r) :
    did = visits σ d.settings.maxDepth place h ∧ r.result ≠ .error .cancelled ∧
      (place.length < d.settings.maxDepth → ComesOut r (σ place)) := by
  obtain ⟨spec, before, success, error, finally_⟩ := h
  rw [runAt] at performs
  rw [visits]
  split at performs
  case isTrue deep =>
    obtain ⟨rfl, rfl⟩ := performs_pure_iff.mp performs
    rw [if_pos deep]
    refine ⟨rfl, by simp [tooDeep], fun fits => ?_⟩
    omega
  case isFalse fits =>
    rw [if_neg fits]
    obtain ⟨_, rfl, patching⟩ :=
      performs.after_all (runAllAt_traverses uncancelled c place .before 0 false before)
    obtain ⟨_, acting⟩ := patching.after_quiet (plain_applyPatches d c spec.optimistic).quiet
    obtain ⟨_, result, _, rfl, acted, settling⟩ := performs_bind_iff.mp acting
    obtain ⟨rfl, rfl⟩ := performs_main acted
    cases hresult : σ place with
    | ok v =>
      rw [hresult] at settling
      obtain ⟨⟨w, c'⟩, branching⟩ := settling.after_quiet (quiet_succeed d i spec c v)
      obtain ⟨_, rfl, moving⟩ :=
        branching.after_all (runAllAt_traverses uncancelled c' place .success 0 false success)
      obtain ⟨_, closing⟩ := moving.after_quiet (plain_transition d c' spec.successTransition).quiet
      obtain ⟨_, rfl, ended⟩ :=
        closing.after_all (runAllAt_traverses uncancelled c' place .finally_ 0 false finally_)
      obtain ⟨rfl, rfl⟩ := performs_pure_iff.mp ended
      refine ⟨?_, nofun, fun _ => ⟨w, rfl⟩⟩
      rw [List.append_nil, List.singleton_append]
    | error f =>
      have kept : f ≠ .cancelled := fun heq => uncancelled place (heq ▸ hresult)
      rw [hresult] at settling
      split at settling
      case h_1 heq => exact absurd (Except.error.inj heq) kept
      case h_2 heq => cases heq
      case h_3 heq =>
        obtain rfl := Except.error.inj heq
        obtain ⟨c', branching⟩ := settling.after_quiet (plain_fail d spec c f).quiet
        obtain ⟨_, rfl, moving⟩ :=
          branching.after_all (runAllAt_traverses uncancelled c' place .error 0 false error)
        obtain ⟨_, closing⟩ := moving.after_quiet (plain_transition d c' spec.errorTransition).quiet
        obtain ⟨_, rfl, ended⟩ :=
          closing.after_all (runAllAt_traverses uncancelled c' place .finally_ 0 true finally_)
        obtain ⟨rfl, rfl⟩ := performs_pure_iff.mp ended
        refine ⟨?_, fun heq => kept (Except.error.inj heq), fun _ => rfl⟩
        rw [List.append_nil, List.singleton_append]

/-- Sub-handlers get through, one after the other, whatever becomes of them. -/
theorem runAllAt_traverses (uncancelled : ∀ place, σ place ≠ .error .cancelled) (c : Context)
    (place : Place) (branch : Branch) (n : Nat) (staying : Bool) (hs : List EventHandler)
    {did : List (Place × ActionSpec)} {through : Bool}
    (performs : Performs σ (runAllAt d i c place branch n staying hs) did through) :
    did = visitsAll σ d.settings.maxDepth place branch n staying hs ∧ through = true := by
  match hs with
  | [] =>
    rw [runAllAt] at performs
    exact performs_pure_iff.mp performs
  | h :: hs =>
    rw [runAllAt] at performs
    rw [visitsAll]
    obtain ⟨_, stopped, _, rfl, looked, going⟩ := performs_bind_iff.mp performs
    obtain ⟨running, rfl⟩ := performs_ask looked
    obtain rfl : stopped = false := running
    rw [if_neg Bool.false_ne_true] at going
    split at going
    case isTrue left =>
      rw [if_pos left]
      exact runAllAt_traverses uncancelled c place branch (n + 1) staying hs going
    case isFalse entered =>
      rw [if_neg entered]
      obtain ⟨_, r, _, rfl, ran, later⟩ := performs_bind_iff.mp going
      obtain ⟨rfl, through, -⟩ := runAt_traverses uncancelled c _ h ran
      split at later
      case h_1 stopped => exact absurd stopped through
      case h_2 =>
        obtain ⟨rfl, rfl⟩ := runAllAt_traverses uncancelled c place branch (n + 1) staying hs later
        exact ⟨rfl, rfl⟩

end

/-- A dispatch that is answered like this ends, and every other one does as well. -/
theorem exists_obeying (σ : Place → Except Fault Json) (o : Placed α) :
    ∃ history a, o.Ends history a ∧ Obeys σ history := by
  refine Process.exists_ends (fun q => ?_) o
  obtain ⟨place, q⟩ := q
  cases q with
  | cancelled => exact ⟨false, rfl⟩
  | act => exact ⟨σ place, rfl⟩
  | snapshot => exact ⟨Json.null, trivial⟩
  | setState | host | logOut => exact ⟨(), trivial⟩
  | evaluate => exact ⟨Except.ok Json.null, trivial⟩
  | logIn => exact ⟨true, trivial⟩

/-! ### A whole dispatch -/

/-- The report of a dispatch whose top-level main action came out like this. -/
def Reports (report : Report) : Except Fault Json → Prop
  | .ok _ => ∃ v, report.outcome = .succeeded v
  | .error f => report.outcome = .failed (FaultInfo.ofFault f)

/-- **A dispatch goes through its handlers in the order of the reference traversal**, whatever the
main actions come to, as long as nothing is cancelled: it performs the main actions of the handlers
that are due, each one once, and its outcome is that of the top-level main action. -/
theorem dispatch_traverses (d : Dispatcher) (i : Invocation) (h : EventHandler) (payload : Json)
    (σ : Place → Except Fault Json) (deep : 1 ≤ d.settings.maxDepth)
    (uncancelled : ∀ place, σ place ≠ .error .cancelled) :
    forget (dispatchAt d i h payload) = dispatch d i h payload ∧
    ((visits σ d.settings.maxDepth [] h).map Prod.fst).Nodup ∧
    (∀ q spec, (q, spec) ∈ visits σ d.settings.maxDepth [] h ↔
      q.length < d.settings.maxDepth ∧ Due σ spec [] h q) ∧
    (∃ history report, (dispatchAt d i h payload).Ends history report ∧ Obeys σ history) ∧
    ∀ history report, (dispatchAt d i h payload).Ends history report → Obeys σ history →
      performed history = visits σ d.settings.maxDepth [] h ∧ Reports report (σ []) := by
  refine ⟨forget_dispatchAt h payload, visits_nodup [] h, fun q spec => ?_,
    exists_obeying σ _, fun history report ends obeys => ?_⟩
  · rw [mem_visits_iff]
    simp
  · have performs : Performs σ (dispatchAt d i h payload) (performed history) report :=
      ⟨history, ends, obeys, rfl⟩
    rw [dispatchAt] at performs
    obtain ⟨did, r, _, heq, ran, reported⟩ := performs_bind_iff.mp performs
    obtain ⟨rfl, rfl⟩ := performs_pure_iff.mp reported
    obtain ⟨rfl, -, comesOut⟩ := runAt_traverses uncancelled (Context.ofEvent payload) [] h ran
    refine ⟨heq.trans (List.append_nil _), ?_⟩
    have out := comesOut (Nat.lt_of_succ_le deep)
    cases hσ : σ [] with
    | ok v =>
      rw [hσ] at out
      obtain ⟨w, hw⟩ := out
      exact ⟨w, by rw [hw]; rfl⟩
    | error f =>
      rw [hσ] at out
      have kept : f ≠ .cancelled := fun heq => uncancelled [] (heq ▸ hσ)
      have hr : r.result = .error f := out
      show Outcome.ofResult r.result = .failed (FaultInfo.ofFault f)
      rw [hr]
      cases f with
      | cancelled => exact absurd rfl kept
      | _ => rfl

/-- A handler of this kind without sub-handlers. -/
def leaf (action : ActionKind) : EventHandler := .node { action } [] [] [] []

/-- A request with sub-handlers of every sort. -/
def branching : EventHandler :=
  .node { action := .apiCall } [leaf .toast] [leaf .openModal]
    [.node { action := .updateState } [] [] [leaf .toast] [], leaf .closeModal]
    [leaf .navigation, leaf .auditLog]

/-- The request and its first error handler fail. -/
def failing (place : Place) : Except Fault Json :=
  if place = [] ∨ place = [(.error, 0)] then .error (.notFound "orders") else .ok .null

theorem dispatch_traverses_failing :
    (∀ place, failing place ≠ .error .cancelled) ∧
    ∀ history report,
      (dispatchAt { settings := { maxDepth := 2 } } ⟨"inv", [], false⟩ branching .null).Ends
        history report → Obeys failing history →
      (performed history).map (fun e => (e.1, e.2.action)) =
        [([(.before, 0)], .toast), ([], .apiCall), ([(.error, 0)], .updateState),
          ([(.error, 1)], .closeModal), ([(.finally_, 1)], .auditLog)] ∧
      report.outcome = .failed (FaultInfo.ofFault (.notFound "orders")) := by
  have uncancelled : ∀ place, failing place ≠ .error .cancelled := by
    intro place
    unfold failing
    split <;> simp
  refine ⟨uncancelled, fun history report ends obeys => ?_⟩
  obtain ⟨-, -, -, -, traverses⟩ := dispatch_traverses { settings := { maxDepth := 2 } }
    ⟨"inv", [], false⟩ branching .null failing (by decide) uncancelled
  obtain ⟨did, reports⟩ := traverses history report ends obeys
  exact ⟨by rw [did]; rfl, reports⟩

end ScreenFlow.Dispatch
