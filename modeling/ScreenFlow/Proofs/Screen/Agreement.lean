import ScreenFlow.Dispatch.Run
import ScreenFlow.Proofs.Process.Histories
import ScreenFlow.Proofs.Screen.Foretold
import ScreenFlow.Proofs.Screen.Places
import ScreenFlow.Simulation.Dispatching

/-!
# The check of a screen and its execution

The check of a screen goes through its handlers before anything runs, and a dispatch goes through them
when it runs. Depth and data sources are looked at by each of them in its own way. A dispatch reports
what its top-level handler came to; here every handler that ran is noted.

* `runNoting`, `dispatchNoting`: running with notes; `forget_dispatchNoting` shows that this is
  `dispatch` once the notes are forgotten;
* `promises_runNoting`: where the faults of handlers come from;
* `Dispatch.Answered`: what the questions of a dispatch can be answered with;
* `Screen.Agrees`, `check_agrees`: the check finds what it should, and where it finds nothing no
  handler fails in a way that it would have foretold;
* `not_checksAgree`: whose faults have to be left out.
-/

/-! ## What each handler comes to -/

namespace ScreenFlow.Dispatch

/-- What handlers came to, each with its place. -/
abbrev Results := List (Place × Except Fault Json)

/-- The run of the handler at a place, noted after those below it. -/
def noted (place : Place) (below : Results) (r : Run) : Run × Results :=
  (r, below ++ [(place, r.result)])

mutual

/-- `run` with a note of everything that ran. -/
def runNoting (d : Dispatcher) (i : Invocation) (c : Context) (place : Place) :
    EventHandler → Operation (Run × Results)
  | .node spec before success error finally_ => do
    if d.settings.maxDepth < place.length + 1 then return noted place [] (tooDeep d)
    let visited := if before.isEmpty then [Phase.idle] else [.idle, .before]
    let (through, first) ← runAllNoting d i c place .before 0 false before
    if !through then return noted place first (.cancelled visited)
    applyPatches d c spec.optimistic
    let visited := visited ++ [.executing]
    match ← main spec c with
    | .error .cancelled => return noted place first (.cancelled visited)
    | .ok v =>
      let visited := visited ++ [.success]
      let (v, c) ← succeed d i spec c v
      let (through, second) ← runAllNoting d i c place .success 0 false success
      if !through then return noted place (first ++ second) (.cancelled visited)
      transition d c spec.successTransition
      let visited := visited ++ [.finally_]
      let (through, last) ← runAllNoting d i c place .finally_ 0 false finally_
      if !through then return noted place (first ++ second ++ last) (.cancelled visited)
      return noted place (first ++ second ++ last) ⟨visited ++ [.done], .ok v⟩
    | .error f =>
      let visited := visited ++ [.error]
      let c ← fail d spec c f
      let (through, second) ← runAllNoting d i c place .error 0 false error
      if !through then return noted place (first ++ second) (.cancelled visited)
      transition d c spec.errorTransition
      let visited := visited ++ [.finally_]
      let (through, last) ← runAllNoting d i c place .finally_ 0 true finally_
      if !through then return noted place (first ++ second ++ last) (.cancelled visited)
      return noted place (first ++ second ++ last) ⟨visited ++ [.done], .error f⟩

/-- `runAll` over the sub-handlers of the handler at a place, from the `n`-th of a list on, with a note
of everything that ran. -/
def runAllNoting (d : Dispatcher) (i : Invocation) (c : Context) (place : Place) (branch : Branch)
    (n : Nat) (staying : Bool) : List EventHandler → Operation (Bool × Results)
  | [] => return (true, [])
  | h :: hs => do
    if ← ask .cancelled then return (false, [])
    if staying && h.action == .navigation then runAllNoting d i c place branch (n + 1) staying hs
    else
      let (r, here) ← runNoting d i c (place ++ [(branch, n)]) h
      match r.result with
      | .error .cancelled => return (false, here)
      | _ =>
        let (through, later) ← runAllNoting d i c place branch (n + 1) staying hs
        return (through, here ++ later)

end

/-- `dispatch` with a note of everything that ran. -/
def dispatchNoting (d : Dispatcher) (i : Invocation) (h : EventHandler) (payload : Json) :
    Operation (Report × Results) := do
  let (r, results) ← runNoting d i (Context.ofEvent payload) [] h
  return (⟨i.id, r.phases, .ofResult r.result⟩, results)

variable {d : Dispatcher} {i : Invocation} {α β : Type}

/-- A step whose notes are dropped at the end. -/
theorem forget_step {o : Operation (α × Results)} {o' : Operation α}
    {k : α × Results → Operation (β × Results)} {k' : α → Operation β}
    (first : Prod.fst <$> o = o') (rest : ∀ a notes, Prod.fst <$> k (a, notes) = k' a) :
    Prod.fst <$> (o >>= k) = o' >>= k' := by
  subst first
  rw [map_bind, bind_map_left]
  exact bind_congr fun p => rest p.1 p.2

theorem forget_plain {o : Operation α} {k : α → Operation (β × Results)} {k' : α → Operation β}
    (rest : ∀ a, Prod.fst <$> k a = k' a) : Prod.fst <$> (o >>= k) = o >>= k' := by
  rw [map_bind]
  exact bind_congr rest

theorem forget_choice {p : Prop} [Decidable p] {o₁ o₂ : Operation (α × Results)}
    {o₁' o₂' : Operation α} (h₁ : Prod.fst <$> o₁ = o₁') (h₂ : Prod.fst <$> o₂ = o₂') :
    (Prod.fst <$> if p then o₁ else o₂) = if p then o₁' else o₂' := by
  rw [apply_ite (Prod.fst <$> ·), h₁, h₂]

mutual

/-- Without the notes a run is the run of the handler. -/
theorem forget_runNoting (c : Context) (place : Place) : (h : EventHandler) →
    Prod.fst <$> runNoting d i c place h = run d i c (place.length + 1) h
  | .node spec before success error finally_ => by
    rw [runNoting, run]
    refine forget_choice rfl ?_
    refine forget_step (forget_runAllNoting c place .before 0 false before) fun through first => ?_
    refine forget_choice rfl (forget_plain fun _ => forget_plain fun result => ?_)
    cases result with
    | ok v =>
      refine forget_plain fun ⟨v, c⟩ => ?_
      refine forget_step (forget_runAllNoting c place .success 0 false success) fun _ _ => ?_
      refine forget_choice rfl (forget_plain fun _ => ?_)
      refine forget_step (forget_runAllNoting c place .finally_ 0 false finally_) fun _ _ => ?_
      exact forget_choice rfl rfl
    | error f =>
      cases f with
      | cancelled => rfl
      | _ =>
        refine forget_plain fun c => ?_
        refine forget_step (forget_runAllNoting c place .error 0 false error) fun _ _ => ?_
        refine forget_choice rfl (forget_plain fun _ => ?_)
        refine forget_step (forget_runAllNoting c place .finally_ 0 true finally_) fun _ _ => ?_
        exact forget_choice rfl rfl

theorem forget_runAllNoting (c : Context) (place : Place) (branch : Branch) (n : Nat)
    (staying : Bool) : (hs : List EventHandler) →
    Prod.fst <$> runAllNoting d i c place branch n staying hs =
      runAll d i c (place.length + 1) staying hs
  | [] => by
    rw [runAllNoting, runAll]
    rfl
  | h :: hs => by
    have later := forget_runAllNoting c place branch (n + 1) staying hs
    have here := forget_runNoting c (place ++ [(branch, n)]) h
    rw [List.length_append, List.length_singleton] at here
    rw [runAllNoting, runAll]
    refine forget_plain fun stopped => forget_choice rfl (forget_choice later ?_)
    refine forget_step here fun r notes => ?_
    have onward : Prod.fst <$> (runAllNoting d i c place branch (n + 1) staying hs >>=
        fun p => pure (p.1, notes ++ p.2)) = runAll d i c (place.length + 1) staying hs := by
      rw [map_bind, ← later, map_eq_pure_bind]
      rfl
    obtain ⟨phases, f | v⟩ := r
    · cases f with
      | cancelled => rfl
      | _ => exact onward
    · exact onward

end

theorem forget_dispatchNoting (h : EventHandler) (payload : Json) :
    Prod.fst <$> dispatchNoting d i h payload = dispatch d i h payload :=
  forget_step (forget_runNoting _ [] h) fun _ _ => rfl

/-! ### Where faults come from -/

variable {P : Fault → Prop} {A : Happening interface → Prop}

/-- The run of a handler and everything that was noted of it. -/
def AllWithin (P : Fault → Prop) (p : Run × Results) : Prop :=
  Within P p.1.result ∧ ∀ e ∈ p.2, Within P e.2

theorem allWithin_noted {place : Place} {below : Results} {r : Run} (own : Within P r.result)
    (deeper : ∀ e ∈ below, Within P e.2) : AllWithin P (noted place below r) :=
  ⟨own, List.forall_mem_append.mpr ⟨deeper, List.forall_mem_singleton.mpr own⟩⟩

/-- The handlers of a tree, or of a part of it, nest within the limit, and their main actions fail with
these faults alone. -/
def Bound (d : Dispatcher) (A : Happening interface → Prop) (P : Fault → Prop)
    (places : List (Place × ActionSpec)) : Prop :=
  ∀ e ∈ places, e.1.length < d.settings.maxDepth ∧ ∀ c f, A ⟨.act e.2 c, .error f⟩ → P f

@[simp] theorem bound_cons {e : Place × ActionSpec} {places : List (Place × ActionSpec)} :
    Bound d A P (e :: places) ↔
      (e.1.length < d.settings.maxDepth ∧ ∀ c f, A ⟨.act e.2 c, .error f⟩ → P f) ∧
        Bound d A P places :=
  List.forall_mem_cons

@[simp] theorem bound_append {first rest : List (Place × ActionSpec)} :
    Bound d A P (first ++ rest) ↔ Bound d A P first ∧ Bound d A P rest :=
  List.forall_mem_append

open Process (promises_done promises_ask promises_after)

theorem promises_main {spec : ActionSpec} {c : Context} (stopped : P .cancelled)
    (acts : ∀ c f, A ⟨.act spec c, .error f⟩ → P f) : (main spec c).Promises A (Within P) := by
  refine promises_after fun stop => ?_
  split
  · exact promises_done (.error stopped)
  · refine promises_ask fun result answered => promises_done ?_
    rintro f rfl
    exact acts c f answered

/-- Sub-handlers that got through or were stopped, and what follows. -/
theorem promises_subs {o : Operation (Bool × Results)} {place : Place} {visited : List Phase}
    {k : Bool × Results → Operation (Run × Results)} (earlier : Results) (stopped : P .cancelled)
    (before : ∀ e ∈ earlier, Within P e.2) (subs : o.Promises A fun p => ∀ e ∈ p.2, Within P e.2)
    (cut : ∀ notes, k (false, notes) = pure (noted place (earlier ++ notes) (.cancelled visited)))
    (next : ∀ notes, (∀ e ∈ earlier ++ notes, Within P e.2) →
      (k (true, notes)).Promises A (AllWithin P)) :
    (o >>= k).Promises A (AllWithin P) := by
  refine subs.bind fun p within => ?_
  have all := List.forall_mem_append.mpr ⟨before, within⟩
  obtain ⟨through, notes⟩ := p
  cases through with
  | false =>
    rw [cut]
    exact promises_done (allWithin_noted (.error stopped) all)
  | true => exact next notes all

mutual

/-- A handler fails with a fault of its main action alone, and so does every handler below it. -/
theorem promises_runNoting (stopped : P .cancelled) (c : Context) (place : Place) :
    (h : EventHandler) → Bound d A P (h.placesFrom place) →
    (runNoting d i c place h).Promises A (AllWithin P)
  | .node spec before success error finally_, bound => by
    simp only [EventHandler.placesFrom, bound_cons, bound_append] at bound
    obtain ⟨⟨fits, acts⟩, ⟨⟨first, second⟩, third⟩, last⟩ := bound
    rw [runNoting, if_neg (by omega)]
    refine promises_subs [] stopped nofun
      (promises_runAllNoting stopped c place .before 0 false before first) (fun _ => rfl) ?_
    intro notes within
    refine promises_after fun _ => (promises_main stopped acts).bind fun result own => ?_
    cases result with
    | ok v =>
      refine promises_after fun ⟨v, c⟩ => ?_
      refine promises_subs notes stopped within
        (promises_runAllNoting stopped c place .success 0 false success second) (fun _ => rfl) ?_
      intro notes' within
      refine promises_after fun _ => ?_
      refine promises_subs (notes ++ notes') stopped within
        (promises_runAllNoting stopped c place .finally_ 0 false finally_ last) (fun _ => rfl) ?_
      exact fun _ within => promises_done (allWithin_noted (.ok v) within)
    | error f =>
      cases f with
      | cancelled => exact promises_done (allWithin_noted (.error stopped) within)
      | _ =>
        refine promises_after fun c => ?_
        refine promises_subs notes stopped within
          (promises_runAllNoting stopped c place .error 0 false error third) (fun _ => rfl) ?_
        intro notes' within
        refine promises_after fun _ => ?_
        refine promises_subs (notes ++ notes') stopped within
          (promises_runAllNoting stopped c place .finally_ 0 true finally_ last) (fun _ => rfl) ?_
        exact fun _ within => promises_done (allWithin_noted own within)

theorem promises_runAllNoting (stopped : P .cancelled) (c : Context) (place : Place)
    (branch : Branch) (n : Nat) (staying : Bool) : (hs : List EventHandler) →
    Bound d A P (EventHandler.placesFromAll place branch n hs) →
    (runAllNoting d i c place branch n staying hs).Promises A fun p => ∀ e ∈ p.2, Within P e.2
  | [], _ => by
    rw [runAllNoting]
    exact promises_done nofun
  | h :: hs, bound => by
    rw [EventHandler.placesFromAll, bound_append] at bound
    have later := promises_runAllNoting stopped c place branch (n + 1) staying hs bound.2
    rw [runAllNoting]
    refine promises_after fun stop => ?_
    split
    · exact promises_done nofun
    split
    · exact later
    refine (promises_runNoting stopped c _ h bound.1).bind fun ⟨r, here⟩ within => ?_
    dsimp only
    split
    · exact promises_done within.2
    · exact later.bind fun p after =>
        promises_done (List.forall_mem_append.mpr ⟨within.2, after⟩)

end

theorem promises_dispatchNoting {h : EventHandler} {payload : Json} (stopped : P .cancelled)
    (bound : Bound d A P h.places) :
    (dispatchNoting d i h payload).Promises A fun p => ∀ e ∈ p.2, Within P e.2 :=
  (promises_runNoting stopped _ [] h bound).bind fun _ within => promises_done within.2

end ScreenFlow.Dispatch

/-! ## The check and the dispatch -/

namespace ScreenFlow

open ScreenFlow.Action (Collaborator)

namespace Dispatch

/-- What the questions of a dispatch can be answered with. A main action is performed by itself, unless
it is cut short. -/
def Answered (trusts : Collaborator → Prop) (x : Executor) (d : Dispatcher) (i : Invocation) :
    Happening interface → Prop
  | ⟨.act spec c, result⟩ => result = .error .cancelled ∨
      ∃ history, (Action.Situation.perform ⟨d, i, spec, c⟩).Ends history result ∧
        ∀ e ∈ history, Action.Answered trusts x e
  | _ => True

variable {d : Dispatcher} {i : Invocation} {x : Executor}

theorem proper_of_answered {spec : ActionSpec} {c : Context} {result : Except Fault Json}
    (has : Action.Situation.HasSource ⟨d, i, spec, c⟩)
    (answered : Answered (fun _ => True) x d i ⟨.act spec c, result⟩) : Proper result := by
  rcases answered with rfl | ⟨history, ends, clean⟩
  · exact .error nofun
  · exact Action.Situation.proper_of_perform has history result ends clean

end Dispatch

theorem ActionSpec.hasSource_of_check {spec : ActionSpec} {s : Screen} {d : Dispatcher} {id : String}
    {c : Context} (sourced : spec.lacksSource s d.registry = false) :
    Action.Situation.HasSource ⟨d, Simulation.onScreen id s, spec, c⟩ := by
  have none := spec.sourceProblem?_eq s d.registry
  rw [sourced, if_neg Bool.false_ne_true, sourceProblem?] at none
  unfold Action.Situation.HasSource
  cases named : spec.dataSourceId with
  | none =>
    rw [named] at none
    simpa using none
  | some id =>
    rw [named] at none
    dsimp only at none ⊢
    cases found : d.registry.find s.dataSources id with
    | ok source => exact ⟨source, found⟩
    | error f =>
      rw [found] at none
      cases none

namespace Screen

/-- What the check of a screen finds, and what that says about execution. -/
structure Agrees (trusts : Collaborator → Prop) (s : Screen) (registry : Registry) (maxDepth : Nat) :
    Prop where
  /-- Nesting is found in a handler exactly if one of its tree lies deeper than the limit. -/
  nesting : ∀ name h, (name, h) ∈ s.handlers →
    ((∃ f ∈ s.check registry maxDepth, f.handler = name ∧ f.isNesting = true) ↔
      ∃ q, (h.at? q).isSome = true ∧ maxDepth < q.length + 1)
  /-- Among what is found in a handler there is one message about a data source for each handler of its
  tree that lacks one. -/
  sources : ∀ name h, (name, h) ∈ s.handlers →
    (s.check registry maxDepth).filter (fun f => f.handler == name && f.isSource) =
      (h.places.filter fun e => e.2.lacksSource s registry).map fun e => ⟨name, e.2.sourceMessage⟩
  /-- If nothing is found, no handler fails with a fault that the check foretells, whichever handler
  of the screen is dispatched and however the dispatch goes. -/
  runs : s.check registry maxDepth = [] →
    ∀ (d : Dispatcher) (x : Executor) (id name : String) (h : EventHandler) (payload : Json),
      d.registry = registry → d.settings.maxDepth = maxDepth → s.handler? name = some h →
      Prod.fst <$> Dispatch.dispatchNoting d (Simulation.onScreen id s) h payload =
        Dispatch.dispatch d (Simulation.onScreen id s) h payload ∧
      ∀ history report results,
        (Dispatch.dispatchNoting d (Simulation.onScreen id s) h payload).Ends history
          (report, results) →
        (∀ e ∈ history, Dispatch.Answered trusts x d (Simulation.onScreen id s) e) →
        ∀ e ∈ results, Proper e.2

/-- **The static check agrees with execution**: it finds handlers that nest too deep and those without
their data source, and if it finds none, no handler of the screen ever fails because of that, as long
as nobody outside reports such a fault. -/
theorem check_agrees (s : Screen) (registry : Registry) (maxDepth : Nat)
    (named : (s.handlers.map Prod.fst).Nodup) : s.Agrees (fun _ => True) registry maxDepth where
  nesting _ _ mem := nesting_found_iff named mem
  sources _ _ mem := sources_found named mem
  runs := by
    rintro clean d x id name h payload rfl rfl found
    refine ⟨Dispatch.forget_dispatchNoting h payload, fun history report results ends answered => ?_⟩
    obtain ⟨fits, sourced⟩ := sound_of_check clean found
    have bound : Dispatch.Bound d (Dispatch.Answered (fun _ => True) x d (Simulation.onScreen id s))
        (fun f => ¬ f.Foretold) h.places := by
      rintro ⟨q, spec⟩ he
      obtain ⟨child, there, -⟩ := EventHandler.mem_places_iff.mp he
      refine ⟨fits q (by rw [there]; rfl), fun c f result => ?_⟩
      exact Dispatch.proper_of_answered (ActionSpec.hasSource_of_check (sourced _ he)) result f rfl
    exact Dispatch.promises_dispatchNoting nofun bound history (report, results) ends answered

/-- A screen that loads orders from a source of its own and says so when that fails. -/
def orders : Screen where
  dataSources := [{ id := "orders", path := "https://shop/orders" }]
  handlers := [("load", .node { action := .apiCall, dataSourceId := some "orders" } [] []
    [.node { action := .toast, params := [("message", .str "lost")] } [] [] [] []] [])]

theorem check_agrees_orders : (orders.handlers.map Prod.fst).Nodup ∧ orders.check {} 8 = [] ∧
    ∀ x id h payload history report results, orders.handler? "load" = some h →
      (Dispatch.dispatchNoting {} (Simulation.onScreen id orders) h payload).Ends history
        (report, results) →
      (∀ e ∈ history, Dispatch.Answered (fun _ => True) x {} (Simulation.onScreen id orders) e) →
      ∀ e ∈ results, Proper e.2 := by
  have named : (orders.handlers.map Prod.fst).Nodup := by decide
  have clean : orders.check {} 8 = [] := by rfl
  refine ⟨named, clean, fun x id h payload history report results found => ?_⟩
  exact ((check_agrees orders {} 8 named).runs clean {} x id "load" h payload rfl rfl found).2
    history report results

/-! ### Faults from outside -/

/-- The check and the execution of every screen agree, whatever those report who are not trusted. -/
def ChecksAgree (trusts : Collaborator → Prop) : Prop :=
  ∀ (s : Screen) (registry : Registry) (maxDepth : Nat), 1 ≤ maxDepth →
    (s.handlers.map Prod.fst).Nodup → s.Agrees trusts registry maxDepth

/-- The handler of an action, without sub-handlers. -/
def handler (action : ActionKind) (params : List (String × Json)) : EventHandler :=
  .node { action, params } [] [] [] []

/-- A screen with one handler. -/
def single (h : EventHandler) : Screen := { handlers := [("h", h)] }

/-- What is reported of a data source that is not there. -/
def lost : Fault := .notFound "orders"

/-- A dispatch whose main action fails like that. -/
def losing (h : EventHandler) : List (Happening Dispatch.interface) :=
  [⟨.cancelled, false⟩, ⟨.act h.spec (.ofEvent .null), .error lost⟩,
    ⟨.host (.toast lost.message .error), ()⟩]

theorem losing_ends (i : Invocation) (action : ActionKind) (params : List (String × Json)) :
    ∃ report, (Dispatch.dispatchNoting {} i (handler action params) .null).Ends
      (losing (handler action params)) (report, [([], .error lost)]) := by
  refine ⟨⟨i.id, [.idle, .executing, .error, .finally_, .done], .ofResult (.error lost)⟩, ?_⟩
  rw [Dispatch.dispatchNoting, handler, Dispatch.runNoting]
  simp only [Dispatch.runAllNoting]
  exact .asked _ (.asked _ (.asked _ (.done _)))

variable {trusts : Collaborator → Prop}

/-- An action that calls no data source is told that there is none. -/
theorem not_checksAgree_of_perform (action : ActionKind) (params : List (String × Json))
    (history : List (Happening Action.interface))
    (clean : (single (handler action params)).check {} 8 = [])
    (ends : (Action.Situation.perform ⟨{}, Simulation.onScreen "i" (single (handler action params)),
      (handler action params).spec, .ofEvent .null⟩).Ends history (.error lost))
    (answered : ∀ e ∈ history, Action.Answered trusts {} e) : ¬ ChecksAgree trusts := by
  intro agree
  have named : ((single (handler action params)).handlers.map Prod.fst).Nodup :=
    List.nodup_singleton _
  obtain ⟨report, run⟩ :=
    losing_ends (Simulation.onScreen "i" (single (handler action params))) action params
  obtain ⟨-, proper⟩ := (agree _ {} 8 (by decide) named).runs clean {} {} "i" "h" _ .null rfl rfl rfl
  refine proper _ report _ run ?_ _ (List.mem_singleton_self _) lost rfl (.unknown "orders")
  simp only [losing, List.forall_mem_cons]
  exact ⟨trivial, .inr ⟨history, ends, answered⟩, trivial, List.forall_mem_nil _⟩

/-- The script engine reports it. -/
theorem not_checksAgree_of_scripts (h : ¬ trusts .scripts) : ¬ ChecksAgree trusts := by
  refine not_checksAgree_of_perform .runScript [("script", .str "s")]
    [⟨.snapshot, Json.null⟩, ⟨.evaluate "s" ((Context.ofEvent .null).scope .null), Except.error lost⟩]
    rfl (.asked _ (.asked _ (.done _))) ?_
  simp only [List.forall_mem_cons]
  exact ⟨trivial, fun trusted => absurd trusted h, List.forall_mem_nil _⟩

/-- The host reports it of a download. -/
theorem not_checksAgree_of_host (h : ¬ trusts .host) : ¬ ChecksAgree trusts := by
  refine not_checksAgree_of_perform .exportJson [("data", .null)]
    [⟨.snapshot, Json.null⟩,
      ⟨.host (.download "export.json" "application/json" (Utf8.encode Json.null.pretty)),
        Except.error lost⟩]
    rfl (.asked _ (.asked _ (.done _))) ?_
  simp only [List.forall_mem_cons]
  exact ⟨trivial, fun trusted => absurd trusted h, List.forall_mem_nil _⟩

/-- That the transport and the devices report no such fault is not enough, nor is it enough if either
the script engine or the host may report one. -/
theorem not_checksAgree : ¬ ChecksAgree (fun c => c = .transport ∨ c = .devices) ∧
    ¬ ChecksAgree (· ≠ .scripts) ∧ ¬ ChecksAgree (· ≠ .host) :=
  ⟨not_checksAgree_of_scripts (by decide), not_checksAgree_of_scripts (by decide),
    not_checksAgree_of_host (by decide)⟩

end Screen

end ScreenFlow
