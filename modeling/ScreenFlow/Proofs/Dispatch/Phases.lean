import Mathlib.Data.List.Infix
import ScreenFlow.Proofs.Dispatch.Received
import ScreenFlow.Proofs.Dispatch.Traversal
import ScreenFlow.Simulation.Wiring

/-!
# The phases that are reported

A report names the phases that the top-level handler went through, and how it ended. There are two ways
through a handler, by success and by error, and a cancellation ends it somewhere on one of them.

* `route`: the phases of a handler that is not cut short;
* `Makes`: what a handler makes of the value of its action;
* `Accounts`: phases and an outcome that fit what happened;
* `accounts_of_runAt`: a run of the top-level handler accounts for what happened in it;
* `Accounts.orderly`: what follows for the phases alone;
* `dispatch_accounts`: a whole dispatch.
-/

namespace ScreenFlow

/-- A dispatcher that is built allows at least one level of handlers. -/
theorem Simulation.World.deep_of_withDispatcher {w w' : Simulation.World}
    {settings : DispatchSettings} {registry : Registry} {defaults : Defaults}
    {translate : Template.Translator} {streaming : Bool}
    {substitutes : List (ActionKind × Simulation.Substitute)}
    (built : w.withDispatcher settings registry defaults translate streaming substitutes = .ok w') :
    1 ≤ settings.maxDepth := by
  unfold withDispatcher at built
  split at built
  case isTrue => cases built
  case isFalse some => exact Nat.one_le_iff_ne_zero.mpr some

namespace Dispatch

variable {d : Dispatcher} {i : Invocation} {c : Context} {h : EventHandler} {spec : ActionSpec}
  {v w : Json} {branch : Phase} {visited phases : List Phase} {outcome : Outcome}
  {history first : List (Happening placed)}

/-! ### The two ways -/

/-- The phases up to the main action. -/
def entered (h : EventHandler) : List Phase :=
  if h.before.isEmpty then [.idle] else [.idle, .before]

/-- The phases of a handler that is not cut short, by this branch. -/
def route (h : EventHandler) (branch : Phase) : List Phase :=
  entered h ++ [.executing, branch, .finally_, .done]

/-- The top-level main action came out like this. -/
def Acted (spec : ActionSpec) (history : List (Happening placed)) (result : Except Fault Json) :
    Prop :=
  ∃ c, (⟨([], .act spec c), result⟩ : Happening placed) ∈ history

/-- The top-level handler had the value of its action evaluated by this script. -/
def Evaluated (history : List (Happening placed)) (script : String) (v : Json)
    (answer : Except Fault Json) : Prop :=
  ∃ state, (⟨([], .evaluate script (.obj [("result", v), ("state", state)])), answer⟩ :
    Happening placed) ∈ history

/-- The value as the mapping has it: as it is, the picked parts of it, or what the script
says it is. -/
inductive Mapping (history : List (Happening placed)) (v : Json) : Option ResultMapping → Json → Prop
  | none : Mapping history v none v
  | picked (paths : List (String × String)) :
      Mapping history v (some (.paths paths)) (Result.pick paths v)
  | computed {script : String} {mapped : Json} (told : Evaluated history script v (.ok mapped)) :
      Mapping history v (some (.script script)) mapped
  | fails {script : String} {f : Fault} (told : Evaluated history script v (.error f)) :
      Mapping history v (some (.script script)) (Result.unmapped f)

/-- What the top-level handler makes of the value of its action. -/
def Makes (spec : ActionSpec) (history : List (Happening placed)) (v w : Json) : Prop :=
  Skips spec v ∧ w = v ∨ ¬ Skips spec v ∧
    ∃ response, spec.response = some response ∧ Mapping history v response.mapping w

/-- The phases and the outcome fit what happened. -/
inductive Accounts (h : EventHandler) (history : List (Happening placed)) :
    List Phase → Outcome → Prop
  | succeeded {v w : Json} (acted : Acted h.spec history (.ok v))
      (makes : Makes h.spec history v w) : Accounts h history (route h .success) (.succeeded w)
  | failed {f : Fault} (acted : Acted h.spec history (.error f)) (other : f ≠ .cancelled) :
      Accounts h history (route h .error) (.failed (FaultInfo.ofFault f))
  | cancelled {branch : Phase} {visited : List Phase} (way : branch = .success ∨ branch = .error)
      (begun : visited <+: route h branch) (unfinished : .done ∉ visited) :
      Accounts h history (visited ++ [.done]) .cancelled

/-! ### What a handler makes of a value -/

theorem Acted.mono {result : Except Fault Json} (h : Acted spec first result)
    (part : first ⊆ history) : Acted spec history result :=
  h.imp fun _ acted => part acted

theorem Evaluated.mono {script : String} {answer : Except Fault Json}
    (h : Evaluated first script v answer) (part : first ⊆ history) :
    Evaluated history script v answer :=
  h.imp fun _ evaluated => part evaluated

theorem Mapping.mono {m : Option ResultMapping} (h : Mapping first v m w)
    (part : first ⊆ history) : Mapping history v m w := by
  cases h with
  | none => exact .none
  | picked paths => exact .picked paths
  | computed told => exact .computed (told.mono part)
  | fails told => exact .fails (told.mono part)

theorem Makes.mono (h : Makes spec first v w) (part : first ⊆ history) :
    Makes spec history v w :=
  h.imp_right fun ⟨acts, response, handles, maps⟩ => ⟨acts, response, handles, maps.mono part⟩

theorem mapping_of_mapResult {m : Option ResultMapping}
    (ends : (asking [] (mapResult m v)).Ends history w) : Mapping history v m w := by
  match m with
  | none =>
    obtain ⟨rfl, rfl⟩ := Process.ends_done_iff.mp ends
    exact .none
  | some (.paths paths) =>
    obtain ⟨rfl, rfl⟩ := Process.ends_done_iff.mp ends
    exact .picked paths
  | some (.script script) =>
    obtain ⟨state, _, rfl, looked⟩ := Process.ends_ask_iff.mp ends
    obtain ⟨answer, _, rfl, answered⟩ := Process.ends_ask_iff.mp looked
    cases answer with
    | ok mapped =>
      obtain ⟨rfl, rfl⟩ := Process.ends_done_iff.mp answered
      exact .computed ⟨state, by simp⟩
    | error f =>
      obtain ⟨rfl, rfl⟩ := Process.ends_done_iff.mp answered
      exact .fails ⟨state, by simp⟩

theorem makes_of_bindResult (ends : (asking [] (bindResult d spec c v)).Ends history w) :
    Makes spec history v w := by
  by_cases skips : Skips spec v
  · rw [bindResult_skips skips] at ends
    obtain ⟨-, rfl⟩ := Process.ends_done_iff.mp ends
    exact .inl ⟨skips, rfl⟩
  cases handles : spec.response with
  | none => exact absurd (.inl handles) skips
  | some response =>
    have goes : ¬ (spec.action == .graphqlSubscription || Result.isQueued v) = true := by
      simp only [Bool.or_eq_true, beq_iff_eq]
      exact fun marked => skips (.inr marked)
    simp only [bindResult, handles, if_neg goes] at ends
    rw [asking_bind] at ends
    obtain ⟨mapping, mapped, writing, rfl, maps, writes⟩ := Process.ends_bind_iff.mp ends
    have kept : w = mapped := by
      cases path : response.statePath with
      | none =>
        rw [path] at writes
        exact (Process.ends_done_iff.mp writes).2
      | some template =>
        rw [path] at writes
        obtain ⟨state, _, rfl, looked⟩ := Process.ends_ask_iff.mp writes
        obtain ⟨_, _, rfl, wrote⟩ := Process.ends_ask_iff.mp looked
        exact (Process.ends_done_iff.mp wrote).2
    subst kept
    exact .inr ⟨skips, response, handles,
      (mapping_of_mapResult maps).mono (List.subset_append_left _ _)⟩

theorem makes_of_succeed {c' : Context}
    (ends : (asking [] (succeed d i spec c v)).Ends history (w, c')) : Makes spec history v w := by
  rw [succeed, asking_bind] at ends
  obtain ⟨binding, mapped, later, rfl, binds, ends⟩ := Process.ends_bind_iff.mp ends
  rw [asking_bind] at ends
  obtain ⟨_, _, _, rfl, -, ends⟩ := Process.ends_bind_iff.mp ends
  rw [asking_bind] at ends
  obtain ⟨_, _, _, rfl, -, ends⟩ := Process.ends_bind_iff.mp ends
  rw [asking_bind] at ends
  obtain ⟨_, _, _, rfl, -, ends⟩ := Process.ends_bind_iff.mp ends
  obtain ⟨rfl, same⟩ := Process.ends_done_iff.mp ends
  obtain rfl : w = mapped := congrArg Prod.fst same
  exact (makes_of_bindResult binds).mono (List.subset_append_left _ _)

/-! ### A run of the top-level handler -/

theorem acted_of_main {result : Except Fault Json}
    (ends : (asking [] (main spec c)).Ends history result) :
    result = .error .cancelled ∨ Acted spec history result := by
  obtain ⟨stopped, _, rfl, looked⟩ := Process.ends_ask_iff.mp ends
  cases stopped with
  | true => exact .inl (Process.ends_done_iff.mp looked).2
  | false =>
    obtain ⟨answer, _, rfl, answered⟩ := Process.ends_ask_iff.mp looked
    obtain ⟨rfl, rfl⟩ := Process.ends_done_iff.mp answered
    exact .inr ⟨c, by simp⟩

/-- The end of a handler, from the sub-handlers of its branch on: it is cancelled in these, or in the
last ones, or has its result. -/
theorem run_of_branch {subs last : Placed Bool} {moving : Placed Unit} {r : Run}
    {result : Except Fault Json}
    (ends : Process.Ends (do
      if !(← subs) then return Run.cancelled (visited ++ [branch])
      moving
      if !(← last) then return Run.cancelled (visited ++ [branch] ++ [.finally_])
      return (⟨visited ++ [branch] ++ [.finally_] ++ [.done], result⟩ : Run)) history r) :
    r = .cancelled (visited ++ [branch]) ∨ r = .cancelled (visited ++ [branch] ++ [.finally_]) ∨
      r = ⟨visited ++ [branch] ++ [.finally_] ++ [.done], result⟩ := by
  obtain ⟨_, through, _, rfl, -, ends⟩ := Process.ends_bind_iff.mp ends
  cases through with
  | false => exact .inl (Process.ends_done_iff.mp ends).2
  | true =>
    obtain ⟨_, _, _, rfl, -, ends⟩ := Process.ends_bind_iff.mp ends
    obtain ⟨_, through, _, rfl, -, ends⟩ := Process.ends_bind_iff.mp ends
    cases through with
    | false => exact .inr (.inl (Process.ends_done_iff.mp ends).2)
    | true => exact .inr (.inr (Process.ends_done_iff.mp ends).2)

theorem unfinished_entered : .done ∉ entered h := by
  unfold entered
  split <;> simp

/-- A handler that is cut short before its main action, or in it, could have gone either way. -/
theorem accounts_of_early (early : visited = entered h ∨ visited = entered h ++ [.executing]) :
    Accounts h history (Run.cancelled visited).phases
      (.ofResult (Run.cancelled visited).result) := by
  have unfinished := unfinished_entered (h := h)
  rcases early with rfl | rfl
  · exact .cancelled (.inl rfl) ⟨[.executing, .success, .finally_, .done], by simp [route]⟩
      unfinished
  · exact .cancelled (.inl rfl) ⟨[.success, .finally_, .done], by simp [route]⟩
      (by simp [unfinished])

/-- The end of a handler on one of its ways, where its result is accounted for. -/
theorem accounts_of_branch {r : Run} {result : Except Fault Json}
    (way : branch = .success ∨ branch = .error)
    (ended : r = .cancelled (entered h ++ [.executing] ++ [branch]) ∨
      r = .cancelled (entered h ++ [.executing] ++ [branch] ++ [.finally_]) ∨
      r = ⟨entered h ++ [.executing] ++ [branch] ++ [.finally_] ++ [.done], result⟩)
    (whole : Accounts h history (route h branch) (.ofResult result)) :
    Accounts h history r.phases (.ofResult r.result) := by
  have unfinished := unfinished_entered (h := h)
  have other : branch ≠ .done := by rcases way with rfl | rfl <;> simp
  rcases ended with rfl | rfl | rfl
  · exact .cancelled way ⟨[.finally_, .done], by simp [route]⟩ (by simp [unfinished, other.symm])
  · exact .cancelled way ⟨[.done], by simp [route]⟩ (by simp [unfinished, other.symm])
  · simpa [route] using whole

theorem ofResult_error {f : Fault} (other : f ≠ .cancelled) :
    Outcome.ofResult (.error f) = .failed (FaultInfo.ofFault f) := by
  cases f with
  | cancelled => exact absurd rfl other
  | _ => rfl

/-- A run of the top-level handler accounts for what happened in it. Of its sub-handlers it takes no
more notice than whether they were cancelled. -/
theorem accounts_of_runAt (deep : 1 ≤ d.settings.maxDepth) {r : Run}
    (ends : (runAt d i c [] h).Ends history r) :
    Accounts h history r.phases (.ofResult r.result) := by
  obtain ⟨spec, before, success, error, finally_⟩ := h
  have fits : ¬ d.settings.maxDepth < ([] : Place).length + 1 := Nat.not_lt.mpr deep
  rw [runAt, if_neg fits] at ends
  obtain ⟨_, through, _, rfl, -, ends⟩ := Process.ends_bind_iff.mp ends
  cases through with
  | false =>
    obtain ⟨-, rfl⟩ := Process.ends_done_iff.mp ends
    exact accounts_of_early (.inl rfl)
  | true =>
    obtain ⟨patching, _, _, rfl, -, ends⟩ := Process.ends_bind_iff.mp ends
    obtain ⟨acting, result, _, rfl, acts, ends⟩ := Process.ends_bind_iff.mp ends
    have acted := acted_of_main acts
    split at ends
    case h_1 =>
      obtain ⟨-, rfl⟩ := Process.ends_done_iff.mp ends
      exact accounts_of_early (.inr rfl)
    case h_2 v =>
      obtain ⟨succeeding, ⟨w, c'⟩, _, rfl, succeeds, ends⟩ := Process.ends_bind_iff.mp ends
      refine accounts_of_branch (.inl rfl) (run_of_branch ends)
        (.succeeded ((acted.resolve_left (by simp)).mono ?_) ((makes_of_succeed succeeds).mono ?_))
      · intro e here
        simp [here]
      · intro e here
        simp [here]
    case h_3 f other =>
      obtain ⟨_, c', _, rfl, -, ends⟩ := Process.ends_bind_iff.mp ends
      refine accounts_of_branch (.inr rfl) (run_of_branch ends) ?_
      rw [ofResult_error other]
      refine .failed ((acted.resolve_left fun cancelled => other (Except.error.inj cancelled)).mono
        fun e here => ?_) other
      simp [here]

/-! ### The phases alone -/

/-- Each phase occurs at most once, at most one branch is taken, and the last sub-handlers come after
it. -/
structure Orderly (phases : List Phase) : Prop where
  once : phases.Nodup
  oneWay : ¬ (.success ∈ phases ∧ .error ∈ phases)
  closing : .finally_ ∈ phases →
    [.success, .finally_].Sublist phases ∨ [.error, .finally_].Sublist phases

/-- The outcome shows in the branch that was taken. -/
structure Shows (phases : List Phase) (outcome : Outcome) : Prop where
  succeeded : (∃ v, outcome = .succeeded v) ↔ .success ∈ phases
  failed : (∃ info, outcome = .failed info) ↔ .error ∈ phases

theorem entered_cases (h : EventHandler) : entered h = [.idle] ∨ entered h = [.idle, .before] := by
  unfold entered
  split
  · exact .inl rfl
  · exact .inr rfl

instance (phases : List Phase) : Decidable (Orderly phases) :=
  decidable_of_iff (phases.Nodup ∧ ¬ (.success ∈ phases ∧ .error ∈ phases) ∧
      (.finally_ ∈ phases →
        [.success, .finally_].Sublist phases ∨ [.error, .finally_].Sublist phases))
    ⟨fun ⟨once, oneWay, closing⟩ => ⟨once, oneWay, closing⟩,
      fun ⟨once, oneWay, closing⟩ => ⟨once, oneWay, closing⟩⟩

/-- Phases that begin like a way through a handler and end with `done` are orderly: there are four such
ways, with few beginnings each. -/
theorem orderly_of_begun (way : branch = .success ∨ branch = .error)
    (begun : visited <+: route h branch) (unfinished : .done ∉ visited) :
    Orderly (visited ++ [.done]) := by
  have all : ∀ entry ∈ [[Phase.idle], [.idle, .before]], ∀ branch ∈ [Phase.success, .error],
      ∀ visited ∈ (entry ++ [.executing, branch, .finally_, .done]).inits,
        .done ∉ visited → Orderly (visited ++ [.done]) := by
    decide
  have entry : entered h ∈ [[Phase.idle], [.idle, .before]] := by simpa using entered_cases h
  exact all _ entry _ (by simpa using way) _ ((List.mem_inits _ _).mpr begun) unfinished

theorem Accounts.orderly (accounts : Accounts h history phases outcome) : Orderly phases := by
  have unfinished := unfinished_entered (h := h)
  cases accounts with
  | succeeded =>
    have whole : route h .success = entered h ++ [.executing, .success, .finally_] ++ [.done] := by
      simp [route]
    rw [whole]
    exact orderly_of_begun (h := h) (.inl rfl) (whole ▸ List.prefix_append _ _) (by simp [unfinished])
  | failed =>
    have whole : route h .error = entered h ++ [.executing, .error, .finally_] ++ [.done] := by
      simp [route]
    rw [whole]
    exact orderly_of_begun (h := h) (.inr rfl) (whole ▸ List.prefix_append _ _) (by simp [unfinished])
  | cancelled way begun unfinished => exact orderly_of_begun way begun unfinished

theorem Accounts.shows (accounts : Accounts h history phases outcome)
    (through : outcome ≠ .cancelled) : Shows phases outcome := by
  cases accounts with
  | succeeded =>
    rcases entered_cases h with entry | entry <;> constructor <;> simp [route, entry]
  | failed =>
    rcases entered_cases h with entry | entry <;> constructor <;> simp [route, entry]
  | cancelled => exact absurd rfl through

/-! ### A whole dispatch -/

/-- **The reported phases and the outcome match what happened**, whatever the actions come to and
whenever the dispatch is cancelled. A handler whose action succeeds goes by success and comes to what it
makes of the value; one whose action fails goes by error and comes to that failure; a cancellation leaves
the beginning of one of these ways. That there is
some depth is what `deep_of_withDispatcher` gives. -/
theorem dispatch_accounts (d : Dispatcher) (i : Invocation) (h : EventHandler) (payload : Json)
    (deep : 1 ≤ d.settings.maxDepth) :
    forget (dispatchAt d i h payload) = dispatch d i h payload ∧
    (∀ P : Happening placed → Prop, (∀ q, ∃ x, P ⟨q, x⟩) → ∃ history report,
      (dispatchAt d i h payload).Ends history report ∧ ∀ e ∈ history, P e) ∧
    ∀ history report, (dispatchAt d i h payload).Ends history report →
      Accounts h history report.phases report.outcome ∧
      (report.outcome ≠ .cancelled → Shows report.phases report.outcome) ∧
      Orderly report.phases := by
  refine ⟨forget_dispatchAt h payload,
    fun P answered => Process.exists_ends answered (dispatchAt d i h payload),
    fun history report ends => ?_⟩
  rw [dispatchAt] at ends
  obtain ⟨_, r, _, rfl, ran, reported⟩ := Process.ends_bind_iff.mp ends
  obtain ⟨rfl, rfl⟩ := Process.ends_done_iff.mp reported
  have accounts : Accounts h _ r.phases (.ofResult r.result) := accounts_of_runAt deep ran
  rw [List.append_nil]
  exact ⟨accounts, accounts.shows, accounts.orderly⟩

/-- What happens where a request fails. -/
def refused : List (Happening placed) :=
  [⟨([], .cancelled), false⟩,
    ⟨([], .act { action := .apiCall } (.ofEvent .null)), .error (.notFound "orders")⟩,
    ⟨([], .host (.toast (FaultInfo.ofFault (.notFound "orders")).message .error)), ()⟩]

theorem dispatch_accounts_refused :
    ∃ report, (dispatchAt {} ⟨"inv", [], false⟩ (leaf .apiCall) .null).Ends refused report ∧
      report.phases = [.idle, .executing, .error, .finally_, .done] ∧
      Accounts (leaf .apiCall) refused report.phases report.outcome := by
  have ends : (dispatchAt {} ⟨"inv", [], false⟩ (leaf .apiCall) .null).Ends refused
      ⟨"inv", [.idle, .executing, .error, .finally_, .done],
        .failed (FaultInfo.ofFault (.notFound "orders"))⟩ :=
    .asked _ (.asked _ (.asked _ (.done _)))
  obtain ⟨-, -, accounted⟩ := dispatch_accounts {} ⟨"inv", [], false⟩ (leaf .apiCall) .null (by decide)
  exact ⟨_, ends, rfl, (accounted _ _ ends).1⟩

end Dispatch

end ScreenFlow
