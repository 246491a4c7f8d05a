import Mathlib.Data.List.Forall2
import Mathlib.Logic.Relation
import ScreenFlow.Process.Basic

/-!
# Processes side by side

Several processes share the state of their surroundings. A process goes on by itself until it asks a
question that suspends it; then others may go on before it is answered, and it may be abandoned.

* `Reachable`: the pools that come about in some order of calls, answers and abandonments;
* `Process.Always`: what holds at every point of one process, whatever the answers are;
* `Reachable.always`: what holds at every point of every process that is called holds of all
  processes in every reachable pool;
* `Step.thread`: what a step does to one call.
-/

namespace ScreenFlow

/-- A question that was asked, and its answer. -/
structure Happening (I : Interface) where
  question : I.Ask
  answer : I.Answer question

/-- What processes run in. -/
structure Surroundings (I : Interface) (σ : Type) where
  /-- Whether others may go on before the question is answered. -/
  suspends : I.Ask → Bool
  /-- The answers that a question may get in a state, each with the state afterwards. -/
  answers : σ → (q : I.Ask) → I.Answer q → σ → Prop
  /-- What is undone if the process is abandoned after this answer. -/
  undo : (q : I.Ask) → I.Answer q → Option (σ → σ) := fun _ _ => none

/-- A process under way, with the call it came from and everything it has been answered so far. -/
structure Thread (I : Interface) (C α : Type) where
  call : C
  process : Process I α
  past : List (Happening I) := []
  abandoned : Bool := false

/-- Processes with the state that they share. -/
structure Pool (I : Interface) (σ C α : Type) where
  state : σ
  threads : List (Thread I C α)

variable {I : Interface} {σ C α : Type}

/-! ### One list of processes and the next -/

theorem getElem?_set_cases {as : List α} {i k : Nat} {a b : α}
    (h : (as.set i a)[k]? = some b) : k = i ∧ b = a ∨ k ≠ i ∧ as[k]? = some b := by
  rcases Nat.decEq i k with apart | rfl
  · exact .inr ⟨Ne.symm apart, (List.getElem?_set_ne apart).symm.trans h⟩
  · have bound := (List.getElem?_eq_some_iff.mp h).1
    rw [List.length_set] at bound
    rw [List.getElem?_set_self bound] at h
    exact .inl ⟨rfl, (Option.some.inj h).symm⟩

/-- What becomes of one entry when another one, or the same, is replaced. -/
theorem getElem?_of_set {as : List α} {i k : Nat} {a b : α} (c : α) (here : as[k]? = some a)
    (there : as[i]? = some b) :
    (as.set i c)[k]? = some a ∨ i = k ∧ b = a ∧ (as.set i c)[k]? = some c := by
  rcases Nat.decEq i k with apart | rfl
  · exact .inl ((List.getElem?_set_ne apart).trans here)
  · have bound := (List.getElem?_eq_some_iff.mp here).1
    exact .inr ⟨rfl, Option.some.inj (there.symm.trans here), List.getElem?_set_self bound⟩

theorem getElem?_concat_cases {as : List α} {a b : α} {k : Nat}
    (h : (as ++ [a])[k]? = some b) : as[k]? = some b ∨ b = a := by
  rcases Nat.lt_or_ge k as.length with old | new
  · rw [List.getElem?_append_left old] at h
    exact .inl h
  · rw [List.getElem?_append_right new, List.getElem?_singleton] at h
    split at h
    · exact .inr (Option.some.inj h).symm
    · cases h

/-- Related lists stay related when one member of each is replaced. -/
theorem forall₂_set {β : Type} {R : α → β → Prop} {as : List α} {bs : List β}
    (h : List.Forall₂ R as bs) {i : Nat} {b : β} (here : bs[i]? = some b) :
    ∃ a, as[i]? = some a ∧ R a b ∧ ∀ a' b', R a' b' → List.Forall₂ R (as.set i a') (bs.set i b') := by
  induction h generalizing i with
  | nil => simp at here
  | @cons a₀ b₀ as bs h₀ rest ih =>
    cases i with
    | zero =>
      obtain rfl : b₀ = b := by simpa using here
      exact ⟨a₀, rfl, h₀, fun a' b' h' => .cons h' rest⟩
    | succ i =>
      obtain ⟨a, there, ha, replace⟩ := ih (by simpa using here)
      exact ⟨a, by simpa using there, ha, fun a' b' h' => .cons h₀ (replace a' b' h')⟩

theorem set_split {as : List α} {i : Nat} {a : α} (there : as[i]? = some a) :
    as = as.take i ++ a :: as.drop (i + 1) ∧
      ∀ b, as.set i b = as.take i ++ b :: as.drop (i + 1) := by
  obtain ⟨bound, rfl⟩ := List.getElem?_eq_some_iff.mp there
  refine ⟨?_, fun b => List.set_eq_take_append_cons_drop ▸ if_pos bound⟩
  rw [← List.drop_eq_getElem_cons bound, List.take_append_drop]

theorem set_perm {as : List α} {i : Nat} {a : α} (there : as[i]? = some a) :
    ∃ rest, as.Perm (a :: rest) ∧ ∀ b, (as.set i b).Perm (b :: rest) := by
  obtain ⟨split, replaced⟩ := set_split there
  refine ⟨as.take i ++ as.drop (i + 1), ?_, fun b => replaced b ▸ List.perm_middle⟩
  conv_lhs => rw [split]
  exact List.perm_middle

namespace Surroundings

/-- A process goes on until it is done or suspended. -/
inductive Runs (S : Surroundings I σ) :
    σ → Process I α → List (Happening I) → σ → Process I α → List (Happening I) → Prop
  | done (s : σ) (a : α) (past) : Runs S s (.done a) past s (.done a) past
  | suspended {q : I.Ask} (hq : S.suspends q = true) (s : σ) (next : I.Answer q → Process I α) (past) :
      Runs S s (.ask q next) past s (.ask q next) past
  | answered {q : I.Ask} (hq : S.suspends q = false) {s s₁ s₂ : σ} {a : I.Answer q}
      {next : I.Answer q → Process I α} {past p₂ past₂} (ha : S.answers s q a s₁)
      (rest : Runs S s₁ (next a) (past ++ [⟨q, a⟩]) s₂ p₂ past₂) :
      Runs S s (.ask q next) past s₂ p₂ past₂

@[simp] theorem runs_done_iff {S : Surroundings I σ} {s s' : σ} {a : α} {past past'}
    {p : Process I α} :
    S.Runs s (.done a) past s' p past' ↔ s' = s ∧ p = .done a ∧ past' = past := by
  constructor
  · intro h
    cases h
    exact ⟨rfl, rfl, rfl⟩
  · rintro ⟨rfl, rfl, rfl⟩
    exact .done s' a past'

theorem runs_suspended_iff {S : Surroundings I σ} {q : I.Ask} (hq : S.suspends q = true)
    {s s' : σ} {next : I.Answer q → Process I α} {past past'} {p : Process I α} :
    S.Runs s (.ask q next) past s' p past' ↔ s' = s ∧ p = .ask q next ∧ past' = past := by
  constructor
  · intro h
    cases h with
    | suspended => exact ⟨rfl, rfl, rfl⟩
    | answered hq' => simp [hq] at hq'
  · rintro ⟨rfl, rfl, rfl⟩
    exact .suspended hq s' next past'

theorem runs_answered_iff {S : Surroundings I σ} {q : I.Ask} (hq : S.suspends q = false)
    {s s' : σ} {next : I.Answer q → Process I α} {past past'} {p : Process I α} :
    S.Runs s (.ask q next) past s' p past' ↔
      ∃ a s₁, S.answers s q a s₁ ∧ S.Runs s₁ (next a) (past ++ [⟨q, a⟩]) s' p past' := by
  constructor
  · intro h
    cases h with
    | suspended hq' => simp [hq] at hq'
    | answered _ ha rest => exact ⟨_, _, ha, rest⟩
  · rintro ⟨a, s₁, ha, rest⟩
    exact .answered hq ha rest

/-- A question that does not suspend and has one answer. -/
theorem runs_determined {S : Surroundings I σ} {q : I.Ask} (hq : S.suspends q = false)
    {s s' s₁ : σ} {a : I.Answer q} (only : ∀ b s₂, S.answers s q b s₂ ↔ b = a ∧ s₂ = s₁)
    {next : I.Answer q → Process I α} {past past'} {p : Process I α} :
    S.Runs s (.ask q next) past s' p past' ↔ S.Runs s₁ (next a) (past ++ [⟨q, a⟩]) s' p past' := by
  rw [runs_answered_iff hq]
  constructor
  · rintro ⟨b, s₂, hb, runs⟩
    obtain ⟨rfl, rfl⟩ := (only b s₂).mp hb
    exact runs
  · exact fun runs => ⟨a, s₁, (only a s₁).mpr ⟨rfl, rfl⟩, runs⟩

/-- A question that does not suspend, may have any answer, and changes nothing. -/
theorem runs_unaltered {S : Surroundings I σ} {q : I.Ask} (hq : S.suspends q = false) {s s' : σ}
    (any : ∀ b s₂, S.answers s q b s₂ ↔ s₂ = s) {next : I.Answer q → Process I α} {past past'}
    {p : Process I α} :
    S.Runs s (.ask q next) past s' p past' ↔ ∃ b, S.Runs s (next b) (past ++ [⟨q, b⟩]) s' p past' := by
  simp only [runs_answered_iff hq, any, exists_eq_left]

/-- A process goes on where nothing lacks an answer that does not suspend it. -/
theorem exists_runs {S : Surroundings I σ}
    (answered : ∀ s q, S.suspends q = false → ∃ a s', S.answers s q a s') (p : Process I α) (s : σ)
    (past : List (Happening I)) : ∃ s' p' past', S.Runs s p past s' p' past' := by
  induction p generalizing s past with
  | done a => exact ⟨s, _, past, .done s a past⟩
  | ask q next ih =>
    cases hq : S.suspends q with
    | true => exact ⟨s, _, past, .suspended hq s next past⟩
    | false =>
      obtain ⟨a, s₁, ha⟩ := answered s q hq
      obtain ⟨s', p', past', rest⟩ := ih a s₁ (past ++ [⟨q, a⟩])
      exact ⟨s', p', past', .answered hq ha rest⟩

/-- The state when everything that a process still holds is undone, the latest first. -/
def undone (S : Surroundings I σ) (past : List (Happening I)) (s : σ) : σ :=
  (past.filterMap fun h => S.undo h.question h.answer).foldr (fun u s => u s) s

/-! ### Steps of a pool -/

/-- The thread at place `i` gets an answer to the question that it waits for, and goes on. -/
inductive Resumes (S : Surroundings I σ) (i : Nat) (q : I.Ask) (a : I.Answer q) :
    Pool I σ C α → Pool I σ C α → Prop
  | mk {p : Pool I σ C α} {t : Thread I C α} {next s₁ s₂ r past} (here : p.threads[i]? = some t)
      (live : t.abandoned = false) (waits : t.process = .ask q next) (ha : S.answers p.state q a s₁)
      (runs : S.Runs s₁ (next a) (t.past ++ [⟨q, a⟩]) s₂ r past) :
      Resumes S i q a p ⟨s₂, p.threads.set i { t with process := r, past }⟩

theorem resumes_iff {S : Surroundings I σ} {p p' : Pool I σ C α} {i : Nat} {t : Thread I C α}
    {q : I.Ask} {a : I.Answer q} {next : I.Answer q → Process I α} (here : p.threads[i]? = some t)
    (live : t.abandoned = false) (waits : t.process = .ask q next) :
    S.Resumes i q a p p' ↔ ∃ s₁ s₂ r past, S.answers p.state q a s₁ ∧
      S.Runs s₁ (next a) (t.past ++ [⟨q, a⟩]) s₂ r past ∧
      p' = ⟨s₂, p.threads.set i { t with process := r, past }⟩ := by
  constructor
  · intro h
    cases h with
    | mk here' _ waits' ha runs =>
      obtain rfl : _ = t := Option.some.inj (here'.symm.trans here)
      obtain ⟨_, heq⟩ := Process.ask.inj (waits'.symm.trans waits)
      cases heq
      exact ⟨_, _, _, _, ha, runs, rfl⟩
  · rintro ⟨s₁, s₂, r, past, ha, runs, rfl⟩
    exact .mk here live waits ha runs

inductive Step (S : Surroundings I σ) (body : C → Process I α) :
    Pool I σ C α → Pool I σ C α → Prop
  | begin {p : Pool I σ C α} (c : C) {s' r past} (runs : S.Runs p.state (body c) [] s' r past) :
      Step S body p ⟨s', p.threads ++ [⟨c, r, past, false⟩]⟩
  | resume {p p' : Pool I σ C α} {i q a} (h : S.Resumes i q a p p') : Step S body p p'
  | abandon {p : Pool I σ C α} {i t q next} (here : p.threads[i]? = some t)
      (live : t.abandoned = false) (waits : t.process = .ask q next) :
      Step S body p ⟨S.undone t.past p.state, p.threads.set i { t with abandoned := true }⟩

/-- The pools that come about from a state in which nothing runs. -/
def Reachable (S : Surroundings I σ) (body : C → Process I α) (s₀ : σ) (p : Pool I σ C α) : Prop :=
  Relation.ReflTransGen (S.Step body) ⟨s₀, []⟩ p

end Surroundings

/-! ### What holds along a process -/

namespace Process

theorem bind_def {β : Type} (p : Process I α) (k : α → Process I β) : p >>= k = p.bind k := rfl

theorem pure_def (a : α) : (pure a : Process I α) = .done a := rfl

/-- Whatever the answers are, `P` holds wherever the process stands. -/
def Always (P : List (Happening I) → Process I α → Prop) : List (Happening I) → Process I α → Prop
  | past, .done a => P past (.done a)
  | past, .ask q next => P past (.ask q next) ∧ ∀ a, Always P (past ++ [⟨q, a⟩]) (next a)

theorem Always.here {P : List (Happening I) → Process I α → Prop} {past} {p : Process I α}
    (h : Always P past p) : P past p := by
  cases p with
  | done a => exact h
  | ask q next => exact h.1

theorem Always.runs {S : Surroundings I σ} {P : List (Happening I) → Process I α → Prop}
    {s s' : σ} {p p' : Process I α} {past past'} (r : S.Runs s p past s' p' past')
    (h : Always P past p) : Always P past' p' := by
  induction r with
  | done | suspended => exact h
  | answered _ _ _ ih => exact ih (h.2 _)

end Process

namespace Surroundings

variable {S : Surroundings I σ} {body : C → Process I α}

/-- One step keeps what holds along every process. -/
theorem Step.always {P : C → List (Happening I) → Process I α → Prop}
    (hbody : ∀ c, (body c).Always (P c) []) {p p' : Pool I σ C α} (step : S.Step body p p')
    (h : ∀ t ∈ p.threads, t.process.Always (P t.call) t.past) :
    ∀ t ∈ p'.threads, t.process.Always (P t.call) t.past := by
  intro t ht
  cases step with
  | begin c runs =>
    rcases List.mem_append.mp ht with old | new
    · exact h t old
    · rw [List.mem_singleton] at new
      subst new
      exact (hbody c).runs runs
  | resume r =>
    cases r with
    | mk here live waits ha runs =>
      rcases List.mem_or_eq_of_mem_set ht with old | rfl
      · exact h t old
      · have before := h _ (List.mem_of_getElem? here)
        rw [waits] at before
        exact (before.2 _).runs runs
  | abandon here =>
    rcases List.mem_or_eq_of_mem_set ht with old | rfl
    · exact h t old
    · have before := h _ (List.mem_of_getElem? here)
      exact before

theorem Reachable.always {P : C → List (Happening I) → Process I α → Prop}
    (hbody : ∀ c, (body c).Always (P c) []) {s₀ : σ} {p : Pool I σ C α}
    (h : S.Reachable body s₀ p) : ∀ t ∈ p.threads, t.process.Always (P t.call) t.past := by
  induction h with
  | refl => simp
  | tail _ step ih => exact step.always hbody ih

/-! ### What becomes of one call -/

/-- What is answered while a process goes on by itself does not suspend it. -/
theorem Runs.past {s s' : σ} {p p' : Process I α} {past past' : List (Happening I)}
    (runs : S.Runs s p past s' p' past') :
    ∃ new, past' = past ++ new ∧ ∀ h ∈ new, S.suspends h.question = false := by
  induction runs with
  | done | suspended => exact ⟨[], (List.append_nil _).symm, nofun⟩
  | @answered q hq s s₁ s₂ a next past p₂ past₂ ha rest ih =>
    obtain ⟨new, rfl, quiet⟩ := ih
    refine ⟨⟨q, a⟩ :: new, List.append_assoc _ _ _, fun h hmem => ?_⟩
    rcases List.mem_cons.mp hmem with rfl | later
    · exact hq
    · exact quiet h later

/-- A call keeps its place, and one that is done stays as it is. -/
theorem Step.thread {p p' : Pool I σ C α} {k : Nat} {t : Thread I C α}
    (step : S.Step body p p') (here : p.threads[k]? = some t) :
    ∃ t', p'.threads[k]? = some t' ∧ t'.call = t.call ∧
      ∀ a, t.process = .done a → t' = t := by
  have replaced {j : Nat} {t₁ t' : Thread I C α} {q : I.Ask} {next : I.Answer q → Process I α}
      (there : p.threads[j]? = some t₁) (waits : t₁.process = .ask q next)
      (same : t'.call = t₁.call) : ∃ t₂, (p.threads.set j t')[k]? = some t₂ ∧
        t₂.call = t.call ∧ ∀ a, t.process = .done a → t₂ = t := by
    rcases getElem?_of_set t' here there with other | ⟨-, rfl, replaced⟩
    · exact ⟨t, other, rfl, fun _ _ => rfl⟩
    · refine ⟨t', replaced, same, fun a done => ?_⟩
      rw [waits] at done
      cases done
  cases step with
  | begin =>
    have bound := (List.getElem?_eq_some_iff.mp here).1
    exact ⟨t, (List.getElem?_append_left bound).trans here, rfl, fun _ _ => rfl⟩
  | resume resumes =>
    cases resumes with
    | mk there live waits ha runs => exact replaced there waits rfl
  | abandon there live waits => exact replaced there waits rfl

theorem thread_of_steps {p p' : Pool I σ C α} {k : Nat} {t : Thread I C α}
    (steps : Relation.ReflTransGen (S.Step body) p p') (here : p.threads[k]? = some t) :
    ∃ t', p'.threads[k]? = some t' ∧ t'.call = t.call ∧
      ∀ a, t.process = .done a → t' = t := by
  induction steps with
  | refl => exact ⟨t, here, rfl, fun _ _ => rfl⟩
  | tail _ step ih =>
    obtain ⟨t', here', call', stays'⟩ := ih
    obtain ⟨t'', here'', call'', stays''⟩ := step.thread here'
    refine ⟨t'', here'', call''.trans call', fun a done => ?_⟩
    obtain rfl := stays' a done
    exact stays'' a done

/-! ### One call by itself -/

theorem Reachable.begins {s₀ s' : σ} {c : C} {r : Process I α} {past}
    (runs : S.Runs s₀ (body c) [] s' r past) :
    S.Reachable body s₀ ⟨s', [⟨c, r, past, false⟩]⟩ :=
  Relation.ReflTransGen.single (.begin (p := ⟨s₀, []⟩) c runs)

theorem Reachable.resumes {s₀ s s₁ s₂ : σ} {c : C} {q : I.Ask} {a : I.Answer q}
    {next : I.Answer q → Process I α} {r : Process I α} {past past₂}
    (h : S.Reachable body s₀ ⟨s, [⟨c, .ask q next, past, false⟩]⟩) (ha : S.answers s q a s₁)
    (runs : S.Runs s₁ (next a) (past ++ [⟨q, a⟩]) s₂ r past₂) :
    S.Reachable body s₀ ⟨s₂, [⟨c, r, past₂, false⟩]⟩ := by
  have resumed : S.Resumes 0 q a ⟨s, [⟨c, .ask q next, past, false⟩]⟩
      ⟨s₂, [⟨c, r, past₂, false⟩]⟩ :=
    (resumes_iff rfl rfl rfl).mpr ⟨s₁, s₂, r, past₂, ha, runs, rfl⟩
  exact h.tail (.resume resumed)

/-! ### Going on at any time -/

/-- The same surroundings, if others may go on before any question is answered. -/
def finely (S : Surroundings I σ) : Surroundings I σ := { S with suspends := fun _ => true }

theorem finely_runs_iff {s s' : σ} {p p' : Process I α} {past past' : List (Happening I)} :
    S.finely.Runs s p past s' p' past' ↔ s' = s ∧ p' = p ∧ past' = past := by
  cases p with
  | done a => exact runs_done_iff
  | ask q next => exact runs_suspended_iff rfl

theorem finely_step {s s₁ : σ} {ts : List (Thread I C α)} {i : Nat} {c : C} {q : I.Ask}
    {a : I.Answer q} {next : I.Answer q → Process I α} {past : List (Happening I)}
    (here : ts[i]? = some ⟨c, .ask q next, past, false⟩) (ha : S.answers s q a s₁) :
    S.finely.Step body ⟨s, ts⟩ ⟨s₁, ts.set i ⟨c, next a, past ++ [⟨q, a⟩], false⟩⟩ := by
  refine .resume (i := i) (q := q) (a := a) ((resumes_iff here rfl rfl).mpr ?_)
  exact ⟨s₁, s₁, next a, past ++ [⟨q, a⟩], ha, finely_runs_iff.mpr ⟨rfl, rfl, rfl⟩, rfl⟩

/-- What a process does at one go, it does in single steps as well. -/
theorem Runs.finely {s s' : σ} {r r' : Process I α} {past past' : List (Happening I)}
    (runs : S.Runs s r past s' r' past') {ts : List (Thread I C α)} {i : Nat} {c : C}
    (here : ts[i]? = some ⟨c, r, past, false⟩) :
    Relation.ReflTransGen (S.finely.Step body) ⟨s, ts⟩ ⟨s', ts.set i ⟨c, r', past', false⟩⟩ := by
  obtain ⟨bound, same⟩ := List.getElem?_eq_some_iff.mp here
  induction runs generalizing ts with
  | done | suspended => rw [← same, List.set_getElem_self]
  | @answered q hq s s₁ s₂ a next past p₂ past₂ ha rest ih =>
    have bound' : i < (ts.set i ⟨c, next a, past ++ [⟨q, a⟩], false⟩).length := by
      rwa [List.length_set]
    have steps := ih (List.getElem?_set_self bound) bound' (List.getElem_set_self bound')
    rw [List.set_set] at steps
    exact steps.head (finely_step here ha)

theorem Reachable.finely {s₀ : σ} {p : Pool I σ C α} (h : S.Reachable body s₀ p) :
    S.finely.Reachable body s₀ p := by
  induction h with
  | refl => exact .refl
  | @tail p p' _ step ih =>
    cases step with
    | begin c runs =>
      have step : S.finely.Step body p ⟨p.state, p.threads ++ [⟨c, body c, [], false⟩]⟩ :=
        .begin c (finely_runs_iff.mpr ⟨rfl, rfl, rfl⟩)
      have new : (p.threads ++ [⟨c, body c, [], false⟩])[p.threads.length]? =
        some ⟨c, body c, [], false⟩ := List.getElem?_concat_length
      have steps : Relation.ReflTransGen (S.finely.Step body) _ _ := runs.finely new
      rw [List.set_append_right _ _ (Nat.le_refl _), Nat.sub_self] at steps
      exact (ih.tail step).trans steps
    | resume resumes =>
      cases resumes with
      | @mk t next s₁ s₂ r past here live waits ha runs =>
        obtain ⟨c, _, before, _⟩ := t
        subst live waits
        have bound := (List.getElem?_eq_some_iff.mp here).1
        have steps : Relation.ReflTransGen (S.finely.Step body) _ _ :=
          runs.finely (List.getElem?_set_self bound : _ = some ⟨c, next _, _, false⟩)
        rw [List.set_set] at steps
        exact (ih.tail (finely_step here ha)).trans steps
    | abandon here live waits => exact ih.tail (.abandon here live waits)

end Surroundings

end ScreenFlow
