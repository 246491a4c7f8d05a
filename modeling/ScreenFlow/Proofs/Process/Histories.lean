import ScreenFlow.Proofs.Process.Interleaving

/-!
# Histories of processes

A process that is answered to its end leaves a history: what it asked and what it was told.

* `Process.Ends`: the histories of a process, with its results;
* `Process.ends_bind_iff`: a history of two processes, one after the other, falls into two;
* `Process.Asks`: what a process can ask at all, whatever the answers are;
* `Process.Promises`: what a process comes to, if the answers are as they should be; `Within`: which
  faults there can be;
* `Surroundings.Allows`: the histories that the surroundings admit, from a state to a state;
* `Surroundings.Comes`: what a process comes to in its surroundings if nothing else happens meanwhile,
  with the history that leads to it; `Surroundings.Leads`: the same without the history;
* `Surroundings.Ensures`: what is true of everything that it can come to, with one rule for each way
  to build a process;
* `Surroundings.Forced`: the questions to which there is one answer only.
-/

namespace ScreenFlow

variable {I : Interface} {σ α β : Type}

namespace Process

/-- The process asks these questions, is given these answers, and is done with this result. -/
inductive Ends : Process I α → List (Happening I) → α → Prop
  | done (a : α) : Ends (.done a) [] a
  | asked {q : I.Ask} {next : I.Answer q → Process I α} (x : I.Answer q)
      {history : List (Happening I)} {a : α} (rest : Ends (next x) history a) :
      Ends (.ask q next) (⟨q, x⟩ :: history) a

@[simp] theorem ends_done_iff {a b : α} {history : List (Happening I)} :
    (done a : Process I α).Ends history b ↔ history = [] ∧ b = a := by
  constructor
  · intro h
    cases h
    exact ⟨rfl, rfl⟩
  · rintro ⟨rfl, rfl⟩
    exact .done b

@[simp] theorem ends_ask_iff {q : I.Ask} {next : I.Answer q → Process I α}
    {history : List (Happening I)} {b : α} :
    (ask q next).Ends history b ↔ ∃ x rest, history = ⟨q, x⟩ :: rest ∧ (next x).Ends rest b := by
  constructor
  · intro h
    cases h with
    | asked x rest => exact ⟨x, _, rfl, rest⟩
  · rintro ⟨x, rest, rfl, h⟩
    exact .asked x h

theorem ends_nil_iff {p : Process I α} {a : α} : p.Ends [] a ↔ p = done a := by
  constructor
  · intro h
    cases h
    rfl
  · rintro rfl
    exact .done a

theorem ends_cons_iff {p : Process I α} {q : I.Ask} {x : I.Answer q} {history : List (Happening I)}
    {a : α} :
    p.Ends (⟨q, x⟩ :: history) a ↔ ∃ next, p = ask q next ∧ (next x).Ends history a := by
  constructor
  · intro h
    cases h with
    | asked x rest => exact ⟨_, rfl, rest⟩
  · rintro ⟨next, rfl, rest⟩
    exact .asked x rest

theorem ends_bind_iff {p : Process I α} {k : α → Process I β} {history : List (Happening I)}
    {b : β} : (p.bind k).Ends history b ↔
      ∃ first a rest, history = first ++ rest ∧ p.Ends first a ∧ (k a).Ends rest b := by
  induction p generalizing history with
  | done a =>
    rw [done_bind]
    constructor
    · intro h
      exact ⟨[], a, history, rfl, .done a, h⟩
    · rintro ⟨first, a', rest, rfl, hfirst, hrest⟩
      obtain ⟨rfl, rfl⟩ := ends_done_iff.mp hfirst
      exact hrest
  | ask q next ih =>
    rw [ask_bind, ends_ask_iff]
    constructor
    · rintro ⟨x, tail, rfl, h⟩
      obtain ⟨first, a, rest, rfl, hfirst, hrest⟩ := (ih x).mp h
      exact ⟨⟨q, x⟩ :: first, a, rest, rfl, .asked x hfirst, hrest⟩
    · rintro ⟨first, a, rest, rfl, hfirst, hrest⟩
      obtain ⟨x, tail, rfl, htail⟩ := ends_ask_iff.mp hfirst
      exact ⟨x, tail ++ rest, rfl, (ih x).mpr ⟨tail, a, rest, rfl, htail, hrest⟩⟩

/-- A process comes to its end where every question has an answer that will do. -/
theorem exists_ends {P : Happening I → Prop} (answered : ∀ q, ∃ x, P ⟨q, x⟩) (p : Process I α) :
    ∃ history a, p.Ends history a ∧ ∀ e ∈ history, P e := by
  induction p with
  | done a => exact ⟨[], a, .done a, by simp⟩
  | ask q next ih =>
    obtain ⟨x, hx⟩ := answered q
    obtain ⟨history, a, ends, hall⟩ := ih x
    exact ⟨⟨q, x⟩ :: history, a, .asked x ends, List.forall_mem_cons.mpr ⟨hx, hall⟩⟩

/-! ### What a process can ask -/

/-- Whatever the answers are, every question is one of these. -/
def Asks (P : I.Ask → Prop) : Process I α → Prop
  | done _ => True
  | ask q next => P q ∧ ∀ a, (next a).Asks P

variable {P : I.Ask → Prop} {p : Process I α}

theorem Asks.bind {k : α → Process I β} (h : p.Asks P) (hk : ∀ a, (k a).Asks P) :
    (p.bind k).Asks P := by
  induction p with
  | done a => exact hk a
  | ask q next ih => exact ⟨h.1, fun a => ih a (h.2 a)⟩

theorem Asks.mono {Q : I.Ask → Prop} (h : p.Asks P) (imp : ∀ q, P q → Q q) : p.Asks Q := by
  induction p with
  | done a => trivial
  | ask q next ih => exact ⟨imp q h.1, fun a => ih a (h.2 a)⟩

theorem Asks.of_ends {history : List (Happening I)} {a : α} (h : p.Asks P)
    (ends : p.Ends history a) : ∀ e ∈ history, P e.question := by
  induction ends with
  | done a => simp
  | asked x rest ih =>
    intro e he
    rcases List.mem_cons.mp he with rfl | later
    · exact h.1
    · exact ih (h.2 x) e later

end Process

namespace Surroundings

/-- From this state on the questions may get these answers, one after the other, which leads to that
state. -/
inductive Allows (S : Surroundings I σ) : σ → List (Happening I) → σ → Prop
  | nil (s : σ) : Allows S s [] s
  | cons {s s₁ s₂ : σ} {q : I.Ask} {x : I.Answer q} {history : List (Happening I)}
      (here : S.answers s q x s₁) (rest : Allows S s₁ history s₂) :
      Allows S s (⟨q, x⟩ :: history) s₂

variable {S : Surroundings I σ}

@[simp] theorem allows_nil_iff {s s' : σ} : S.Allows s [] s' ↔ s' = s := by
  constructor
  · intro h
    cases h
    rfl
  · rintro rfl
    exact .nil s'

@[simp] theorem allows_cons_iff {s s' : σ} {q : I.Ask} {x : I.Answer q}
    {history : List (Happening I)} :
    S.Allows s (⟨q, x⟩ :: history) s' ↔ ∃ s₁, S.answers s q x s₁ ∧ S.Allows s₁ history s' := by
  constructor
  · intro h
    cases h with
    | cons here rest => exact ⟨_, here, rest⟩
  · rintro ⟨s₁, here, rest⟩
    exact .cons here rest

/-- A question that leaves the state as it is. -/
theorem allows_still_iff {s s' : σ} {q : I.Ask} {x : I.Answer q} {history : List (Happening I)}
    {P : Prop} (still : ∀ s₁, S.answers s q x s₁ ↔ P ∧ s₁ = s) :
    S.Allows s (⟨q, x⟩ :: history) s' ↔ P ∧ S.Allows s history s' := by
  rw [allows_cons_iff]
  constructor
  · rintro ⟨s₁, here, rest⟩
    obtain ⟨h, rfl⟩ := (still s₁).mp here
    exact ⟨h, rest⟩
  · rintro ⟨h, rest⟩
    exact ⟨s, (still s).mpr ⟨h, rfl⟩, rest⟩

theorem allows_append_iff {s s' : σ} {first rest : List (Happening I)} :
    S.Allows s (first ++ rest) s' ↔ ∃ s₁, S.Allows s first s₁ ∧ S.Allows s₁ rest s' := by
  induction first generalizing s with
  | nil => simp
  | cons h first ih =>
    rw [List.cons_append, allows_cons_iff]
    constructor
    · rintro ⟨s₁, here, tail⟩
      obtain ⟨s₂, hfirst, hrest⟩ := ih.mp tail
      exact ⟨s₂, .cons here hfirst, hrest⟩
    · rintro ⟨s₂, hfirst, hrest⟩
      obtain ⟨s₁, here, tail⟩ := allows_cons_iff.mp hfirst
      exact ⟨s₁, here, ih.mpr ⟨s₂, tail, hrest⟩⟩

/-! ### What a process comes to -/

/-- By itself the process leaves this history and comes to this result, which leads from one state to
the other. -/
def Comes (S : Surroundings I σ) (p : Process I α) (s : σ) (history : List (Happening I)) (a : α)
    (s' : σ) : Prop :=
  p.Ends history a ∧ S.Allows s history s'

theorem comes_done_iff {s s' : σ} {a b : α} {history : List (Happening I)} :
    S.Comes (.done a) s history b s' ↔ history = [] ∧ b = a ∧ s' = s := by
  constructor
  · rintro ⟨ends, allows⟩
    obtain ⟨rfl, rfl⟩ := Process.ends_done_iff.mp ends
    exact ⟨rfl, rfl, allows_nil_iff.mp allows⟩
  · rintro ⟨rfl, rfl, rfl⟩
    exact ⟨.done b, .nil s'⟩

theorem comes_ask_iff {s s' : σ} {q : I.Ask} {next : I.Answer q → Process I α} {b : α}
    {history : List (Happening I)} :
    S.Comes (.ask q next) s history b s' ↔ ∃ a s₁ rest, S.answers s q a s₁ ∧
      history = ⟨q, a⟩ :: rest ∧ S.Comes (next a) s₁ rest b s' := by
  constructor
  · rintro ⟨ends, allows⟩
    obtain ⟨a, rest, rfl, after⟩ := Process.ends_ask_iff.mp ends
    obtain ⟨s₁, here, going⟩ := allows_cons_iff.mp allows
    exact ⟨a, s₁, rest, here, rfl, after, going⟩
  · rintro ⟨a, s₁, rest, here, rfl, after, going⟩
    exact ⟨.asked a after, .cons here going⟩

theorem comes_bind_iff {s s' : σ} {p : Process I α} {k : α → Process I β} {b : β}
    {history : List (Happening I)} :
    S.Comes (p.bind k) s history b s' ↔ ∃ first a s₁ rest, history = first ++ rest ∧
      S.Comes p s first a s₁ ∧ S.Comes (k a) s₁ rest b s' := by
  constructor
  · rintro ⟨ends, allows⟩
    obtain ⟨first, a, rest, rfl, hfirst, hrest⟩ := Process.ends_bind_iff.mp ends
    obtain ⟨s₁, begun, going⟩ := allows_append_iff.mp allows
    exact ⟨first, a, s₁, rest, rfl, ⟨hfirst, begun⟩, hrest, going⟩
  · rintro ⟨first, a, s₁, rest, rfl, ⟨hfirst, begun⟩, hrest, going⟩
    exact ⟨Process.ends_bind_iff.mpr ⟨first, a, rest, rfl, hfirst, hrest⟩,
      allows_append_iff.mpr ⟨s₁, begun, going⟩⟩

/-- By itself the process comes to this result, and leads from one state to the other. -/
def Leads (S : Surroundings I σ) (p : Process I α) (s : σ) (a : α) (s' : σ) : Prop :=
  ∃ history, p.Ends history a ∧ S.Allows s history s'

@[simp] theorem leads_done_iff {s s' : σ} {a b : α} :
    S.Leads (.done a) s b s' ↔ b = a ∧ s' = s := by
  constructor
  · rintro ⟨history, comes⟩
    exact (comes_done_iff.mp comes).2
  · intro same
    exact ⟨[], comes_done_iff.mpr ⟨rfl, same⟩⟩

theorem leads_ask_iff {s s' : σ} {q : I.Ask} {next : I.Answer q → Process I α} {b : α} :
    S.Leads (.ask q next) s b s' ↔ ∃ a s₁, S.answers s q a s₁ ∧ S.Leads (next a) s₁ b s' := by
  constructor
  · rintro ⟨history, comes⟩
    obtain ⟨a, s₁, rest, here, -, after⟩ := comes_ask_iff.mp comes
    exact ⟨a, s₁, here, rest, after⟩
  · rintro ⟨a, s₁, here, rest, after⟩
    exact ⟨_, comes_ask_iff.mpr ⟨a, s₁, rest, here, rfl, after⟩⟩

/-- A question with one answer. -/
theorem leads_determined {s s' s₁ : σ} {q : I.Ask} {a : I.Answer q}
    (only : ∀ b s', S.answers s q b s' ↔ b = a ∧ s' = s₁) {next : I.Answer q → Process I α}
    {b : α} :
    S.Leads (.ask q next) s b s' ↔ S.Leads (next a) s₁ b s' := by
  rw [leads_ask_iff]
  constructor
  · rintro ⟨a', s₂, here, after⟩
    obtain ⟨rfl, rfl⟩ := (only a' s₂).mp here
    exact after
  · exact fun after => ⟨a, s₁, (only a s₁).mpr ⟨rfl, rfl⟩, after⟩

theorem leads_bind_iff {s s' : σ} {p : Process I α} {k : α → Process I β} {b : β} :
    S.Leads (p.bind k) s b s' ↔ ∃ a s₁, S.Leads p s a s₁ ∧ S.Leads (k a) s₁ b s' := by
  constructor
  · rintro ⟨history, comes⟩
    obtain ⟨first, a, s₁, rest, -, begun, going⟩ := comes_bind_iff.mp comes
    exact ⟨a, s₁, ⟨first, begun⟩, rest, going⟩
  · rintro ⟨a, s₁, ⟨first, begun⟩, rest, going⟩
    exact ⟨_, comes_bind_iff.mpr ⟨first, a, s₁, rest, rfl, begun, going⟩⟩

/-- A process comes to its end where every question is answered, and the next one can be again. -/
theorem exists_leads {Serves : σ → Prop}
    (serves : ∀ s, Serves s → ∀ q, ∃ a s', S.answers s q a s' ∧ Serves s') (p : Process I α) {s : σ}
    (h : Serves s) : ∃ a s', S.Leads p s a s' ∧ Serves s' := by
  induction p generalizing s with
  | done a => exact ⟨a, s, leads_done_iff.mpr ⟨rfl, rfl⟩, h⟩
  | ask q next ih =>
    obtain ⟨x, s₁, here, still⟩ := serves s h q
    obtain ⟨a, s', leads, after⟩ := ih x still
    exact ⟨a, s', leads_ask_iff.mpr ⟨x, s₁, here, leads⟩, after⟩

/-! ### What is true in any case -/

/-- Whatever the process comes to by itself, this is true of its history, its result and the state. -/
def Ensures (S : Surroundings I σ) (p : Process I α) (s : σ)
    (Q : List (Happening I) → α → σ → Prop) : Prop :=
  ∀ history a s', p.Ends history a → S.Allows s history s' → Q history a s'

variable {Q : List (Happening I) → α → σ → Prop}

@[simp] theorem ensures_done_iff {s : σ} {a : α} : S.Ensures (.done a) s Q ↔ Q [] a s := by
  constructor
  · exact fun h => h [] a s (.done a) (.nil s)
  · rintro h history b s' ends allows
    obtain ⟨rfl, rfl⟩ := Process.ends_done_iff.mp ends
    obtain rfl := allows_nil_iff.mp allows
    exact h

theorem ensures_ask_iff {s : σ} {q : I.Ask} {next : I.Answer q → Process I α} :
    S.Ensures (.ask q next) s Q ↔ ∀ x s₁, S.answers s q x s₁ →
      S.Ensures (next x) s₁ fun history a s' => Q (⟨q, x⟩ :: history) a s' := by
  constructor
  · intro h x s₁ here history a s' ends allows
    exact h _ a s' (.asked x ends) (.cons here allows)
  · intro h history a s' ends allows
    obtain ⟨x, rest, rfl, after⟩ := Process.ends_ask_iff.mp ends
    obtain ⟨s₁, here, going⟩ := allows_cons_iff.mp allows
    exact h x s₁ here rest a s' after going

theorem ensures_bind_iff {s : σ} {p : Process I β} {k : β → Process I α} :
    S.Ensures (p.bind k) s Q ↔ S.Ensures p s fun first b s₁ =>
      S.Ensures (k b) s₁ fun rest a s' => Q (first ++ rest) a s' := by
  constructor
  · intro h first b s₁ ends allows rest a s' ends' allows'
    exact h _ a s' (Process.ends_bind_iff.mpr ⟨first, b, rest, rfl, ends, ends'⟩)
      (allows_append_iff.mpr ⟨s₁, allows, allows'⟩)
  · intro h history a s' ends allows
    obtain ⟨first, b, rest, rfl, ends, ends'⟩ := Process.ends_bind_iff.mp ends
    obtain ⟨s₁, allows, allows'⟩ := allows_append_iff.mp allows
    exact h first b s₁ ends allows rest a s' ends' allows'

theorem Ensures.mono {s : σ} {p : Process I α} {Q' : List (Happening I) → α → σ → Prop}
    (h : S.Ensures p s Q) (imp : ∀ history a s', Q history a s' → Q' history a s') :
    S.Ensures p s Q' :=
  fun history a s' ends allows => imp history a s' (h history a s' ends allows)

/-! ### Where there is no choice -/

/-- There is no choice: the process asks these questions first, is given these answers, and goes on
like this. -/
inductive Forced (S : Surroundings I σ) :
    σ → Process I α → List (Happening I) → σ → Process I α → Prop
  | here (s : σ) (p : Process I α) : Forced S s p [] s p
  | asked {s t s' : σ} {q : I.Ask} {x : I.Answer q} {next : I.Answer q → Process I α}
      {history : List (Happening I)} {p : Process I α}
      (only : ∀ y s₁, S.answers s q y s₁ ↔ y = x ∧ s₁ = t) (rest : Forced S t (next x) history s' p) :
      Forced S s (.ask q next) (⟨q, x⟩ :: history) s' p

theorem Forced.comes_iff {s s₁ s' : σ} {p p₁ : Process I α} {first history : List (Happening I)}
    {a : α} (h : S.Forced s p first s₁ p₁) :
    S.Comes p s history a s' ↔ ∃ rest, history = first ++ rest ∧ S.Comes p₁ s₁ rest a s' := by
  induction h generalizing history with
  | here => simp
  | @asked s t s₁ q x next first p only _ ih =>
    rw [comes_ask_iff]
    constructor
    · rintro ⟨y, s₂, rest, here, rfl, going⟩
      obtain ⟨rfl, rfl⟩ := (only y s₂).mp here
      obtain ⟨tail, rfl, after⟩ := ih.mp going
      exact ⟨tail, rfl, after⟩
    · rintro ⟨tail, rfl, after⟩
      exact ⟨x, t, first ++ tail, (only x t).mpr ⟨rfl, rfl⟩, rfl, ih.mpr ⟨tail, rfl, after⟩⟩

end Surroundings

/-! ### What a process promises -/

/-- If the result is a fault, it is one of these. -/
def Within {ε α : Type} (P : ε → Prop) (result : Except ε α) : Prop := ∀ f, result = .error f → P f

namespace Within

variable {ε α β : Type} {P : ε → Prop} {r : Except ε α}

theorem ok (a : α) : Within P (.ok a) := nofun

theorem error {f : ε} (h : P f) : Within P (.error f : Except ε α) := by
  intro f' same
  obtain rfl := Except.error.inj same
  exact h

theorem bind {k : α → Except ε β} (h : Within P r) (hk : ∀ a, Within P (k a)) :
    Within P (r >>= k) := by
  cases r with
  | ok a => exact hk a
  | error f => exact error (h f rfl)

theorem map (h : Within P r) (g : α → β) : Within P (r.map g) := by
  cases r with
  | ok a => exact ok (g a)
  | error f => exact error (h f rfl)

end Within

namespace Process

variable {I : Interface} {α β : Type} {A : Happening I → Prop} {R : α → Prop}

/-- If every answer is as `A` says, the process comes to something that is as `R` says. -/
def Promises (A : Happening I → Prop) (R : α → Prop) (p : Process I α) : Prop :=
  ∀ history a, p.Ends history a → (∀ e ∈ history, A e) → R a

theorem promises_done {a : α} (h : R a) : (done a : Process I α).Promises A R := by
  intro history b ends _
  obtain ⟨-, rfl⟩ := ends_done_iff.mp ends
  exact h

theorem promises_ask {q : I.Ask} {next : I.Answer q → Process I α}
    (h : ∀ x, A ⟨q, x⟩ → (next x).Promises A R) : (ask q next).Promises A R := by
  intro history a ends answered
  obtain ⟨x, rest, rfl, going⟩ := ends_ask_iff.mp ends
  obtain ⟨here, later⟩ := List.forall_mem_cons.mp answered
  exact h x here rest a going later

variable {p : Process I α} {k : α → Process I β} {R' : β → Prop}

theorem Promises.bind (h : p.Promises A R) (hk : ∀ a, R a → (k a).Promises A R') :
    (p.bind k).Promises A R' := by
  intro history b ends answered
  obtain ⟨first, a, rest, rfl, begun, going⟩ := ends_bind_iff.mp ends
  obtain ⟨early, late⟩ := List.forall_mem_append.mp answered
  exact hk a (h first a begun early) rest b going late

/-- Whatever the first process comes to. -/
theorem promises_after (hk : ∀ a, (k a).Promises A R') : (p.bind k).Promises A R' :=
  Promises.bind (R := fun _ => True) (fun _ _ _ _ => trivial) fun a _ => hk a

/-- A fault is passed on, and everything else ends well. -/
theorem promises_then {ε : Type} {P : ε → Prop} {p : Process I (Except ε α)}
    {k : Except ε α → Process I (Except ε β)} (h : p.Promises A (Within P))
    (passes : ∀ f, k (.error f) = done (.error f))
    (good : ∀ a, (k (.ok a)).Promises A (Within P)) : (p.bind k).Promises A (Within P) := by
  refine h.bind fun result within => ?_
  cases result with
  | error f =>
    rw [passes]
    exact promises_done (.error (within f rfl))
  | ok a => exact good a

end Process

end ScreenFlow
