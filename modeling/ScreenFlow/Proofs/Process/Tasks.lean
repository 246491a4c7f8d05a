import ScreenFlow.Process.Task

/-!
# What tasks keep true

A task is left alone only while it waits. What it keeps true from one wait to the next is true
whenever others look, whatever they change meanwhile.

* `Task.acts`: what a task does before it waits again;
* `Task.Keeps`: what a task keeps true, what it waits for, and what comes of it.
-/

namespace ScreenFlow

namespace Task

variable {σ α β : Type}

/-- Goes on to the next point at which the task waits, or to its end. -/
def acts : Task σ α → σ → σ × Task σ α
  | done a, s => (s, done a)
  | act f next, s => acts (next s) (f s)
  | wait w r next undo, s => (s, wait w r next undo)

/-- The task waits or is done. -/
def Rests : Task σ α → Prop
  | act .. => False
  | _ => True

theorem rests_acts (t : Task σ α) (s : σ) : (t.acts s).2.Rests := by
  induction t generalizing s with
  | done a => trivial
  | act f next ih => exact ih s (f s)
  | wait w r next undo => trivial

theorem rests_run (t : Task σ α) (s : σ) : (t.run s).2.Rests := by
  induction t generalizing s with
  | done a => trivial
  | act f next ih => exact ih s (f s)
  | wait w r next undo ih =>
    unfold run
    split
    · exact ih s
    · trivial

/-- Wherever the task waits or is done, `P` is true of the state if it was so when the task went on.
What it waits for is in `W`, and its result in `R`. -/
def Keeps (P : σ → Prop) (W : (σ → Bool) → Prop) (R : α → Prop) : Task σ α → σ → Prop
  | done a, s => P s ∧ R a
  | act f next, s => Keeps P W R (next s) (f s)
  -- By the time that the wait is over, others may have changed the state.
  | wait _ r next _, s => P s ∧ W r ∧ ∀ s', P s' → r s' = true → Keeps P W R next s'

section Keeps

variable {P : σ → Prop} {W : (σ → Bool) → Prop} {R : α → Prop} {t : Task σ α} {s : σ}

theorem Keeps.bind {R' : β → Prop} {k : α → Task σ β} (h : t.Keeps P W R s)
    (hk : ∀ a s, R a → P s → (k a).Keeps P W R' s) : (t.bind k).Keeps P W R' s := by
  induction t generalizing s with
  | done a => exact hk a s h.2 h.1
  | act f next ih => exact ih s h
  | wait w r next undo ih =>
    obtain ⟨here, waits, later⟩ := h
    exact ⟨here, waits, fun s' hs' ready => ih (later s' hs' ready)⟩

theorem Keeps.acts (h : t.Keeps P W R s) : (t.acts s).2.Keeps P W R (t.acts s).1 := by
  induction t generalizing s with
  | done a => exact h
  | act f next ih => exact ih s h
  | wait w r next undo => exact h

theorem Keeps.run (h : t.Keeps P W R s) : (t.run s).2.Keeps P W R (t.run s).1 := by
  induction t generalizing s with
  | done a => exact h
  | act f next ih => exact ih s h
  | wait w r next undo ih =>
    unfold Task.run
    split
    case isTrue ready => exact ih (h.2.2 s h.1 ready)
    case isFalse => exact h

theorem Keeps.holds (h : t.Keeps P W R s) (rests : t.Rests) : P s := by
  cases t with
  | done a => exact h.1
  | act f next => exact rests.elim
  | wait w r next undo => exact h.1

theorem Keeps.of_run {s' : σ} {a : α} (h : t.Keeps P W R s) (run : t.run s = (s', .done a)) :
    P s' := by
  have ended := h.run
  rw [run] at ended
  exact ended.1

/-- Meanwhile the state may change. -/
theorem Keeps.meanwhile (h : t.Keeps P W R s) (rests : t.Rests) {s' : σ} (hs' : P s') :
    t.Keeps P W R s' := by
  cases t with
  | done a => exact ⟨hs', h.2⟩
  | act f next => exact rests.elim
  | wait w r next undo => exact ⟨hs', h.2⟩

end Keeps

end Task

end ScreenFlow
