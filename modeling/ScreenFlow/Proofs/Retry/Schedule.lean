import ScreenFlow.Proofs.Process.Interleaving
import ScreenFlow.Retry.Timeline

/-!
# The schedule of a run

When the attempts of a run start is fixed by the policy, by how long each of them takes and by the
numbers that are drawn: the next one starts one wait after the last one has ended. A run keeps to
that schedule until an attempt decides it or the cancellation comes.

* `onward_succ`: what happens when an attempt is due, whatever has happened before;
* `onward_stopped`, `onward_cut`, `onward_made`: the same on the schedule, by when the cancellation
  comes; `onward_decided`, `onward_exhausted`, `onward_woken`, `onward_repeats`: each way that an
  attempt that is made can go on;
* `run_reaches`: what is left of a run when an attempt of the schedule is due;
* `run_follows_schedule`: what a run comes to and what has happened in it, for every policy, all
  outcomes and any moment of cancellation.
-/

namespace ScreenFlow.Retry

/-- The history with attempt `n` in it, which has just started. -/
def History.noting (h : History) (n : Nat) : History :=
  { h with attempts := h.attempts ++ [(n, h.time)] }

namespace Timeline

variable {α : Type} (t : Timeline α) (p : RetryPolicy)

/-! ### The schedule -/

/-- When attempt `i` starts. -/
def start : Nat → Nat
  | 0 => 0
  | i + 1 => start i + (t.outcome i).takes + p.delayWith i (t.draw i)

/-- When attempt `i` ends. -/
def finish (i : Nat) : Nat := t.start p i + (t.outcome i).takes

/-- The first `k` attempts with their starts. -/
def schedule (k : Nat) : List (Nat × Nat) := (List.range k).map fun i => (i, t.start p i)

/-- Whether attempt `i` fails in a way that another attempt can mend. -/
def mendable (i : Nat) : Bool :=
  match (t.outcome i).result with
  | .ok _ => false
  | .error f => f.isRetryable

/-- The attempt that decides a run unless it is cancelled: the first one that succeeds or cannot be
mended, and otherwise the last one that is allowed. -/
structure Deciding (n : Nat) : Prop where
  allowed : n < p.maxAttempts
  mended : ∀ i < n, t.mendable i = true
  final : t.mendable n = true → n + 1 = p.maxAttempts

/-- No cancellation has come up to this moment. -/
def Undisturbed (time : Nat) : Prop := ∀ c, t.cancelAt = some c → time < c

/-- The first `k` attempts have been made, and nothing has been announced. -/
def progress (k time : Nat) : History := { time := time, attempts := t.schedule p k }

/-- The rest of a run when attempt `n` is due and so many attempts are left. -/
def onward (left n : Nat) : StateM History (Except Fault α) := (loop p left n).runIn t.answer

variable {t p} {n left c time : Nat}

theorem start_le_finish : t.start p n ≤ t.finish p n := Nat.le_add_right _ _

theorem finish_le_start : t.finish p n ≤ t.start p (n + 1) := Nat.le_add_right _ _

theorem start_le_start {i : Nat} (h : i ≤ n) : t.start p i ≤ t.start p n := by
  induction h with
  | refl => exact Nat.le_refl _
  | step _ ih => exact Nat.le_trans ih (Nat.le_trans start_le_finish finish_le_start)

theorem schedule_succ : t.schedule p (n + 1) = t.schedule p n ++ [(n, t.start p n)] := by
  simp [schedule, List.range_succ]

theorem length_schedule : (t.schedule p n).length = n := by simp [schedule]

theorem mendable_iff : t.mendable n = true ↔
    ∃ f, (t.outcome n).result = .error f ∧ f.isRetryable = true := by
  simp only [mendable]
  cases (t.outcome n).result <;> simp

/-- Some attempt decides the run. -/
theorem exists_deciding (t : Timeline α) (p : RetryPolicy) : ∃ n, t.Deciding p n := by
  -- An attempt that is made decides the run, or it can be mended and the next one is made.
  suffices ∀ left n, n + left + 1 = p.maxAttempts → (∀ i < n, t.mendable i = true) →
      ∃ n, t.Deciding p n by
    have pos : 0 < p.maxAttempts := p.maxAttempts_pos
    exact this (p.maxAttempts - 1) 0 (by omega) (by simp)
  intro left
  induction left with
  | zero => exact fun n hn mended => ⟨n, by omega, mended, fun _ => by omega⟩
  | succ left ih =>
    intro n hn mended
    by_cases again : t.mendable n = true
    · refine ih (n + 1) (by omega) fun i hi => ?_
      rcases Nat.lt_succ_iff_lt_or_eq.mp hi with before | rfl
      · exact mended i before
      · exact again
    · exact ⟨n, by omega, mended, fun h => absurd h again⟩

/-- Only one attempt does. -/
theorem Deciding.unique {m : Nat} (hn : t.Deciding p n) (hm : t.Deciding p m) : n = m := by
  rcases Nat.lt_trichotomy n m with before | same | after
  · have final := hn.final (hm.mended n before)
    have allowed := hm.allowed
    omega
  · exact same
  · have final := hm.final (hn.mended m after)
    have allowed := hn.allowed
    omega

/-! ### Moments -/

theorem Undisturbed.before {earlier : Nat} (h : t.Undisturbed time) (le : earlier ≤ time) :
    t.Undisturbed earlier :=
  fun c hc => Nat.lt_of_le_of_lt le (h c hc)

theorem undisturbed_iff (hc : t.cancelAt = some c) : t.Undisturbed time ↔ time < c := by
  simp [Undisturbed, hc]

theorem isCancelled_of_le (hc : t.cancelAt = some c) (le : c ≤ time) :
    t.isCancelled time = true := by
  simp [isCancelled, hc, le]

theorem Undisturbed.isCancelled (h : t.Undisturbed time) : t.isCancelled time = false := by
  cases hc : t.cancelAt with
  | none => simp [Timeline.isCancelled, hc]
  | some c => simp [Timeline.isCancelled, hc, h c hc]

theorem Undisturbed.elapse {d : Duration} {h : History} (passes : t.Undisturbed (h.time + d)) :
    t.elapse d h = (true, { h with time := h.time + d }) := by
  cases hc : t.cancelAt with
  | none => simp [Timeline.elapse, hc]
  | some c =>
    have later : h.time + d < c := passes c hc
    simp [Timeline.elapse, hc, Nat.not_le.mpr later]

theorem elapse_cut {d : Duration} {h : History} (hc : t.cancelAt = some c) (after : h.time ≤ c)
    (within : c ≤ h.time + d) : t.elapse d h = (false, { h with time := c }) := by
  simp [elapse, hc, within, Nat.max_eq_right after]

/-! ### What happens when an attempt is due -/

/-- A question is answered, and the rest goes on with the answer. -/
theorem runIn_ask {β : Type} {q : Ask} {next : Answer α q → Process (interface α) β} {h : History} :
    (Process.ask (I := interface α) q next).runIn t.answer h =
      (next (t.answer q h).1).runIn t.answer (t.answer q h).2 := rfl

theorem onward_succ (h : History) :
    t.onward p (left + 1) n h =
      if t.isCancelled h.time then (.error .cancelled, h)
      else match t.answer (.attempt n) h with
        | (none, h) => (.error .cancelled, h)
        | (some (.ok a), h) => (.ok a, h)
        | (some (.error f), h) =>
          if f.isRetryable = false then (.error f, h)
          else if left = 0 then (.error f, { h with exhausted := h.exhausted ++ [p.maxAttempts] })
          else match t.elapse (p.delayWith n (t.draw (h.attempts.length - 1))) h with
            | (true, h) => t.onward p left (n + 1) h
            | (false, h) => (.error .cancelled, h) := by
  have stops : t.answer .cancelled h = (t.isCancelled h.time, h) := rfl
  simp only [onward, loop, ask, Process.call, Process.bind_def, Process.ask_bind,
    Process.done_bind, Process.pure_def, runIn_ask, stops]
  split
  · rfl
  rw [runIn_ask]
  rcases t.answer (.attempt n) h with ⟨_ | f | a, h⟩
  · rfl
  · dsimp only
    cases retryable : f.isRetryable with
    | false => rfl
    | true =>
      by_cases last : left = 0
      · simp only [Bool.not_true, Bool.false_eq_true, Bool.true_eq_false, last, ↓reduceIte, runIn_ask]
        rfl
      simp only [Bool.not_true, Bool.false_eq_true, Bool.true_eq_false, last, ↓reduceIte]
      have pauses (d : Duration) : t.answer (.pause d) h = t.elapse d h := rfl
      have draws : t.answer .draw h = (t.draw (h.attempts.length - 1), h) := rfl
      split
      · simp only [runIn_ask, draws, pauses]
        rcases t.elapse (p.delayWith n (t.draw (h.attempts.length - 1))) h with ⟨_ | _, h⟩ <;> rfl
      · rename_i other
        have wait : p.delayWith n (t.draw (h.attempts.length - 1)) = p.delayWith n 0 :=
          p.delayWith_eq (by simpa using other) _
        simp only [runIn_ask, pauses, wait]
        rcases t.elapse (p.delayWith n 0) h with ⟨_ | _, h⟩ <;> rfl
  · rfl

theorem answer_attempt (h : History) :
    t.answer (.attempt n) h =
      if (t.outcome n).takes = 0 then (some (t.outcome n).result, h.noting n)
      else match t.elapse (t.outcome n).takes (h.noting n) with
        | (true, h) => (some (t.outcome n).result, h)
        | (false, h) => (none, h) := by
  have going {β γ : Type} (x : StateM History β) (f : β → StateM History γ) (h : History) :
      (x >>= f) h = f (x h).1 (x h).2 := rfl
  have noted : (modify fun h => h.noting n : StateM History Unit) h = ((), h.noting n) := rfl
  change ((modify fun h => h.noting n : StateM History Unit) >>= fun _ => _) h = _
  rw [going, noted]
  by_cases instant : (t.outcome n).takes = 0
  · rw [if_pos instant, if_pos instant]
    rfl
  · rw [if_neg instant, if_neg instant, going]
    rcases t.elapse (t.outcome n).takes (h.noting n) with ⟨_ | _, h⟩ <;> rfl

theorem noting_progress :
    (t.progress p n (t.start p n)).noting n = t.progress p (n + 1) (t.start p n) := by
  simp only [progress, History.noting, schedule_succ]

theorem answer_attempt_made (passes : t.Undisturbed (t.finish p n)) :
    t.answer (.attempt n) (t.progress p n (t.start p n)) =
      (some (t.outcome n).result, t.progress p (n + 1) (t.finish p n)) := by
  rw [answer_attempt, noting_progress]
  split
  · rename_i instant
    simp only [finish, instant, Nat.add_zero]
  · rw [Undisturbed.elapse passes]
    rfl

theorem answer_attempt_cut (hc : t.cancelAt = some c) (after : t.start p n < c)
    (within : c ≤ t.finish p n) :
    t.answer (.attempt n) (t.progress p n (t.start p n)) = (none, t.progress p (n + 1) c) := by
  rw [answer_attempt, noting_progress, if_neg, elapse_cut hc (Nat.le_of_lt after) within]
  · rfl
  · intro instant
    rw [finish, instant] at within
    omega

/-- The cancellation has come before the attempt. -/
theorem onward_stopped (hc : t.cancelAt = some c) (early : c ≤ t.start p n) :
    t.onward p (left + 1) n (t.progress p n (t.start p n)) =
      (.error .cancelled, t.progress p n (t.start p n)) := by
  rw [onward_succ, if_pos]
  exact isCancelled_of_le hc early

/-- The cancellation comes during the attempt. -/
theorem onward_cut (hc : t.cancelAt = some c) (after : t.start p n < c)
    (within : c ≤ t.finish p n) :
    t.onward p (left + 1) n (t.progress p n (t.start p n)) =
      (.error .cancelled, t.progress p (n + 1) c) := by
  have begun : t.Undisturbed (t.start p n) := (undisturbed_iff hc).mpr after
  rw [onward_succ, if_neg (by simp [progress, begun.isCancelled]),
    answer_attempt_cut hc after within]

/-- The attempt is made. What follows depends on its result. -/
theorem onward_made (passes : t.Undisturbed (t.finish p n)) :
    t.onward p (left + 1) n (t.progress p n (t.start p n)) =
      match (t.outcome n).result with
      | .ok a => (.ok a, t.progress p (n + 1) (t.finish p n))
      | .error f =>
        if f.isRetryable = false then (.error f, t.progress p (n + 1) (t.finish p n))
        else if left = 0 then
          (.error f, { t.progress p (n + 1) (t.finish p n) with exhausted := [p.maxAttempts] })
        else match t.elapse (p.delayWith n (t.draw n)) (t.progress p (n + 1) (t.finish p n)) with
          | (true, h) => t.onward p left (n + 1) h
          | (false, h) => (.error .cancelled, h) := by
  have begun : t.Undisturbed (t.start p n) := passes.before start_le_finish
  have counted : (t.progress p (n + 1) (t.finish p n)).attempts.length - 1 = n := by
    simp [progress, length_schedule]
  rw [onward_succ, if_neg (by simp [progress, begun.isCancelled]), answer_attempt_made passes]
  cases (t.outcome n).result with
  | ok a => rfl
  | error f =>
    dsimp only
    rw [counted]
    rfl

/-- The attempt succeeds, or fails for good. -/
theorem onward_decided (passes : t.Undisturbed (t.finish p n)) (final : t.mendable n = false) :
    t.onward p (left + 1) n (t.progress p n (t.start p n)) =
      ((t.outcome n).result, t.progress p (n + 1) (t.finish p n)) := by
  rw [onward_made passes]
  simp only [mendable] at final
  cases result : (t.outcome n).result with
  | ok a => rfl
  | error f =>
    rw [result] at final
    exact if_pos final

/-- The last attempt fails: that is announced. -/
theorem onward_exhausted (passes : t.Undisturbed (t.finish p n)) (again : t.mendable n = true) :
    t.onward p 1 n (t.progress p n (t.start p n)) =
      ((t.outcome n).result,
        { t.progress p (n + 1) (t.finish p n) with exhausted := [p.maxAttempts] }) := by
  obtain ⟨f, result, retryable⟩ := mendable_iff.mp again
  rw [onward_made passes, result]
  dsimp only
  rw [if_neg (by simp [retryable]), if_pos rfl]

/-- Another attempt fails: a wait follows, which the cancellation may cut. -/
theorem onward_waits (passes : t.Undisturbed (t.finish p n)) (again : t.mendable n = true) :
    t.onward p (left + 2) n (t.progress p n (t.start p n)) =
      match t.elapse (p.delayWith n (t.draw n)) (t.progress p (n + 1) (t.finish p n)) with
      | (true, h) => t.onward p (left + 1) (n + 1) h
      | (false, h) => (.error .cancelled, h) := by
  obtain ⟨f, result, retryable⟩ := mendable_iff.mp again
  rw [onward_made passes, result]
  dsimp only
  rw [if_neg (by simp [retryable]), if_neg (Nat.succ_ne_zero left)]

theorem onward_woken (hc : t.cancelAt = some c) (again : t.mendable n = true)
    (after : t.finish p n < c) (within : c ≤ t.start p (n + 1)) :
    t.onward p (left + 2) n (t.progress p n (t.start p n)) =
      (.error .cancelled, t.progress p (n + 1) c) := by
  rw [onward_waits ((undisturbed_iff hc).mpr after) again,
    elapse_cut hc (Nat.le_of_lt after) within]
  rfl

theorem onward_repeats (passes : t.Undisturbed (t.start p (n + 1))) (again : t.mendable n = true) :
    t.onward p (left + 2) n (t.progress p n (t.start p n)) =
      t.onward p (left + 1) (n + 1) (t.progress p (n + 1) (t.start p (n + 1))) := by
  rw [onward_waits (passes.before finish_le_start) again, Undisturbed.elapse passes]
  rfl

/-! ### A whole run -/

theorem run_eq : t.run p = t.onward p p.maxAttempts 0 (t.progress p 0 (t.start p 0)) := rfl

/-- A run gets to every attempt up to the one that decides it, if nothing disturbs it before. -/
theorem run_reaches (deciding : t.Deciding p n) {i : Nat} (le : i ≤ n)
    (passes : t.Undisturbed (t.start p i)) :
    t.run p = t.onward p (p.maxAttempts - i) i (t.progress p i (t.start p i)) := by
  induction i with
  | zero => exact run_eq
  | succ i ih =>
    have allowed : n < p.maxAttempts := deciding.allowed
    obtain ⟨left, hleft⟩ : ∃ left, p.maxAttempts - i = left + 2 :=
      ⟨p.maxAttempts - i - 2, by omega⟩
    have earlier : t.Undisturbed (t.start p i) :=
      passes.before (start_le_start (Nat.le_succ i))
    rw [ih (by omega) earlier, hleft, onward_repeats passes (deciding.mended i (by omega))]
    congr 2
    omega

/-- Where a cancellation falls: before everything, or after the start of some attempt and before
that of the next one. -/
theorem exists_begun (n : Nat) (later : 0 < c) :
    ∃ i ≤ n, t.start p i < c ∧ (i < n → c ≤ t.start p (i + 1)) := by
  induction n with
  | zero => exact ⟨0, Nat.le_refl _, later, by simp⟩
  | succ n ih =>
    by_cases begun : t.start p (n + 1) < c
    · exact ⟨n + 1, Nat.le_refl _, begun, by simp⟩
    · obtain ⟨i, le, before, next⟩ := ih
      refine ⟨i, by omega, before, fun _ => ?_⟩
      rcases Nat.lt_or_eq_of_le le with less | rfl
      · exact next less
      · omega

theorem run_completed (deciding : t.Deciding p n) (passes : t.Undisturbed (t.finish p n)) :
    t.run p = ((t.outcome n).result,
      { time := t.finish p n
        attempts := t.schedule p (n + 1)
        exhausted := if t.mendable n then [p.maxAttempts] else [] }) := by
  have allowed : n < p.maxAttempts := deciding.allowed
  rw [run_reaches deciding (Nat.le_refl n) (passes.before start_le_finish)]
  cases again : t.mendable n with
  | false =>
    obtain ⟨left, hleft⟩ : ∃ left, p.maxAttempts - n = left + 1 :=
      ⟨p.maxAttempts - n - 1, by omega⟩
    rw [hleft, onward_decided passes again]
    rfl
  | true =>
    have last : p.maxAttempts - n = 1 := by
      have final := deciding.final again
      omega
    rw [last, onward_exhausted passes again]
    rfl

theorem run_cancelled (deciding : t.Deciding p n) (hc : t.cancelAt = some c)
    (within : c ≤ t.finish p n) :
    ∃ k ≤ n + 1, (∀ i ≤ n, i < k ↔ t.start p i < c) ∧
      t.run p = (.error .cancelled, { time := c, attempts := t.schedule p k }) := by
  have allowed : n < p.maxAttempts := deciding.allowed
  rcases Nat.eq_zero_or_pos c with rfl | later
  · refine ⟨0, by omega, by simp, ?_⟩
    obtain ⟨left, hleft⟩ : ∃ left, p.maxAttempts = left + 1 := ⟨p.maxAttempts - 1, by omega⟩
    rw [run_eq, hleft, onward_stopped hc (Nat.zero_le _)]
    rfl
  obtain ⟨i, le, begun, next⟩ := exists_begun (t := t) (p := p) n later
  refine ⟨i + 1, by omega, fun j hj => ?_, ?_⟩
  · constructor
    · intro hji
      exact Nat.lt_of_le_of_lt (start_le_start (by omega)) begun
    · intro started
      refine Nat.lt_of_not_le fun beyond => ?_
      have reached : c ≤ t.start p (i + 1) := next (by omega)
      have ordered : t.start p (i + 1) ≤ t.start p j := start_le_start beyond
      omega
  rw [run_reaches deciding le ((undisturbed_iff hc).mpr begun)]
  by_cases ends : c ≤ t.finish p i
  · obtain ⟨left, hleft⟩ : ∃ left, p.maxAttempts - i = left + 1 :=
      ⟨p.maxAttempts - i - 1, by omega⟩
    rw [hleft, onward_cut hc begun ends]
    rfl
  · have less : i < n := by
      rcases Nat.lt_or_eq_of_le le with less | rfl
      · exact less
      · exact absurd within ends
    obtain ⟨left, hleft⟩ : ∃ left, p.maxAttempts - i = left + 2 :=
      ⟨p.maxAttempts - i - 2, by omega⟩
    rw [hleft, onward_woken hc (deciding.mended i less) (by omega) (next less)]
    rfl

/-- A run follows its policy. Its attempts are those of the schedule in their order, up to the one
that decides the run. If it comes that far, it ends with that attempt and its result, and if that is
the last one allowed and could be mended, this is announced, once. If the cancellation comes
earlier, the run is cancelled at that moment: every attempt that was to start before has been
started, no other one is, and nothing is announced. -/
theorem run_follows_schedule (t : Timeline α) (p : RetryPolicy) :
    ∃ n, t.Deciding p n ∧
      (t.Undisturbed (t.finish p n) →
        t.run p = ((t.outcome n).result,
          { time := t.finish p n
            attempts := t.schedule p (n + 1)
            exhausted := if t.mendable n then [p.maxAttempts] else [] })) ∧
      ∀ c, t.cancelAt = some c → c ≤ t.finish p n →
        ∃ k ≤ n + 1, (∀ i ≤ n, i < k ↔ t.start p i < c) ∧
          t.run p = (.error .cancelled, { time := c, attempts := t.schedule p k }) := by
  obtain ⟨n, deciding⟩ := exists_deciding t p
  exact ⟨n, deciding, run_completed deciding, fun c => run_cancelled deciding⟩

/-- The cancellation finds the run in its second wait. -/
example :
    Timeline.run (α := Unit)
        { outcome := fun _ => { takes := 10, result := .error (.timeout 10) }, cancelAt := some 150 }
        { attempts := 3, delayMs := 100 } =
      (.error .cancelled, { time := 150, attempts := [(0, 0), (1, 110)] }) := rfl

end Timeline

end ScreenFlow.Retry
