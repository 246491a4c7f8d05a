import ScreenFlow.Proofs.Offline.Running
import ScreenFlow.Proofs.Process.Shared

/-!
# Order among the calls of the queue

* `Crew.Orderly`: each waiting call has a ticket of its own, only the call whose turn it is reads or
  writes, and there is one pass at most;
* `Crew.Step.orderly`: every step keeps this order, abandonments included;
* `Crew.Orderly.alone_inside`, `Crew.Orderly.alone_passing`: whoever is inside, or passes, is alone.
-/

namespace ScreenFlow.OfflineQueue

open Simulation (QueuePart)

/-! ### What a stage holds -/

/-- The pass that the section belongs to. -/
def Section.passes : Section → List Nat
  | .append _ | .wipe => []
  | .snapshot pass | .merge pass .. => [pass]

/-- The ticket that the pass of the section has used already. -/
def Section.spent : Section → List Nat
  | .merge _ used .. => [used]
  | _ => []

namespace Stage

/-- The ticket that waits, or has the turn. -/
def held : Stage → List Nat
  | .waiting _ ticket | .reading _ ticket | .writing _ ticket _ => [ticket]
  | _ => []

def spent : Stage → List Nat
  | .waiting sec _ | .reading sec _ | .writing sec _ _ => sec.spent
  | .replaying _ used .. | .pausing _ used .. => [used]
  | .finished .. => []

def passes : Stage → List Nat
  | .waiting sec _ | .reading sec _ | .writing sec _ _ => sec.passes
  | .replaying pass .. | .pausing pass .. => [pass]
  | .finished .. => []

/-- The ticket whose turn it has to be. -/
def inside : Stage → List Nat
  | .reading _ ticket | .writing _ ticket _ => [ticket]
  | _ => []

theorem inside_subset (stage : Stage) : stage.inside ⊆ stage.held := by
  cases stage <;> simp [inside, held]

end Stage

/-- Nothing runs but what is noted as running. -/
def Alone (running : Option Nat) (passes : List Nat) : Prop :=
  passes = [] ∨ passes = running.toList

theorem Alone.of_cons {running : Option Nat} {pass : Nat} {passes : List Nat}
    (h : Alone running (pass :: passes)) : running = some pass ∧ passes = [] := by
  rcases h with h | h
  · cases h
  · cases running with
    | none => cases h
    | some n =>
      obtain ⟨rfl, rfl⟩ := List.cons.inj h
      exact ⟨rfl, rfl⟩

/-! ### One call -/

section Call

variable {o : OfflineSettings} {mayFail : Prop} {s s' : State} {stage stage' : Stage} {c : Call}
  {held spent passes : List Nat}

theorem Moves.serves (h : Moves o mayFail s stage s' stage')
    (hs : s.queue.lock.Serves (stage.held ++ held) (stage.spent ++ spent)) :
    s'.queue.lock.Serves (stage'.held ++ held) (stage'.spent ++ spent) := by
  cases h with
  | enter | wipe | append | merge | replayed | resting | paused => exact hs
  | @unreadable sec | @unwritten sec | @written sec =>
    rw [Section.leave_lock]
    cases sec with
    | merge pass used => exact hs.handBack.forget.forget
    | _ => exact hs.handBack.forget
  | nothing =>
    rw [State.endPass_lock]
    exact hs.handBack.forget
  | snapshot => exact hs.handBack
  | through => exact hs.take

theorem Moves.inside (h : Moves o mayFail s stage s' stage')
    (hs : ∀ n ∈ stage.inside, s.queue.lock.hasTurn n = true) :
    ∀ n ∈ stage'.inside, s'.queue.lock.hasTurn n = true := by
  cases h with
  | enter turn | wipe turn =>
    intro n hn
    rwa [List.mem_singleton.mp hn]
  | append | merge => exact hs
  | _ => simp [Stage.inside]

/-- Whoever has the turn keeps it while others move. -/
theorem Moves.hasTurn {n : Nat} (h : Moves o mayFail s stage s' stage') (hn : n ∉ stage.held)
    (turn : s.queue.lock.hasTurn n = true) : s'.queue.lock.hasTurn n = true := by
  cases h with
  | enter | wipe | append | merge | replayed | resting | paused => exact turn
  | unreadable | unwritten | written =>
    rw [Section.leave_lock]
    exact Turnstile.hasTurn_handBack turn fun heq => hn (heq ▸ List.mem_cons_self)
  | nothing =>
    rw [State.endPass_lock]
    exact Turnstile.hasTurn_handBack turn fun heq => hn (heq ▸ List.mem_cons_self)
  | snapshot => exact Turnstile.hasTurn_handBack turn fun heq => hn (heq ▸ List.mem_cons_self)
  | through => exact Turnstile.hasTurn_take turn

theorem Section.leave_running {sec : Section} {ticket : Nat}
    (hs : Alone s.queue.running (sec.passes ++ passes)) :
    Alone (sec.leave ticket s).queue.running passes := by
  cases sec with
  | append | wipe => exact hs
  | snapshot | merge =>
    obtain ⟨_, rfl⟩ := hs.of_cons
    exact .inl rfl

theorem Moves.alone (h : Moves o mayFail s stage s' stage')
    (hs : Alone s.queue.running (stage.passes ++ passes)) :
    Alone s'.queue.running (stage'.passes ++ passes) := by
  cases h with
  | unreadable | unwritten | written => exact Section.leave_running hs
  | nothing =>
    obtain ⟨_, rfl⟩ := hs.of_cons
    exact .inl rfl
  | _ => exact hs

theorem Begins.serves (h : Begins o s c s' stage) (hs : s.queue.lock.Serves held spent) :
    s'.queue.lock.Serves (stage.held ++ held) (stage.spent ++ spent) := by
  induction h with
  | enqueue | clear => exact hs.take
  | busy | switched => exact hs
  | noReplayer free =>
    rw [State.endPass_lock, (State.startPass_of_free free).2]
    exact hs
  | pass free =>
    rw [(State.startPass_of_free free).2]
    exact hs.take
  | back _ _ ih => exact ih hs

theorem Begins.inside (h : Begins o s c s' stage) : stage.inside = [] := by
  induction h with
  | back _ _ ih => exact ih
  | _ => rfl

theorem Begins.hasTurn {n : Nat} (h : Begins o s c s' stage)
    (turn : s.queue.lock.hasTurn n = true) : s'.queue.lock.hasTurn n = true := by
  induction h with
  | enqueue | clear => exact Turnstile.hasTurn_take turn
  | busy | switched => exact turn
  | noReplayer free =>
    rw [State.endPass_lock, (State.startPass_of_free free).2]
    exact turn
  | pass free =>
    rw [(State.startPass_of_free free).2]
    exact Turnstile.hasTurn_take turn
  | back _ _ ih => exact ih turn

theorem Begins.alone (h : Begins o s c s' stage) (hs : Alone s.queue.running passes) :
    Alone s'.queue.running (stage.passes ++ passes) := by
  induction h with
  | enqueue | clear | busy | switched => exact hs
  | noReplayer free | pass free =>
    rw [free] at hs
    obtain rfl : passes = [] := hs.elim id id
    rw [(State.startPass_of_free free).2]
    first
    | exact .inl rfl
    | exact .inr rfl
  | back _ _ ih => exact ih hs

theorem Stage.undone_lock (stage : Stage) (s : State) :
    (stage.undone s).queue.lock =
      (stage.held ++ stage.spent).foldl Turnstile.handBack s.queue.lock := by
  cases stage with
  | finished => rfl
  | replaying | pausing => exact State.endPass_lock _ _
  | waiting sec | reading sec | writing sec =>
    cases sec with
    | append | wipe => rfl
    | snapshot | merge => exact State.endPass_lock _ _

theorem Stage.undone_alone (hs : Alone s.queue.running (stage.passes ++ passes)) :
    Alone (stage.undone s).queue.running passes := by
  cases stage with
  | finished => exact hs
  | replaying | pausing =>
    obtain ⟨_, rfl⟩ := hs.of_cons
    exact .inl rfl
  | waiting sec | reading sec | writing sec =>
    cases sec with
    | append | wipe => exact hs
    | snapshot | merge =>
      obtain ⟨_, rfl⟩ := hs.of_cons
      exact .inl rfl

end Call

/-! ### The crew -/

/-- What a call still has: nothing if it is gone. -/
def Worker.still (w : Worker) (f : Stage → List Nat) : List Nat := if w.gone then [] else f w.stage

/-- Each ticket is held by one call, whoever is inside has the turn, and one pass runs at most. -/
structure Crew.Orderly (k : Crew) : Prop where
  serves : k.state.queue.lock.Serves (k.workers.flatMap (·.still Stage.held))
    (k.workers.flatMap (·.still Stage.spent))
  inside : ∀ w ∈ k.workers, ∀ n ∈ w.still Stage.inside, k.state.queue.lock.hasTurn n = true
  alone : Alone k.state.queue.running (k.workers.flatMap (·.still Stage.passes))

theorem Alone.perm {running : Option Nat} {ps qs : List Nat} (h : Alone running ps)
    (hp : ps.Perm qs) : Alone running qs := by
  rcases h with rfl | rfl
  · exact .inl hp.nil_eq.symm
  · cases running with
    | none => exact .inl hp.nil_eq.symm
    | some n => exact .inr (List.singleton_perm.mp hp).symm

section Crew

variable {o : OfflineSettings} {mayFail : Prop} {s : State} {before after : List Worker} {c : Call}
  {stage : Stage} {k k' : Crew}

/-- What a crew still has, one call put first. -/
theorem still_perm (f : Stage → List Nat) :
    ((before ++ ⟨c, stage, false⟩ :: after).flatMap (·.still f)).Perm
      (f stage ++ (before ++ after).flatMap (·.still f)) := by
  simp only [List.flatMap_append, List.flatMap_cons]
  exact List.perm_append_comm_assoc _ _ _

theorem still_gone (f : Stage → List Nat) :
    (before ++ ⟨c, stage, true⟩ :: after).flatMap (·.still f) =
      (before ++ after).flatMap (·.still f) := by
  simp [Worker.still]

theorem Crew.Orderly.serves_first (h : Orderly ⟨s, before ++ ⟨c, stage, false⟩ :: after⟩) :
    s.queue.lock.Serves (stage.held ++ (before ++ after).flatMap (·.still Stage.held))
      (stage.spent ++ (before ++ after).flatMap (·.still Stage.spent)) :=
  h.serves.perm (still_perm _) (still_perm _)

theorem mem_crew {v w : Worker} : w ∈ before ++ v :: after ↔ w = v ∨ w ∈ before ++ after := by
  simp only [List.mem_append, List.mem_cons]
  exact or_left_comm

theorem Worker.still_inside_subset (w : Worker) : w.still Stage.inside ⊆ w.still Stage.held := by
  unfold still
  split
  · exact fun _ h => h
  · exact w.stage.inside_subset

/-- The turn of one call is not the ticket of another. -/
theorem Crew.Orderly.inside_not_held (h : Orderly ⟨s, before ++ ⟨c, stage, false⟩ :: after⟩)
    {w : Worker} (hw : w ∈ before ++ after) {n : Nat} (hn : n ∈ w.still Stage.inside) :
    n ∉ stage.held := fun held =>
  (List.nodup_append.mp h.serves_first.held_nodup).2.2 n held n
    (List.mem_flatMap.mpr ⟨w, hw, w.still_inside_subset hn⟩) rfl

theorem Crew.Orderly.alone_inside (h : Orderly ⟨s, before ++ ⟨c, stage, false⟩ :: after⟩)
    (inside : stage.inside ≠ []) : ∀ w ∈ before ++ after, w.still Stage.inside = [] := by
  intro w hw
  refine List.eq_nil_iff_forall_not_mem.mpr fun n hn => ?_
  obtain ⟨m, hm⟩ := List.exists_mem_of_ne_nil _ inside
  have turn := h.inside w (mem_crew.mpr (.inr hw)) n hn
  have turn' := h.inside ⟨c, stage, false⟩ (by simp) m hm
  refine h.inside_not_held hw hn ?_
  rw [Turnstile.hasTurn_unique turn turn']
  exact stage.inside_subset hm

theorem Crew.Orderly.alone_passing (h : Orderly ⟨s, before ++ ⟨c, stage, false⟩ :: after⟩)
    (passing : stage.passes ≠ []) : ∀ w ∈ before ++ after, w.still Stage.passes = [] := by
  obtain ⟨pass, rest, hpass⟩ := List.exists_cons_of_ne_nil passing
  have alone := h.alone.perm (still_perm _)
  rw [hpass, List.cons_append] at alone
  obtain ⟨_, none_else⟩ := alone.of_cons
  exact List.flatMap_eq_nil_iff.mp (List.append_eq_nil_iff.mp none_else).2

theorem Crew.Step.orderly (step : Crew.Step o mayFail k k') (h : k.Orderly) : k'.Orderly := by
  cases step with
  | @begin s s' ws c stage begins =>
    have perm (f : Stage → List Nat) : (List.flatMap (fun w : Worker => w.still f)
        (ws ++ [⟨c, stage, false⟩])).Perm (f stage ++ ws.flatMap fun w => w.still f) := by
      rw [List.flatMap_append]
      exact List.perm_append_comm.trans (.of_eq (by simp [Worker.still]))
    refine ⟨(begins.serves h.serves).perm (perm _).symm (perm _).symm, fun w hw n hn => ?_,
      (begins.alone h.alone).perm (perm _).symm⟩
    rcases List.mem_append.mp hw with old | new
    · exact begins.hasTurn (h.inside w old n hn)
    · obtain rfl := List.mem_singleton.mp new
      simp [Worker.still, begins.inside] at hn
  | @move s s' before after c stage stage' moves =>
    refine ⟨(moves.serves h.serves_first).perm (still_perm _).symm (still_perm _).symm,
      fun w hw n hn => ?_, (moves.alone (h.alone.perm (still_perm _))).perm (still_perm _).symm⟩
    rcases mem_crew.mp hw with rfl | other
    · exact moves.inside (h.inside ⟨c, stage, false⟩ (mem_crew.mpr (.inl rfl))) n hn
    · exact moves.hasTurn (h.inside_not_held other hn) (h.inside w (mem_crew.mpr (.inr other)) n hn)
  | @leave s before after c stage busy =>
    refine ⟨?_, fun w hw n hn => ?_, ?_⟩
    · rw [Stage.undone_lock, still_gone, still_gone]
      exact h.serves_first.handBackAll
    · rcases mem_crew.mp hw with rfl | other
      · simp [Worker.still] at hn
      · rw [Stage.undone_lock]
        have turn := h.inside w (mem_crew.mpr (.inr other)) n hn
        refine Turnstile.hasTurn_handBackAll turn fun hmem => ?_
        rcases List.mem_append.mp hmem with held | spent
        · exact h.inside_not_held other hn held
        · exact h.serves_first.hasTurn_unspent turn (List.mem_append_left _ spent)
    · rw [still_gone]
      exact Stage.undone_alone (h.alone.perm (still_perm _))

/-- A queue of which nothing is known to run, and in which nothing is stored. -/
structure State.Fresh (o : OfflineSettings) (s : State) : Prop where
  stored : s.stored o.queueKey = none
  waiting : s.queue.lock.waiting = []
  running : s.queue.running = none

theorem Crew.Reachable.orderly {s₀ : State} (h : Reachable o mayFail s₀ k) (fresh : s₀.Fresh o) :
    k.Orderly := by
  induction h with
  | refl => exact ⟨.of_fresh fresh.waiting, by simp, .inl rfl⟩
  | tail _ step ih => exact step.orderly ih

end Crew

end ScreenFlow.OfflineQueue
