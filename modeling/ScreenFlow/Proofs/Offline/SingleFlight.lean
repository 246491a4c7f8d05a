import ScreenFlow.Proofs.Offline.Stages
import ScreenFlow.Proofs.Process.Histories

/-!
# One pass at a time

Others may go on before any question of a call is answered, and a call may be abandoned wherever it
waits. Even so the calls of a queue make one pass at a time.

* `Phase`: where a call stands with respect to the pass that it may make;
* `Watched`: the pass that is noted as running is the one that is under way, and the only one;
* `SingleFlight`: what follows for the calls of a pool, `single_flight` shows it.
-/

namespace ScreenFlow.OfflineQueue

open Simulation (QueuePart)

variable {o : OfflineSettings} {mayFail : Prop} {s s' : State} {past : List (Happening interface)}
  {q : Ask} {a : Answer q} {next : Answer q → Operation Outcome} {n : Nat}

/-! ### Questions about passes -/

/-- Neither begins a pass nor ends one, and does not switch. -/
def Ask.plain : Ask → Bool
  | .startPass | .endPass _ | .switch _ => false
  | _ => true

/-- What only a pass asks. -/
def Ask.ofPass : Ask → Bool
  | .replay _ | .progress _ | .pause _ => true
  | _ => false

def startIn (h : Happening interface) : Option Nat :=
  match h.question, h.answer with
  | .startPass, some n => some n
  | _, _ => none

def endIn (h : Happening interface) : Option Nat :=
  match h.question with
  | .endPass n => some n
  | _ => none

/-- The passes that were begun. -/
def begun (past : List (Happening interface)) : List Nat := past.filterMap startIn

/-- The passes that were ended. -/
def ended (past : List (Happening interface)) : List Nat := past.filterMap endIn

theorem mem_begun : n ∈ begun past ↔ ⟨.startPass, some n⟩ ∈ past := by
  rw [begun, List.mem_filterMap]
  constructor
  · rintro ⟨⟨q, a⟩, hmem, h⟩
    cases q with
    | startPass =>
      obtain rfl : a = some n := by
        cases a with
        | none => cases h
        | some m => exact h
      exact hmem
    | _ => cases h
  · exact fun hmem => ⟨_, hmem, rfl⟩

theorem mem_ended : n ∈ ended past ↔ ⟨.endPass n, ()⟩ ∈ past := by
  rw [ended, List.mem_filterMap]
  constructor
  · rintro ⟨⟨q, a⟩, hmem, h⟩
    cases q with
    | endPass m =>
      obtain rfl : m = n := Option.some.inj h
      exact hmem
    | _ => cases h
  · exact fun hmem => ⟨_, hmem, rfl⟩

theorem begun_concat (h : Happening interface) :
    begun (past ++ [h]) = begun past ++ (startIn h).toList := by
  simp only [begun, List.filterMap_append, List.filterMap_cons, List.filterMap_nil]
  cases startIn h <;> rfl

theorem ended_concat (h : Happening interface) :
    ended (past ++ [h]) = ended past ++ (endIn h).toList := by
  simp only [ended, List.filterMap_append, List.filterMap_cons, List.filterMap_nil]
  cases endIn h <;> rfl

theorem begun_plain (plain : q.plain = true) : begun (past ++ [⟨q, a⟩]) = begun past := by
  rw [begun_concat]
  cases q <;> first | exact List.append_nil _ | cases plain

theorem ended_plain (plain : q.plain = true) : ended (past ++ [⟨q, a⟩]) = ended past := by
  rw [ended_concat]
  cases q <;> first | exact List.append_nil _ | cases plain

/-! ### Where a call stands -/

/-- Goes on with plain questions until it ends this pass and is done. -/
def Inside (n : Nat) : Operation Outcome → Prop
  | .done _ => False
  | .ask q next =>
    q.plain = true ∧ (∀ a, Inside n (next a)) ∨ q = .endPass n ∧ ∀ a, ∃ r, next a = .done r

/-- Where a call stands with respect to the pass that it may make. -/
inductive Phase (o : OfflineSettings) : List (Happening interface) → Operation Outcome → Prop
  /-- It makes no pass, or not any more. -/
  | idle {past : List (Happening interface)} {p : Operation Outcome} (unbegun : begun past = [])
      (unended : ended past = []) (rest : p.Asks fun q : Ask => q.plain = true ∧ q.ofPass = false) :
      Phase o past p
  | switching {past : List (Happening interface)} {p : Operation Outcome} (online : Bool)
      (fresh : past = []) (same : p = perform o (.setOnline online)) : Phase o past p
  | asking {past : List (Happening interface)} {p : Operation Outcome}
      (switched : ∀ h ∈ past, ∃ online, h.question = .switch online) (same : p = perform o .replay) :
      Phase o past p
  | inside {past : List (Happening interface)} {p : Operation Outcome} {n : Nat}
      (begun : begun past = [n]) (unended : ended past = []) (rest : Inside n p) : Phase o past p
  | closed {past : List (Happening interface)} {n : Nat} {r : Outcome} (begun : begun past = [n])
      (ended : ended past = [n]) : Phase o past (.done r)

theorem inside_bind {α : Type} {p : Operation α} {k : α → Operation Outcome}
    (plain : p.Asks fun q : Ask => q.plain = true) (rest : ∀ a, Inside n (k a)) :
    Inside n (p.bind k) := by
  induction p with
  | done a => exact rest a
  | ask q next ih => exact .inl ⟨plain.1, fun a => ih a (plain.2 a)⟩

theorem inside_ending (r : Except OfflineError ReplayReport) : Inside n (ending n r) :=
  .inr ⟨rfl, fun _ => ⟨_, rfl⟩⟩

section Plain

variable {es : List OfflineEvent}

theorem asks_load (P : Ask → Prop) (h : ∀ key, P (.store (.get key))) : (load o).Asks P := by
  refine ⟨h _, fun got => ?_⟩
  rcases got with _ | _ | _ <;> trivial

theorem asks_save (P : Ask → Prop) (h : ∀ key text, P (.store (.set key text none)))
    (h' : ∀ key, P (.store (.delete key))) : (save o es).Asks P := by
  unfold save
  split
  · exact ⟨h' _, fun _ => trivial⟩
  · exact ⟨h _ _, fun _ => trivial⟩

theorem asks_exclusively {α : Type} {body : Operation α} (P : Ask → Prop) (h : P .takeTicket)
    (h' : ∀ ticket, P (.turn ticket) ∧ P (.handBack ticket)) (inside : body.Asks P) :
    (exclusively body).Asks P :=
  ⟨h, fun ticket => ⟨(h' ticket).1, fun _ => inside.bind fun _ => ⟨(h' ticket).2, fun _ => trivial⟩⟩⟩

/-- Queueing and clearing have nothing to do with passes. -/
theorem uninvolved_enqueue (e : OfflineEvent) :
    (perform o (.enqueue e)).Asks fun q : Ask => q.plain = true ∧ q.ofPass = false := by
  have appends : (append o e).Asks fun q : Ask => q.plain = true ∧ q.ofPass = false := by
    refine (asks_load _ fun _ => ⟨rfl, rfl⟩).bind fun r => ?_
    cases r with
    | error f => trivial
    | ok queued =>
      refine ⟨⟨rfl, rfl⟩, fun now => ⟨⟨rfl, rfl⟩, fun last => ⟨⟨rfl, rfl⟩, fun _ => ?_⟩⟩⟩
      refine (asks_save _ (fun _ _ => ⟨rfl, rfl⟩) fun _ => ⟨rfl, rfl⟩).bind fun r => ?_
      cases r <;> trivial
  refine Process.Asks.bind ?_ fun _ => trivial
  refine (asks_exclusively _ ⟨rfl, rfl⟩ (fun _ => ⟨⟨rfl, rfl⟩, rfl, rfl⟩) appends).bind fun r => ?_
  cases r with
  | error f => trivial
  | ok id => exact ⟨⟨rfl, rfl⟩, fun _ => trivial⟩

theorem uninvolved_clear :
    (perform o .clear).Asks fun q : Ask => q.plain = true ∧ q.ofPass = false := by
  have saves : (save o []).Asks fun q : Ask => q.plain = true ∧ q.ofPass = false :=
    asks_save _ (fun _ _ => ⟨rfl, rfl⟩) fun _ => ⟨rfl, rfl⟩
  exact (asks_exclusively _ ⟨rfl, rfl⟩ (fun _ => ⟨⟨rfl, rfl⟩, rfl, rfl⟩) saves).bind fun _ => trivial

theorem plain_replayAll (total through : Nat) (p : Pass) :
    (replayAll o total through es p).Asks fun q : Ask => q.plain = true := by
  induction es generalizing through p with
  | nil => trivial
  | cons e es ih =>
    refine ⟨rfl, fun r => ⟨rfl, fun _ => ?_⟩⟩
    dsimp only
    split
    · exact ⟨rfl, fun _ => ih _ _⟩
    · exact ih _ _

theorem plain_pass : (pass o).Asks fun q : Ask => q.plain = true := by
  refine ⟨rfl, fun there => ?_⟩
  cases there with
  | false => trivial
  | true =>
    have loads : (load o).Asks fun q : Ask => q.plain = true := asks_load _ fun _ => rfl
    refine (asks_exclusively (fun q => q.plain = true) rfl (fun _ => ⟨rfl, rfl⟩) loads).bind
      fun r => ?_
    cases r with
    | error f => trivial
    | ok seen =>
      refine ⟨rfl, fun _ => ?_⟩
      dsimp only
      split
      · trivial
      · refine (plain_replayAll _ _ _).bind fun p => ?_
        refine asks_exclusively (fun q => q.plain = true) rfl (fun _ => ⟨rfl, rfl⟩)
          (loads.bind fun r => ?_)
        cases r with
        | error f => trivial
        | ok current =>
          refine (asks_save _ (fun _ _ => rfl) fun _ => rfl).bind fun r => ?_
          cases r <;> trivial

end Plain

theorem perform_replay_eq : perform o .replay =
    .ask .startPass fun started =>
      match started with
      | none => .done (.replayed (.ok none))
      | some n => (pass o).bind (ending n) := by
  simp only [perform, replay, Process.bind_def, ask, Process.call, Process.ask_bind,
    Process.done_bind, Process.pure_def]
  congr 1
  funext started
  cases started with
  | none => rfl
  | some n =>
    simp only [Process.bind_assoc]
    rfl

/-! ### Steps of one call -/

theorem phase_start (c : Call) : Phase o [] (perform o c) := by
  cases c with
  | enqueue e => exact .idle rfl rfl (uninvolved_enqueue e)
  | clear => exact .idle rfl rfl uninvolved_clear
  | replay => exact .asking (by simp) rfl
  | setOnline online => exact .switching online rfl rfl

theorem begun_switched (switched : ∀ h ∈ past, ∃ online, h.question = .switch online) :
    begun past = [] ∧ ended past = [] := by
  constructor
  all_goals
    refine List.filterMap_eq_nil_iff.mpr fun h hmem => ?_
    obtain ⟨online, same⟩ := switched h hmem
    obtain ⟨q, a⟩ := h
    dsimp only at same
    subst same
    rfl

theorem Phase.step (h : Phase o past (.ask q next)) : Phase o (past ++ [⟨q, a⟩]) (next a) := by
  cases h with
  | idle unbegun unended rest =>
    refine .idle ?_ ?_ (rest.2 a)
    · rw [begun_plain rest.1.1, unbegun]
    · rw [ended_plain rest.1.1, unended]
  | switching online fresh same =>
    subst fresh
    rw [perform_setOnline] at same
    obtain ⟨rfl, same⟩ := Process.ask.inj same
    cases same
    dsimp only
    split
    · refine .asking (fun h hmem => ?_) rfl
      obtain rfl := List.mem_singleton.mp hmem
      exact ⟨online, rfl⟩
    · exact .idle rfl rfl trivial
  | asking switched same =>
    obtain ⟨unbegun, unended⟩ := begun_switched switched
    rw [perform_replay_eq] at same
    obtain ⟨rfl, same⟩ := Process.ask.inj same
    cases same
    cases a with
    | none =>
      refine .idle ?_ ?_ trivial
      · rw [begun_concat, unbegun]
        rfl
      · rw [ended_concat, unended]
        rfl
    | some n =>
      -- Whatever the pass comes to, the only way out of it leads over its end.
      refine .inside (n := n) ?_ ?_ (inside_bind plain_pass inside_ending)
      · rw [begun_concat, unbegun]
        rfl
      · rw [ended_concat, unended]
        rfl
  | @inside _ n started unended rest =>
    rcases rest with ⟨plain, rest⟩ | ⟨rfl, done⟩
    · refine .inside ?_ ?_ (rest a)
      · rw [begun_plain plain, started]
      · rw [ended_plain plain, unended]
    · obtain ⟨r, same⟩ := done a
      rw [same]
      refine .closed (n := n) ?_ ?_
      · rw [begun_concat, started]
        rfl
      · rw [ended_concat, unended]
        rfl

/-! ### What a call holds -/

/-- What a phase says of the passes of a call: none, or one that is under way, or one that is over. -/
theorem Phase.passes {p : Operation Outcome} (h : Phase o past p) :
    (begun past = [] ∧ ended past = []) ∨ (∃ n, begun past = [n] ∧ ended past = [] ∧ Inside n p) ∨
      ∃ n, begun past = [n] ∧ ended past = [n] ∧ ∃ r, p = .done r := by
  cases h with
  | idle unbegun unended => exact .inl ⟨unbegun, unended⟩
  | switching _ fresh => exact .inl (by rw [fresh]; exact ⟨rfl, rfl⟩)
  | asking switched => exact .inl (begun_switched switched)
  | inside started unended rest => exact .inr (.inl ⟨_, started, unended, rest⟩)
  | closed started ended => exact .inr (.inr ⟨_, started, ended, _, rfl⟩)

/-- The pass that the call is making. -/
def passOf (t : Thread interface Call Outcome) : Option Nat :=
  if t.abandoned then none else if ended t.past = [] then (begun t.past).head? else none

/-- The call has begun a pass, and has not ended it. -/
def Passing (t : Thread interface Call Outcome) : Prop :=
  t.abandoned = false ∧ ∃ n : Nat, ⟨.startPass, some n⟩ ∈ t.past ∧ ⟨.endPass n, ()⟩ ∉ t.past

theorem passing_iff {t : Thread interface Call Outcome} (h : Phase o t.past t.process) :
    Passing t ↔ ∃ n, passOf t = some n := by
  simp only [Passing, ← mem_begun, ← mem_ended, passOf]
  cases t.abandoned with
  | true => simp
  | false =>
    rcases h.passes with ⟨unbegun, unended⟩ | ⟨n, started, unended, -⟩ | ⟨n, started, closed, -⟩
    · simp [unbegun, unended]
    · simp [started, unended]
    · simp [started, closed]

/-- What the surroundings know of passes is changed by no other question. -/
theorem running_of_plain (h : Answers mayFail s q a s') (plain : q.plain = true) :
    s'.queue.running = s.queue.running := by
  cases q with
  | store q =>
    cases q with
    | get => rw [h.1]
    | set => rcases h with ⟨-, rfl⟩ | ⟨-, -, rfl⟩ <;> rfl
    | delete => rcases h with ⟨-, rfl⟩ | ⟨-, -, rfl⟩ <;> rfl
    | keys | isAvailable => rw [show s' = s from h]
  | startPass | endPass | switch => cases plain
  | takeTicket | turn | lastStamp | hasReplayer =>
    obtain ⟨-, rfl⟩ := h
    rfl
  | handBack | setLastStamp | wallClock | replay | progress | pause | registerSync =>
    obtain rfl := h
    rfl

/-- What is left running when a call is abandoned. -/
def without (running : Option Nat) (passes : List Nat) : Option Nat :=
  passes.foldr (fun n running => if running = some n then none else running) running

theorem endPass_running (s : State) (n : Nat) : (s.endPass n).queue.running =
    if s.queue.running = some n then none else s.queue.running := by
  simp only [State.endPass, QueuePart.endPass, beq_iff_eq]
  split <;> rfl

theorem undone_running (mayFail : Prop) (past : List (Happening interface)) (s : State) :
    ((surroundings mayFail).undone past s).queue.running = without s.queue.running (begun past) := by
  induction past with
  | nil => rfl
  | cons h past ih =>
    obtain ⟨q, a⟩ := h
    cases q with
    | startPass =>
      cases a with
      | none => exact ih
      | some n =>
        refine (endPass_running _ _).trans ?_
        rw [← Surroundings.undone, ih]
        rfl
    | _ => exact ih

/-! ### The calls of a pool -/

/-- What is noted as running is what the calls are at. -/
structure Watched (o : OfflineSettings) (p : Pool interface State Call Outcome) : Prop where
  phase : ∀ t ∈ p.threads, Phase o t.past t.process
  passes : p.threads.filterMap passOf = p.state.queue.running.toList

theorem toList_eq_middle {r : Option Nat} {xs ys : List Nat} (h : xs ++ [n] ++ ys = r.toList) :
    r = some n ∧ xs = [] ∧ ys = [] := by
  cases r with
  | none => simp at h
  | some m =>
    cases xs with
    | nil =>
      obtain ⟨rfl, rfl⟩ := List.cons.inj h
      exact ⟨rfl, rfl, rfl⟩
    | cons x xs => simp at h

theorem filterMap_set {α β : Type} (f : α → Option β) {as : List α} {i : Nat} {a : α}
    (there : as[i]? = some a) : ∃ xs ys, as.filterMap f = xs ++ (f a).toList ++ ys ∧
      ∀ b, (as.set i b).filterMap f = xs ++ (f b).toList ++ ys := by
  obtain ⟨split, replaced⟩ := set_split there
  have parts (c : α) : (as.take i ++ c :: as.drop (i + 1)).filterMap f =
      (as.take i).filterMap f ++ (f c).toList ++ (as.drop (i + 1)).filterMap f := by
    rw [List.filterMap_append, List.append_assoc]
    cases h : f c <;> simp [h]
  refine ⟨(as.take i).filterMap f, (as.drop (i + 1)).filterMap f, ?_, fun b => ?_⟩
  · rw [← parts, ← split]
  · rw [← parts, ← replaced]

/-- If a list has one entry that counts at most, two that count stand at one place. -/
theorem place_unique {α β : Type} {f : α → Option β} {as : List α} {r : Option β}
    (h : as.filterMap f = r.toList) {i j : Nat} {a b : α} (hi : as[i]? = some a)
    (hj : as[j]? = some b) (ha : (f a).isSome) (hb : (f b).isSome) : i = j := by
  induction as generalizing i j r with
  | nil => simp at hi
  | cons c as ih =>
    have counts {d : α} {k : Nat} (hk : as[k]? = some d) (hd : (f d).isSome) :
        as.filterMap f ≠ [] := by
      obtain ⟨x, hx⟩ := Option.isSome_iff_exists.mp hd
      exact List.ne_nil_of_mem (List.mem_filterMap.mpr ⟨d, List.mem_of_getElem? hk, hx⟩)
    cases hc : f c with
    | none =>
      rw [List.filterMap_cons_none hc] at h
      cases i with
      | zero =>
        obtain rfl : c = a := by simpa using hi
        simp [hc] at ha
      | succ i =>
        cases j with
        | zero =>
          obtain rfl : c = b := by simpa using hj
          simp [hc] at hb
        | succ j => exact congrArg (· + 1) (ih h (by simpa using hi) (by simpa using hj))
    | some x =>
      have nothing : as.filterMap f = [] := by
        rw [List.filterMap_cons_some hc] at h
        cases r with
        | none => cases h
        | some y => exact (List.cons.inj h).2
      cases i with
      | succ i => exact absurd nothing (counts (by simpa using hi) ha)
      | zero =>
        cases j with
        | succ j => exact absurd nothing (counts (by simpa using hj) hb)
        | zero => rfl

theorem passOf_asking {t : Thread interface Call Outcome} (h : Phase o t.past t.process)
    (live : t.abandoned = false) (waits : t.process = .ask q next) :
    (passOf t).toList = begun t.past ∧ ended t.past = [] := by
  rw [waits] at h
  rcases h.passes with ⟨unbegun, unended⟩ | ⟨n, started, unended, -⟩ | ⟨n, -, -, r, same⟩
  · simp [passOf, live, unbegun, unended]
  · simp [passOf, live, started, unended]
  · cases same

/-- Only who does not make a pass asks to begin one. -/
theorem Phase.of_startPass {next : Option Nat → Operation Outcome}
    (h : Phase o past (.ask .startPass next)) :
    (∀ h ∈ past, ∃ online, h.question = .switch online) ∧
      .ask .startPass next = perform o .replay := by
  cases h with
  | idle _ _ rest => cases rest.1.1
  | switching online _ same =>
    rw [perform_setOnline] at same
    cases (Process.ask.inj same).1
  | asking switched same => exact ⟨switched, same⟩
  | inside _ _ rest =>
    rcases rest with ⟨plain, -⟩ | ⟨same, -⟩
    · cases plain
    · cases same

/-- Only who makes a pass asks to end it. -/
theorem Phase.of_endPass {next : Unit → Operation Outcome}
    (h : Phase o past (.ask (.endPass n) next)) :
    begun past = [n] ∧ ended past = [] := by
  cases h with
  | idle _ _ rest => cases rest.1.1
  | switching online _ same =>
    rw [perform_setOnline] at same
    cases (Process.ask.inj same).1
  | asking _ same =>
    rw [perform_replay_eq] at same
    cases (Process.ask.inj same).1
  | inside started unended rest =>
    rcases rest with ⟨plain, -⟩ | ⟨same, -⟩
    · cases plain
    · cases same
      exact ⟨started, unended⟩

section Step

variable {p p' : Pool interface State Call Outcome} {t : Thread interface Call Outcome}

/-- One answer keeps the note of what runs in step with what the call is at. -/
theorem passOf_answered {xs ys : List Nat} (phase : Phase o t.past t.process)
    (live : t.abandoned = false) (waits : t.process = .ask q next) (ha : Answers mayFail s q a s')
    (before : xs ++ (passOf t).toList ++ ys = s.queue.running.toList) :
    xs ++ (passOf { t with process := next a, past := t.past ++ [⟨q, a⟩] }).toList ++ ys =
      s'.queue.running.toList := by
  have holds := passOf_asking phase live waits
  rw [waits] at phase
  have silent (started : startIn ⟨q, a⟩ = none) (ended : endIn ⟨q, a⟩ = none) :
      passOf { t with process := next a, past := t.past ++ [⟨q, a⟩] } = passOf t := by
    simp [passOf, begun_concat, ended_concat, started, ended]
  cases q with
  | startPass =>
    obtain ⟨rfl, rfl⟩ := ha
    obtain ⟨unbegun, unended⟩ := begun_switched phase.of_startPass.1
    rw [holds.1, unbegun] at before
    cases running : s.queue.running with
    | none =>
      obtain ⟨number, started⟩ := State.startPass_of_free running
      rw [running] at before
      obtain ⟨nothing, rfl⟩ := List.append_eq_nil_iff.mp before
      obtain ⟨rfl, -⟩ := List.append_eq_nil_iff.mp nothing
      simp [number, started, passOf, live, begun_concat, ended_concat, unbegun, unended, startIn,
        endIn]
    | some m =>
      obtain ⟨refused, same⟩ := State.startPass_of_busy running
      rw [refused, same, ← before]
      simp [passOf, begun_concat, unbegun, startIn]
  | endPass n =>
    obtain rfl : s' = s.endPass n := ha
    obtain ⟨started, unended⟩ := phase.of_endPass
    rw [holds.1, started] at before
    obtain ⟨running, rfl, rfl⟩ := toList_eq_middle before
    rw [endPass_running, if_pos running]
    simp [passOf, ended_concat, endIn]
  | switch online =>
    rw [silent rfl rfl, before, ha.2]
    rfl
  | _ => rw [silent rfl rfl, before, running_of_plain ha rfl]

/-- Whoever abandons a call ends its pass. -/
theorem passOf_abandoned {xs ys : List Nat} (phase : Phase o t.past t.process)
    (live : t.abandoned = false) (waits : t.process = .ask q next)
    (before : xs ++ (passOf t).toList ++ ys = s.queue.running.toList) :
    xs ++ (passOf { t with abandoned := true }).toList ++ ys =
      (without s.queue.running (begun t.past)).toList := by
  have gone : passOf { t with abandoned := true } = none := rfl
  rw [(passOf_asking phase live waits).1] at before
  rw [gone]
  rcases phase.passes with ⟨unbegun, -⟩ | ⟨n, started, -⟩ | ⟨n, -, -, r, same⟩
  · rw [unbegun] at before ⊢
    exact before
  · rw [started] at before ⊢
    obtain ⟨running, rfl, rfl⟩ := toList_eq_middle before
    simp [without, running]
  · rw [waits] at same
    cases same

theorem Watched.step (h : Watched o p)
    (step : (surroundings mayFail).finely.Step (perform o) p p') : Watched o p' := by
  have replaced {i : Nat} {t' : Thread interface Call Outcome}
      (phase : Phase o t'.past t'.process) :
      ∀ u ∈ p.threads.set i t', Phase o u.past u.process := by
    intro u hu
    rcases List.mem_or_eq_of_mem_set hu with old | rfl
    · exact h.phase u old
    · exact phase
  cases step with
  | begin c runs =>
    obtain ⟨rfl, rfl, rfl⟩ := Surroundings.finely_runs_iff.mp runs
    constructor
    · intro u hu
      rcases List.mem_append.mp hu with old | new
      · exact h.phase u old
      · obtain rfl := List.mem_singleton.mp new
        exact phase_start c
    · have nothing : passOf ⟨c, perform o c, [], false⟩ = none := rfl
      rw [List.filterMap_append, h.passes, List.filterMap_cons_none nothing]
      exact List.append_nil _
  | resume resumes =>
    cases resumes with
    | @mk t next s₁ s₂ r past here live waits ha runs =>
      obtain ⟨rfl, rfl, rfl⟩ := Surroundings.finely_runs_iff.mp runs
      have phase := h.phase t (List.mem_of_getElem? here)
      obtain ⟨xs, ys, before, after⟩ := filterMap_set passOf here
      refine ⟨replaced ?_, ?_⟩
      · rw [waits] at phase
        exact phase.step
      · rw [after]
        exact passOf_answered phase live waits ha (before.symm.trans h.passes)
  | @abandon i t q next here live waits =>
    -- What is undone takes back the pass of this call alone, as it is the only one.
    have phase := h.phase t (List.mem_of_getElem? here)
    obtain ⟨xs, ys, before, after⟩ := filterMap_set passOf here
    refine ⟨replaced phase, ?_⟩
    have running : ((surroundings mayFail).finely.undone t.past p.state).queue.running =
        without p.state.queue.running (begun t.past) := undone_running mayFail t.past p.state
    rw [after, running]
    exact passOf_abandoned phase live waits (before.symm.trans h.passes)

end Step

theorem watched_of_reachable {s₀ : State} {p : Pool interface State Call Outcome}
    (idle : s₀.queue.running = none)
    (h : (surroundings mayFail).finely.Reachable (perform o) s₀ p) : Watched o p := by
  induction h with
  | refl =>
    refine ⟨by simp, ?_⟩
    rw [idle]
    rfl
  | tail _ step ih => exact ih.step step

/-! ### Connections -/

/-- How far a call has come that tells of the connection: it asks to begin a pass just if the connection
has come back and the settings say so. -/
def Reconnects (o : OfflineSettings) (c : Call) (past : List (Happening interface))
    (p : Operation Outcome) : Prop :=
  ∀ online, c = .setOnline online →
    (past = [] ∧ ∃ next, p = .ask (.switch online) next) ∨
      ∃ before later, past = ⟨.switch online, before⟩ :: later ∧
        if (online && !before && o.replayOnReconnect) = true then
          (later = [] ∧ ∃ next, p = .ask .startPass next) ∨
            ∃ started more, later = ⟨.startPass, started⟩ :: more
        else later = [] ∧ p = .done (.replayed (.ok none))

theorem always_of_prefix {P : List (Happening interface) → Operation Outcome → Prop}
    (h : ∀ more p, P (past ++ more) p) (p : Operation Outcome) : p.Always P past := by
  induction p generalizing past with
  | done a => exact List.append_nil past ▸ h [] (.done a)
  | ask q next ih =>
    refine ⟨List.append_nil past ▸ h [] (.ask q next), fun a => ih a fun more p => ?_⟩
    rw [List.append_assoc]
    exact h _ p

theorem always_reconnects (c : Call) : (perform o c).Always (Reconnects o c) [] := by
  cases c with
  | enqueue | clear | replay => exact always_of_prefix (fun _ _ _ h => by cases h) _
  | setOnline online =>
    rw [perform_setOnline]
    refine ⟨fun _ h => ?_, fun before => ?_⟩
    · cases h
      exact .inl ⟨rfl, _, rfl⟩
    · cases back : online && !before && o.replayOnReconnect with
      | false =>
        simp only [back, Bool.false_eq_true, ↓reduceIte]
        intro _ h
        cases h
        exact .inr ⟨before, [], rfl, by rw [back]; exact ⟨rfl, rfl⟩⟩
      | true =>
        simp only [back, ↓reduceIte, perform_replay_eq]
        refine ⟨fun _ h => ?_, fun started => always_of_prefix (fun more p _ h => ?_) _⟩
        · cases h
          exact .inr ⟨before, [], rfl, by rw [back]; exact .inl ⟨rfl, _, rfl⟩⟩
        · cases h
          exact .inr ⟨before, _, rfl, by rw [back]; exact .inr ⟨started, more, rfl⟩⟩

/-! ### The whole pool -/

/-- Whether a pass is noted as running. -/
def State.isReplaying (s : State) : Bool := s.queue.running.isSome

section Watched

variable {p p' : Pool interface State Call Outcome} {i : Nat} {t : Thread interface Call Outcome}

namespace Watched

theorem passing_iff (h : Watched o p) (ht : t ∈ p.threads) : Passing t ↔ ∃ n, passOf t = some n :=
  OfflineQueue.passing_iff (h.phase t ht)

/-- A pass is noted as running just while one is under way. -/
theorem noted (h : Watched o p) : p.state.isReplaying = true ↔ ∃ t ∈ p.threads, Passing t := by
  rw [State.isReplaying, Option.isSome_iff_exists]
  constructor
  · rintro ⟨n, running⟩
    have holds : n ∈ p.threads.filterMap passOf := by simp [h.passes, running]
    obtain ⟨t, ht, hn⟩ := List.mem_filterMap.mp holds
    exact ⟨t, ht, (h.passing_iff ht).mpr ⟨n, hn⟩⟩
  · rintro ⟨t, ht, passing⟩
    obtain ⟨n, hn⟩ := (h.passing_iff ht).mp passing
    have holds : n ∈ p.state.queue.running.toList :=
      h.passes ▸ List.mem_filterMap.mpr ⟨t, ht, hn⟩
    exact ⟨n, Option.mem_toList.mp holds⟩

theorem one (h : Watched o p) {j : Nat} {u : Thread interface Call Outcome}
    (hi : p.threads[i]? = some t) (hj : p.threads[j]? = some u) (ht : Passing t) (hu : Passing u) :
    i = j := by
  refine place_unique h.passes hi hj ?_ ?_
  · exact Option.isSome_iff_exists.mpr ((h.passing_iff (List.mem_of_getElem? hi)).mp ht)
  · exact Option.isSome_iff_exists.mpr ((h.passing_iff (List.mem_of_getElem? hj)).mp hu)

/-- Who asks to begin a pass while there is one is told that there is one, and is done. -/
theorem refused {a : Option Nat} (h : Watched o p)
    (resumes : (surroundings mayFail).finely.Resumes i .startPass a p p')
    (passing : ∃ t ∈ p.threads, Passing t) : a = none ∧ p'.state = p.state ∧
      ∃ t', p'.threads[i]? = some t' ∧ t'.process = .done (.replayed (.ok none)) ∧
        ∀ e ∈ t'.past, e.question = .startPass ∨ ∃ online, e.question = .switch online := by
  cases resumes with
  | @mk t next s₁ s₂ r past here live waits ha runs =>
    obtain ⟨rfl, rfl, rfl⟩ := Surroundings.finely_runs_iff.mp runs
    obtain ⟨rfl, rfl⟩ := ha
    obtain ⟨n, running⟩ := Option.isSome_iff_exists.mp (h.noted.mpr passing)
    obtain ⟨refused, same⟩ := State.startPass_of_busy running
    have phase := h.phase t (List.mem_of_getElem? here)
    rw [waits] at phase
    obtain ⟨switched, asks⟩ := phase.of_startPass
    rw [perform_replay_eq] at asks
    cases (Process.ask.inj asks).2
    have bound := (List.getElem?_eq_some_iff.mp here).1
    refine ⟨refused, same, _, List.getElem?_set_self bound, ?_, ?_⟩
    · rw [refused]
    · intro e he
      rcases List.mem_append.mp he with old | new
      · exact .inr (switched e old)
      · exact .inl (List.mem_singleton.mp new ▸ rfl)

/-- Who asks to begin a pass while there is none begins one. -/
theorem granted {a : Option Nat} (h : Watched o p)
    (resumes : (surroundings mayFail).finely.Resumes i .startPass a p p')
    (free : ¬ ∃ t ∈ p.threads, Passing t) : ∃ t', p'.threads[i]? = some t' ∧ Passing t' := by
  cases resumes with
  | @mk t next s₁ s₂ r past here live waits ha runs =>
    obtain ⟨rfl, rfl, rfl⟩ := Surroundings.finely_runs_iff.mp runs
    obtain ⟨rfl, rfl⟩ := ha
    have idle : p.state.queue.running = none := by
      rw [← Option.not_isSome_iff_eq_none]
      exact fun running => free (h.noted.mp running)
    have phase := h.phase t (List.mem_of_getElem? here)
    rw [waits] at phase
    obtain ⟨number, -⟩ := State.startPass_of_free idle
    obtain ⟨-, unended⟩ := begun_switched phase.of_startPass.1
    refine ⟨_, List.getElem?_set_self (List.getElem?_eq_some_iff.mp here).1, live,
      p.state.queue.passes, ?_, ?_⟩
    · rw [number]
      exact List.mem_append_right _ (List.mem_singleton_self _)
    · rw [← mem_ended, ended_concat, unended]
      exact List.not_mem_nil

end Watched

/-- A call that is done makes no pass any more. -/
theorem Phase.not_passing {r : Outcome} (phase : Phase o t.past (.done r)) : ¬ Passing t := by
  rintro ⟨-, n, started, unended⟩
  rw [← mem_begun] at started
  rw [← mem_ended] at unended
  rcases phase.passes with ⟨unbegun, -⟩ | ⟨m, -, -, rest⟩ | ⟨m, begins, ends, -⟩
  · simp [unbegun] at started
  · exact rest
  · rw [begins] at started
    rw [ends] at unended
    exact unended started

/-- Events are replayed, and progress is told, in passes only. -/
theorem Phase.passing (phase : Phase o t.past (.ask q next)) (live : t.abandoned = false)
    (ofPass : q.ofPass = true) : Passing t := by
  cases phase with
  | idle _ _ rest => simp [rest.1.2] at ofPass
  | switching online _ same =>
    rw [perform_setOnline] at same
    obtain ⟨rfl, -⟩ := Process.ask.inj same
    cases ofPass
  | asking _ same =>
    rw [perform_replay_eq] at same
    obtain ⟨rfl, -⟩ := Process.ask.inj same
    cases ofPass
  | @inside _ n started unended =>
    refine ⟨live, n, mem_begun.mp ?_, fun ends => ?_⟩
    · simp [started]
    · rw [← mem_ended, unended] at ends
      cases ends

theorem switched_online {online before : Bool}
    (resumes : (surroundings mayFail).finely.Resumes i (.switch online) before p p') :
    before = p.state.queue.online ∧ p'.state.queue.online = online := by
  cases resumes with
  | mk here live waits ha runs =>
    obtain ⟨rfl, rfl, rfl⟩ := Surroundings.finely_runs_iff.mp runs
    obtain ⟨rfl, rfl⟩ := ha
    exact ⟨rfl, rfl⟩

end Watched

/-- One pass at a time, whatever the calls of the pool do. -/
structure SingleFlight (o : OfflineSettings) (mayFail : Prop)
    (p : Pool interface State Call Outcome) :
    Prop where
  one : ∀ (i j : Nat) t u, p.threads[i]? = some t → p.threads[j]? = some u →
    Passing t → Passing u → i = j
  noted : p.state.isReplaying = true ↔ ∃ t ∈ p.threads, Passing t
  /-- However a call ends, its pass has ended. -/
  ends : ∀ t ∈ p.threads, ∀ r, t.process = .done r → ¬ Passing t
  /-- Events are replayed, and progress is told, in passes only. -/
  within : ∀ t ∈ p.threads, t.abandoned = false → ∀ q next, t.process = .ask q next →
    q.ofPass = true → Passing t
  /-- Who asks to begin a pass while there is one is done, and has asked for nothing else. -/
  refused : ∀ i a p', (surroundings mayFail).finely.Resumes i .startPass a p p' →
    (∃ t ∈ p.threads, Passing t) → a = none ∧ p'.state = p.state ∧
      ∃ t', p'.threads[i]? = some t' ∧ t'.process = .done (.replayed (.ok none)) ∧
        ∀ h ∈ t'.past, h.question = .startPass ∨ ∃ online, h.question = .switch online
  granted : ∀ i a p', (surroundings mayFail).finely.Resumes i .startPass a p p' →
    (¬ ∃ t ∈ p.threads, Passing t) → ∃ t', p'.threads[i]? = some t' ∧ Passing t'
  switched : ∀ i online before p',
    (surroundings mayFail).finely.Resumes i (.switch online) before p p' →
    before = p.state.queue.online ∧ p'.state.queue.online = online
  reconnects : ∀ t ∈ p.threads, Reconnects o t.call t.past t.process

theorem Watched.singleFlight {p : Pool interface State Call Outcome} (h : Watched o p)
    (reconnects : ∀ t ∈ p.threads, Reconnects o t.call t.past t.process) :
    SingleFlight o mayFail p where
  one _ _ _ _ hi hj ht hu := h.one hi hj ht hu
  noted := h.noted
  ends t ht _ done := Phase.not_passing (done ▸ h.phase t ht)
  within t ht live _ _ waits ofPass := Phase.passing (waits ▸ h.phase t ht) live ofPass
  refused _ _ _ resumes passing := h.refused resumes passing
  granted _ _ _ resumes free := h.granted resumes free
  switched _ _ _ _ resumes := switched_online resumes
  reconnects := reconnects

/-- However its calls interleave and wherever they are abandoned, a queue makes one pass at a time. -/
theorem single_flight {s₀ : State} {p : Pool interface State Call Outcome}
    (idle : s₀.queue.running = none)
    (h : (surroundings mayFail).finely.Reachable (perform o) s₀ p) : SingleFlight o mayFail p :=
  (watched_of_reachable idle h).singleFlight fun t ht =>
    (Surroundings.Reachable.always always_reconnects h t ht).here

/-- One pass is under way, and a second call asks to begin another one. -/
theorem single_flight_two : ∃ p p' : Pool interface State Call Outcome,
    (surroundings False).finely.Reachable (perform {})
      ⟨{ replayer := .dispatcher }, fun _ => none⟩ p ∧
    SingleFlight {} False p ∧ (∃ t ∈ p.threads, Passing t) ∧
    (surroundings False).finely.Resumes 1 .startPass none p p' ∧ p'.state = p.state := by
  let s : State := ⟨{ replayer := .dispatcher }, fun _ => none⟩
  let first : Thread interface Call Outcome := ⟨.replay, perform {} .replay, [], false⟩
  let passing : Thread interface Call Outcome :=
    ⟨.replay, (pass {}).bind (ending 0), [⟨.startPass, some 0⟩], false⟩
  have begins (p : Pool interface State Call Outcome) :
      (surroundings False).finely.Step (perform {}) p ⟨p.state, p.threads ++ [first]⟩ :=
    .begin Call.replay (Surroundings.finely_runs_iff.mpr ⟨rfl, rfl, rfl⟩)
  have granted : Answers False s .startPass (some 0) s.startPass := ⟨rfl, rfl⟩
  have busy : Answers False s.startPass .startPass none s.startPass := ⟨rfl, rfl⟩
  have starts : (surroundings False).finely.Resumes 0 .startPass (some 0) ⟨s, [first]⟩
      ⟨s.startPass, [passing]⟩ :=
    .mk (t := first) rfl rfl perform_replay_eq granted
      (Surroundings.finely_runs_iff.mpr ⟨rfl, rfl, rfl⟩)
  have reachable : (surroundings False).finely.Reachable (perform {}) s
      ⟨s.startPass, [passing, first]⟩ :=
    ((Relation.ReflTransGen.single (begins ⟨s, []⟩)).tail (.resume starts)).tail (begins _)
  have flight := single_flight rfl reachable
  have under : ∃ t ∈ [passing, first], Passing t :=
    ⟨passing, List.mem_cons_self, rfl, 0, List.mem_singleton_self _, by simp [passing]⟩
  have second : (surroundings False).finely.Resumes 1 .startPass none
      ⟨s.startPass, [passing, first]⟩ ⟨s.startPass, _⟩ :=
    .mk (t := first) rfl rfl perform_replay_eq busy
      (Surroundings.finely_runs_iff.mpr ⟨rfl, rfl, rfl⟩)
  exact ⟨_, _, reachable, flight, under, second, (flight.refused _ _ _ second under).2.1⟩

/-- The same where calls wait for their turn, the store, a replay and the end of a pause only. -/
theorem singleFlight_of_reachable {s₀ : State} {p : Pool interface State Call Outcome}
    (idle : s₀.queue.running = none) (h : (surroundings mayFail).Reachable (perform o) s₀ p) :
    SingleFlight o mayFail p :=
  (watched_of_reachable idle h.finely).singleFlight fun t ht =>
    (Surroundings.Reachable.always always_reconnects h t ht).here

end ScreenFlow.OfflineQueue
