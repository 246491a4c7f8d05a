import ScreenFlow.Proofs.Auth.Ownership
import ScreenFlow.Proofs.Process.Standing
import ScreenFlow.Proofs.Process.Shared

/-!
# One after the other

Callers that stand in line at the turnstile of a session are served one by one: as long as one of
them has the turn, no other can go on. What comes of all of them is what comes of each by itself, in
the order of the line.

* `InTurn`: callers served one after the other;
* `Queue.resumed`, `Queue.served`: callers in line stay in line, and all of them can be served;
* `serves_in_turn`: in whatever order the callers in line are answered, they are served so.
-/

namespace ScreenFlow

variable {I : Interface} {σ α β : Type}

/-! ### How far a process goes -/

namespace Process

/-- On the way and from then on, a process asks only what it can ask. -/
theorem Asks.of_comes {P : I.Ask → Prop} {p r : Process I α} {history : List (Happening I)}
    (h : p.Asks P) (comes : p.Comes history r) : (∀ e ∈ history, P e.question) ∧ r.Asks P := by
  induction comes with
  | here => exact ⟨by simp, h⟩
  | asked x _ ih =>
    obtain ⟨later, rest⟩ := ih (h.2 x)
    exact ⟨List.forall_mem_cons.mpr ⟨h.1, later⟩, rest⟩

end Process

namespace Surroundings

variable {S : Surroundings I σ}

/-- A process that is followed by another goes as far as it can, and if it ends, so does the other. -/
theorem runs_bind {s s' : σ} {p : Process I α} {k : α → Process I β} {past past' r}
    (runs : S.Runs s (p.bind k) past s' r past') :
    (∃ q next history, S.suspends q = true ∧ r = (Process.ask q next).bind k ∧
        past' = past ++ history ∧ p.Comes history (.ask q next) ∧ S.Allows s history s') ∨
      ∃ history a s₁, p.Ends history a ∧ S.Allows s history s₁ ∧
        S.Runs s₁ (k a) (past ++ history) s' r past' := by
  induction p generalizing s past with
  | done a => exact .inr ⟨[], a, s, .done a, .nil s, by simpa using runs⟩
  | ask q next ih =>
    cases hq : S.suspends q with
    | true =>
      obtain ⟨rfl, rfl, rfl⟩ := (runs_suspended_iff hq).mp runs
      exact .inl ⟨q, next, [], hq, rfl, by simp, .here _, .nil _⟩
    | false =>
      obtain ⟨a, s₁, ha, rest⟩ := (runs_answered_iff hq).mp runs
      rcases ih a rest with
        ⟨q', next', history, hq', rfl, rfl, comes, allows⟩ | ⟨history, b, s₂, ends, allows, after⟩
      · exact .inl ⟨q', next', ⟨q, a⟩ :: history, hq', rfl, by simp, .asked a comes,
          .cons ha allows⟩
      · exact .inr ⟨⟨q, a⟩ :: history, b, s₂, .asked a ends, .cons ha allows, by simpa using after⟩

end Surroundings

namespace Auth

open Simulation (SessionPart)

/-! ### A line of callers -/

/-- A caller in line: its ticket, and what it does before it hands the ticket back. -/
structure Place (α : Type) where
  ticket : Nat
  work : Operation α
  past : List (Happening interface)

abbrev Caller (α : Type) := Thread interface Unit α

abbrev Callers (α : Type) := Pool interface SessionPart Unit α

/-- Hands the ticket back with a result. -/
def leave (ticket : Nat) (r : α) : Operation α := .ask (.handBack ticket) fun _ => .done r

def Place.caller (l : Place α) : Caller α := ⟨(), l.work.bind (leave l.ticket), l.past, false⟩

def Place.served (l : Place α) (history : List (Happening interface)) (r : α) : Caller α :=
  ⟨(), .done r, l.past ++ history ++ [⟨.handBack l.ticket, ()⟩], false⟩

/-- The state when a ticket has been handed back. -/
def handedBack (s : SessionPart) (ticket : Nat) : SessionPart :=
  { s with lock := s.lock.handBack ticket }

/-- What the holder of a ticket may ask: it leaves the turnstile alone. -/
def Inside (ticket : Nat) : Ask → Prop
  | .takeTicket | .handBack _ => False
  | .turn n => n = ticket
  | _ => True

/-- Each caller is served by itself, from the state that the one before it has left. -/
inductive InTurn : SessionPart → List (Place α) → SessionPart → List (Caller α) → Prop
  | nil (s) : InTurn s [] s []
  | cons {s s₁ s₂ l ls ts history r} (ends : l.work.Ends history r)
      (allows : surroundings.Allows s history s₁)
      (later : InTurn (handedBack s₁ l.ticket) ls s₂ ts) :
      InTurn s (l :: ls) s₂ (l.served history r :: ts)

/-- Some caller is given an answer. -/
def Resumed (p p' : Callers α) : Prop := ∃ i q a, surroundings.Resumes i q a p p'

def Served (ts : List (Caller α)) : Prop := ∀ t ∈ ts, ∃ r, t.process = .done r

/-- The callers stand in line: the first is under way, and the others wait for their turns. -/
structure Line (s : SessionPart) (ls : List (Place α)) : Prop where
  tickets : s.lock.waiting = ls.map (·.ticket)
  nodup : (ls.map (·.ticket)).Nodup
  inside : ∀ l ∈ ls, l.work.Asks (Inside l.ticket)
  first : ∀ l ∈ ls.head?, ∃ q next, l.work = .ask q next ∧ surroundings.suspends q = true
  waits : ∀ l ∈ ls.tail, ∃ next, l.work = .ask (.turn l.ticket) next

variable {s s' s₁ s₂ : SessionPart} {l l' : Place α} {ls : List (Place α)} {before : List (Caller α)}
  {p p' : Callers α} {n : Nat} {history : List (Happening interface)}

/-! ### The one that has the turn -/

/-- Whoever has the turn keeps it. -/
theorem lock_of_answers {q : Ask} {a : Answer q} (inside : Inside n q)
    (ha : surroundings.answers s q a s') : s'.lock = s.lock := by
  cases q with
  | takeTicket | handBack => exact inside.elim
  | session | profile | turn => rw [show s' = s from ha.2]
  | store | now | send | toLogin | setSession | setProfile | emit =>
    rw [show s' = _ from ha]

theorem lock_of_allows (inside : ∀ e ∈ history, Inside n e.question)
    (allows : surroundings.Allows s history s') : s'.lock = s.lock := by
  induction allows with
  | nil => rfl
  | cons here _ ih =>
    obtain ⟨first, later⟩ := List.forall_mem_cons.mp inside
    exact (ih later).trans (lock_of_answers first here)

/-- Nothing that the holder of the turn asks lacks an answer. -/
theorem exists_answer {q : Ask} (inside : Inside n q) (turn : s.lock.hasTurn n = true) :
    ∃ a s', surroundings.answers s q a s' ∧ s'.lock = s.lock := by
  obtain ⟨a, s', ha⟩ : ∃ a s', surroundings.answers s q a s' := by
    cases q with
    | takeTicket | handBack => exact inside.elim
    | session => exact ⟨s.current, s, rfl, rfl⟩
    | profile => exact ⟨s.profile, s, rfl, rfl⟩
    | turn => exact ⟨(), s, (show _ = n from inside) ▸ turn, rfl⟩
    | store q =>
      obtain ⟨a⟩ := nonempty_answer (.store q)
      exact ⟨a, s, rfl⟩
    | send => exact ⟨.ok { status := 200 }, s, rfl⟩
    | now => exact ⟨(0 : Int), s, rfl⟩
    | setSession | setProfile | emit | toLogin => exact ⟨(), _, rfl⟩
  exact ⟨a, s', ha, lock_of_answers inside ha⟩

theorem leave_runs {past past' : List (Happening interface)} {r : α} {t : Operation α} :
    surroundings.Runs s (leave n r) past s' t past' ↔
      s' = handedBack s n ∧ t = .done r ∧ past' = past ++ [⟨.handBack n, ()⟩] := by
  rw [leave, Surroundings.runs_answered_iff rfl]
  constructor
  · rintro ⟨_, s₁, rfl, runs⟩
    exact Surroundings.runs_done_iff.mp runs
  · rintro ⟨rfl, rfl, rfl⟩
    exact ⟨(), _, rfl, Surroundings.runs_done_iff.mpr ⟨rfl, rfl, rfl⟩⟩

/-! ### One answer -/

theorem Line.hasTurn (line : Line s (l :: ls)) : s.lock.hasTurn l.ticket = true := by
  simp [Turnstile.hasTurn, line.tickets]

/-- The first goes on, and is under way still. -/
theorem Line.goes (line : Line s (l :: ls)) (lock : s'.lock = s.lock) (ticket : l'.ticket = l.ticket)
    (inside : l'.work.Asks (Inside l'.ticket))
    (first : ∃ q next, l'.work = .ask q next ∧ surroundings.suspends q = true) :
    Line s' (l' :: ls) where
  tickets := by rw [lock, line.tickets, List.map_cons, List.map_cons, ticket]
  nodup := by simpa [ticket] using line.nodup
  inside := List.forall_mem_cons.mpr ⟨inside, (List.forall_mem_cons.mp line.inside).2⟩
  first := by simpa using first
  waits := line.waits

/-- The first has left, and the next one has the turn. -/
theorem Line.leaves (line : Line s (l :: ls)) (lock : s'.lock = s.lock) :
    Line (handedBack s' l.ticket) ls where
  tickets := by
    rw [handedBack, Turnstile.handBack, lock, line.tickets, List.map_cons, List.erase_cons_head]
  nodup := (List.nodup_cons.mp line.nodup).2
  inside := (List.forall_mem_cons.mp line.inside).2
  first l' hl' := by
    obtain ⟨next, h⟩ := line.waits l' (List.mem_of_mem_head? hl')
    exact ⟨_, next, h, rfl⟩
  waits l' hl' := line.waits l' (List.mem_of_mem_tail hl')

/-- What an answer to callers in line leads to: the first of them goes on, or leaves. -/
inductive Line.Next (before : List (Caller α)) (s : SessionPart) (l : Place α) (ls : List (Place α)) :
    Callers α → Prop
  | goes {s' q next} (history : List (Happening interface)) (suspends : surroundings.suspends q = true)
      (comes : l.work.Comes history (.ask q next)) (allows : surroundings.Allows s history s') :
      Next before s l ls ⟨s', before ++
        Place.caller ⟨l.ticket, .ask q next, l.past ++ history⟩ :: ls.map Place.caller⟩
  | leaves {s' history r} (ends : l.work.Ends history r) (allows : surroundings.Allows s history s') :
      Next before s l ls
        ⟨handedBack s' l.ticket, before ++ l.served history r :: ls.map Place.caller⟩

/-- Nobody but the first can be given an answer. -/
theorem Line.turn (line : Line s ls) (done : Served before) {i : Nat} {t : Caller α} {q : Ask}
    {a : Answer q} {next : Answer q → Operation α}
    (here : (before ++ ls.map Place.caller)[i]? = some t) (waits : t.process = .ask q next)
    (ha : surroundings.answers s q a s') :
    ∃ l rest, ls = l :: rest ∧ i = before.length ∧ t = l.caller := by
  rcases Nat.lt_or_ge i before.length with old | new
  · rw [List.getElem?_append_left old] at here
    obtain ⟨r, finished⟩ := done t (List.mem_of_getElem? here)
    rw [finished] at waits
    cases waits
  · rw [List.getElem?_append_right new, List.getElem?_map] at here
    obtain ⟨l, hl, rfl⟩ := Option.map_eq_some_iff.mp here
    cases ls with
    | nil => simp at hl
    | cons first rest =>
      cases hi : i - before.length with
      | zero =>
        refine ⟨first, rest, rfl, Nat.le_antisymm (Nat.sub_eq_zero_iff_le.mp hi) new, ?_⟩
        rw [hi] at hl
        exact congrArg Place.caller (Option.some.inj hl).symm
      | succ k =>
        rw [hi, List.getElem?_cons_succ] at hl
        have behind := List.mem_of_getElem? hl
        obtain ⟨next', work⟩ := line.waits l behind
        rw [Place.caller, work, Process.ask_bind] at waits
        cases waits
        -- The turn belongs to one ticket, and the first has another.
        have same : first.ticket = l.ticket := Turnstile.hasTurn_unique line.hasTurn ha.1
        have twice : l.ticket ∈ rest.map (·.ticket) := List.mem_map_of_mem behind
        rw [← same] at twice
        exact absurd twice (List.nodup_cons.mp line.nodup).1

theorem Line.resumed (line : Line s ls) (done : Served before)
    (h : Resumed ⟨s, before ++ ls.map Place.caller⟩ p') :
    ∃ l rest, ls = l :: rest ∧ Line.Next before s l rest p' := by
  obtain ⟨i, q, a, resumes⟩ := h
  cases resumes with
  | @mk t next s₁ s₂ r past here live waits ha runs =>
    obtain ⟨l, rest, rfl, rfl, rfl⟩ := line.turn done here waits ha
    obtain ⟨q', next', work, -⟩ := line.first l rfl
    rw [Place.caller, work, Process.ask_bind] at waits
    cases waits
    refine ⟨l, rest, rfl, ?_⟩
    rw [List.set_append_right _ _ (Nat.le_refl _), Nat.sub_self, List.map_cons, List.set_cons_zero]
    rcases Surroundings.runs_bind runs with
      ⟨q₁, next₁, history, suspends, rfl, rfl, comes, allows⟩ | ⟨history, b, s₃, ends, allows, after⟩
    · have comes : l.work.Comes (⟨q, a⟩ :: history) (.ask q₁ next₁) := work ▸ .asked a comes
      have next : Line.Next before s l rest _ := .goes _ suspends comes (.cons ha allows)
      simpa [Place.caller] using next
    · obtain ⟨rfl, rfl, rfl⟩ := leave_runs.mp after
      have ends : l.work.Ends (⟨q, a⟩ :: history) b := work ▸ .asked a ends
      have next : Line.Next before s l rest _ := .leaves ends (.cons ha allows)
      simpa [Place.served, Place.caller] using next

/-! ### Runs -/

/-- Some callers have been served, and the others stand in line. -/
def Queue (p : Callers α) : Prop :=
  ∃ before ls, p.threads = before ++ ls.map Place.caller ∧ Line p.state ls ∧ Served before

theorem Served.append {ts ts' : List (Caller α)} (h : Served ts) (h' : Served ts') :
    Served (ts ++ ts') := by
  intro t ht
  rcases List.mem_append.mp ht with left | right
  · exact h t left
  · exact h' t right

theorem Line.Next.queue (line : Line s (l :: ls)) (done : Served before)
    (next : Line.Next before s l ls p) : Queue p := by
  have inside := line.inside l List.mem_cons_self
  cases next with
  | @goes s' q next history suspends comes allows =>
    obtain ⟨asked, rest⟩ := inside.of_comes comes
    exact ⟨before, _ :: ls, rfl,
      line.goes (lock_of_allows asked allows) rfl rest ⟨q, next, rfl, suspends⟩, done⟩
  | @leaves s' history r ends allows =>
    refine ⟨before ++ [l.served history r], ls, by simp,
      line.leaves (lock_of_allows (inside.of_ends ends) allows), done.append ?_⟩
    exact List.forall_mem_singleton.mpr ⟨r, rfl⟩

/-- Callers in line stay in line. -/
theorem Queue.resumed (h : Queue p) (step : Resumed p p') : Queue p' := by
  obtain ⟨s, threads⟩ := p
  obtain ⟨before, ls, rfl, line, done⟩ := h
  obtain ⟨l, rest, rfl, next⟩ := line.resumed done step
  exact next.queue line done

theorem Queue.steps (h : Queue p) (steps : Relation.ReflTransGen Resumed p p') : Queue p' := by
  induction steps with
  | refl => exact h
  | tail _ step ih => exact ih.resumed step

/-- The one that has the turn can go on until it leaves. -/
theorem exists_leaves {work : Operation α} (inside : work.Asks (Inside n))
    (turn : s.lock.hasTurn n = true) (past : List (Happening interface)) (before rest : List (Caller α)) :
    ∃ s' process past', surroundings.Runs s (work.bind (leave n)) past s' process past' ∧
      ∃ s'' r past'', Relation.ReflTransGen Resumed
          ⟨s', before ++ ⟨(), process, past', false⟩ :: rest⟩
          ⟨s'', before ++ ⟨(), .done r, past'', false⟩ :: rest⟩ ∧
        s''.lock = s.lock.handBack n := by
  induction work generalizing s past with
  | done r => exact ⟨_, _, _, leave_runs.mpr ⟨rfl, rfl, rfl⟩, _, r, _, .refl, rfl⟩
  | ask q next ih =>
    obtain ⟨a, s₁, ha, lock⟩ := exists_answer inside.1 turn
    obtain ⟨s', process, past', runs, s'', r, past'', steps, left⟩ :=
      ih a (inside.2 a) (lock ▸ turn) (past ++ [⟨q, a⟩])
    rw [lock] at left
    cases hq : surroundings.suspends q with
    | false => exact ⟨s', process, past', .answered hq ha runs, s'', r, past'', steps, left⟩
    | true =>
      let waiting : Caller α := ⟨(), .ask q fun a => (next a).bind (leave n), past, false⟩
      have here : (before ++ waiting :: rest)[before.length]? = some waiting := by simp
      have resumes : surroundings.Resumes before.length q a ⟨s, before ++ waiting :: rest⟩
          ⟨s', before ++ ⟨(), process, past', false⟩ :: rest⟩ :=
        (Surroundings.resumes_iff (t := waiting) here rfl rfl).mpr
          ⟨s₁, s', process, past', ha, runs, by simp [waiting]⟩
      exact ⟨s, _, past, .suspended hq _ _ _, s'', r, past'', .head ⟨_, q, a, resumes⟩ steps, left⟩

/-- Callers in line can all be served. -/
theorem Line.served (line : Line s ls) (done : Served before) :
    ∃ p, Relation.ReflTransGen Resumed ⟨s, before ++ ls.map Place.caller⟩ p ∧ Served p.threads := by
  induction ls generalizing s before with
  | nil => exact ⟨_, .refl, by simpa using done⟩
  | cons l ls ih =>
    obtain ⟨q, next, work, suspends⟩ := line.first l rfl
    obtain ⟨s', process, past', runs, s'', r, past'', steps, left⟩ :=
      exists_leaves (line.inside l List.mem_cons_self) line.hasTurn l.past before (ls.map Place.caller)
    rw [work, Process.ask_bind, Surroundings.runs_suspended_iff suspends] at runs
    obtain ⟨rfl, rfl, rfl⟩ := runs
    have after : Line s'' ls := by
      have next : Line (handedBack s' l.ticket) ls := line.leaves rfl
      exact { next with tickets := (congrArg (·.waiting) left).trans next.tickets }
    obtain ⟨p, later, all⟩ := ih after (done.append (List.forall_mem_singleton.mpr
      (⟨r, rfl⟩ : ∃ r', (⟨(), .done r, past'', false⟩ : Caller α).process = .done r')))
    refine ⟨p, ?_, all⟩
    rw [List.map_cons, Place.caller, work, Process.ask_bind]
    exact steps.trans (by simpa using later)

theorem Queue.served (h : Queue p) :
    ∃ p', Relation.ReflTransGen Resumed p p' ∧ Served p'.threads := by
  obtain ⟨s, threads⟩ := p
  obtain ⟨before, ls, rfl, line, done⟩ := h
  exact line.served done

/-- Once all are served, they have been served one after the other. -/
theorem serves_in_turn (line : Line s ls) (done : Served before)
    (steps : Relation.ReflTransGen Resumed ⟨s, before ++ ls.map Place.caller⟩ p)
    (all : Served p.threads) :
    ∃ s' ts, InTurn s ls s' ts ∧ p = ⟨s', before ++ ts⟩ := by
  generalize start : (⟨s, before ++ ls.map Place.caller⟩ : Callers α) = p₀ at steps
  induction steps using Relation.ReflTransGen.head_induction_on generalizing s ls before with
  | refl =>
    subst start
    cases ls with
    | nil => exact ⟨s, [], .nil s, by simp⟩
    | cons l ls =>
      obtain ⟨q, next, work, -⟩ := line.first l rfl
      obtain ⟨r, finished⟩ := all l.caller (by simp)
      simp [Place.caller, work] at finished
  | head step later ih =>
    subst start
    obtain ⟨l, rest, rfl, next⟩ := line.resumed done step
    have inside := line.inside l List.mem_cons_self
    cases next with
    | @goes s' q next history suspends comes allows =>
      obtain ⟨asked, inside'⟩ := inside.of_comes comes
      have line' : Line s' (⟨l.ticket, .ask q next, l.past ++ history⟩ :: rest) :=
        line.goes (lock_of_allows asked allows) rfl inside' ⟨q, next, rfl, suspends⟩
      obtain ⟨s₂, ts, inTurn, rfl⟩ := ih line' done rfl
      cases inTurn with
      | @cons _ s₁ _ _ _ ts history' r ends allows' inTurn =>
        refine ⟨s₂, _, .cons (comes.ends ends) (Surroundings.allows_append_iff.mpr ⟨_, allows, allows'⟩)
          inTurn, ?_⟩
        simp [Place.served]
    | @leaves s' history r ends allows =>
      have left : Served [l.served history r] := List.forall_mem_singleton.mpr ⟨r, rfl⟩
      obtain ⟨s₂, ts, inTurn, rfl⟩ := ih
        (line.leaves (lock_of_allows (inside.of_ends ends) allows)) (done.append left) (by simp)
      exact ⟨s₂, _, .cons ends allows inTurn, by simp⟩

/-! ### What callers have been told -/

/-- What a caller has been told, it has been told for good. -/
theorem Resumed.past {k : Nat} {t : Caller α} (h : Resumed p p') (here : p.threads[k]? = some t) :
    ∃ t', p'.threads[k]? = some t' ∧ t.past ⊆ t'.past := by
  obtain ⟨i, q, a, resumes⟩ := h
  cases resumes with
  | @mk t₁ next s₁ s₂ r past there live waits ha runs =>
    obtain ⟨new, rfl, -⟩ := runs.past
    rcases getElem?_of_set { t₁ with process := r, past := t₁.past ++ [⟨q, a⟩] ++ new } here there with
      other | ⟨-, rfl, replaced⟩
    · exact ⟨t, other, List.Subset.refl _⟩
    · exact ⟨_, replaced, by simp⟩

theorem past_of_resumed {k : Nat} {t : Caller α} (steps : Relation.ReflTransGen Resumed p p')
    (here : p.threads[k]? = some t) : ∃ t', p'.threads[k]? = some t' ∧ t.past ⊆ t'.past := by
  induction steps with
  | refl => exact ⟨t, here, List.Subset.refl _⟩
  | tail _ step ih =>
    obtain ⟨t₁, here₁, sub⟩ := ih
    obtain ⟨t₂, here₂, sub'⟩ := step.past here₁
    exact ⟨t₂, here₂, List.Subset.trans sub sub'⟩

/-- The answer that a caller gets is among what it has been told. -/
theorem mem_past_of_resumes {i : Nat} {q : Ask} {a : Answer q}
    (h : surroundings.Resumes i q a p p') :
    ∃ t, p'.threads[i]? = some t ∧ ⟨q, a⟩ ∈ t.past := by
  cases h with
  | @mk t₁ next s₁ s₂ r past there live waits ha runs =>
    obtain ⟨new, rfl, -⟩ := runs.past
    exact ⟨_, List.getElem?_set_self (List.getElem?_eq_some_iff.mp there).1, by simp⟩

end Auth

end ScreenFlow
