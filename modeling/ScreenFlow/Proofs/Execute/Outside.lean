import ScreenFlow.Proofs.Execute.Calls
import ScreenFlow.Proofs.Offline.Alone
import ScreenFlow.Proofs.Offline.Contents
import ScreenFlow.Simulation.Executing

/-!
# Calls and the offline queue

A call of the executor runs beside a queue and a session. Others may change both while the call
waits for the server, for a refresh, or for a pause to end.

* `outside`: what a call is answered, and what its questions do to the queue;
* `answers_of_world`: what a world answers at once is among it;
* `asked`: what a call asks the queue;
* `Attempts.unasked`, `queue_of_only`: the attempts of a call ask nothing of the queue, and what
  only asks for the connection leaves it as it is.
-/

namespace ScreenFlow.Executor

open OfflineQueue (State Queueing)
open Simulation (QueuePart World answerExecutor)

variable {x : Executor} {r : Request} {expected : Option ResponseType} {offline : Bool}
  {history : List (Happening interface)} {result reached : Except Fault Response}
  {o : OfflineSettings} {mayFail others : Prop}

/-- The offline queue and the live session token. -/
structure Outside where
  queue : State
  live : Option String

/-! ### Answers -/

/-- What the questions of a call do. An operation on the queue is done at once, what others do to
the queue while it waits being told elsewhere. -/
def Answers (o : OfflineSettings) (mayFail others : Prop) (s : Outside) :
    (q : Ask) → Answer q → Outside → Prop
  | .isOnline, b, s' => b = s.queue.queue.online ∧ s' = s
  | .token, live, s' => live = s.live ∧ s' = s
  | .refresh, some (.ok token), s' => others ∨ s' = { s with live := some token }
  | .refresh, _, s' => others ∨ s'.queue = s.queue
  | .send .., _, s' | .pause _, _, s' => others ∨ s' = s
  | .enqueue e, a, s' => s'.live = s.live ∧
    (OfflineQueue.surroundings mayFail).Leads (OfflineQueue.enqueue o e) s.queue a s'.queue
  | .cached key, a, s' => s'.live = s.live ∧
    (OfflineQueue.surroundings mayFail).Leads (OfflineQueue.cached o key) s.queue a s'.queue
  | .keep key value, _, s' => s'.live = s.live ∧ ∃ a,
    (OfflineQueue.surroundings mayFail).Leads (OfflineQueue.keep o key value) s.queue a s'.queue
  | .cancelled, _, s' | .draw, _, s' | .notify .., _, s' | .toLogin _, _, s' | .canRefresh, _, s'
  | .newEventId, _, s' => s' = s

/-- Others go on while a call waits for an answer from outside or for the queue. -/
def outside (o : OfflineSettings) (mayFail others : Prop) : Surroundings interface Outside where
  suspends
    | .send .. | .pause _ | .refresh | .enqueue _ | .cached _ | .keep .. => true
    | _ => false
  answers := Answers o mayFail others

/-- What a world with a queue answers at once is an answer that a call may get. -/
theorem answers_of_world {signal : SignalId} {w : World} {part : QueuePart}
    (hw : w.queue = some part) (stored : String → Option String) {q : Ask}
    (hq : (outside o mayFail others).suspends q = false) :
    ∃ a w', (answerExecutor signal q).run w = (w', .done a) ∧ w'.queue = some part ∧
      w'.liveToken = w.liveToken ∧ Answers o mayFail others ⟨⟨part, stored⟩, w.liveToken⟩ q a
        ⟨⟨part, stored⟩, w.liveToken⟩ := by
  cases q with
  | send | pause | refresh | enqueue | cached | keep => cases hq
  | cancelled | draw | canRefresh => exact ⟨_, w, rfl, hw, rfl, rfl⟩
  | token => exact ⟨_, w, rfl, hw, rfl, rfl, rfl⟩
  | isOnline => exact ⟨_, w, rfl, hw, rfl, by simp [hw], rfl⟩
  | newEventId => exact ⟨_, _, rfl, hw, rfl, rfl⟩
  | notify | toLogin =>
    refine ⟨(), _, rfl, ?_, ?_, rfl⟩
    · dsimp only
      split
      · exact hw
      · exact hw
    · dsimp only
      split
      · rfl
      · rfl

section Reads

variable {s s' : Outside}

theorem allows_cancelled_iff {stop : Bool} :
    (outside o mayFail others).Allows s (⟨.cancelled, stop⟩ :: history) s' ↔
      (outside o mayFail others).Allows s history s' := by
  rw [Surroundings.allows_still_iff (P := True) fun _ => (and_iff_right trivial).symm,
    and_iff_right trivial]

theorem allows_newEventId_iff {id : String} :
    (outside o mayFail others).Allows s (⟨.newEventId, id⟩ :: history) s' ↔
      (outside o mayFail others).Allows s history s' := by
  rw [Surroundings.allows_still_iff (P := True) fun _ => (and_iff_right trivial).symm,
    and_iff_right trivial]

theorem allows_isOnline_iff {online : Bool} :
    (outside o mayFail others).Allows s (⟨.isOnline, online⟩ :: history) s' ↔
      online = s.queue.queue.online ∧ (outside o mayFail others).Allows s history s' :=
  Surroundings.allows_still_iff fun _ => .rfl

theorem allows_token_iff {live : Option String} :
    (outside o mayFail others).Allows s (⟨.token, live⟩ :: history) s' ↔
      live = s.live ∧ (outside o mayFail others).Allows s history s' :=
  Surroundings.allows_still_iff fun _ => .rfl

theorem allows_enqueue_iff {e : OfflineEvent} {a : Except OfflineError String} :
    (outside o mayFail others).Allows s (⟨.enqueue e, a⟩ :: history) s' ↔
      ∃ queue,
        (OfflineQueue.surroundings mayFail).Leads (OfflineQueue.enqueue o e) s.queue a queue ∧
        (outside o mayFail others).Allows ⟨queue, s.live⟩ history s' := by
  rw [Surroundings.allows_cons_iff]
  constructor
  · rintro ⟨⟨queue, _⟩, ⟨rfl, leads⟩, rest⟩
    exact ⟨queue, leads, rest⟩
  · rintro ⟨queue, leads, rest⟩
    exact ⟨⟨queue, s.live⟩, ⟨rfl, leads⟩, rest⟩

end Reads

/-- Where the queue is free, everything that a call asks is answered. -/
theorem answered (s : Outside) (free : s.queue.Free) (q : Ask) :
    ∃ (a : Answer q) (s' : Outside), Answers o mayFail others s q a s' ∧ s'.queue.Free := by
  cases q with
  | isOnline => exact ⟨_, s, ⟨rfl, rfl⟩, free⟩
  | token => exact ⟨_, s, ⟨rfl, rfl⟩, free⟩
  | refresh => exact ⟨none, s, .inr rfl, free⟩
  | send => exact ⟨none, s, .inr rfl, free⟩
  | pause => exact ⟨true, s, .inr rfl, free⟩
  | cancelled => exact ⟨false, s, rfl, free⟩
  | draw => exact ⟨(0 : Nat), s, rfl, free⟩
  | notify | toLogin => exact ⟨(), s, rfl, free⟩
  | canRefresh => exact ⟨false, s, rfl, free⟩
  | newEventId => exact ⟨"", s, rfl, free⟩
  | cached key =>
    exact ⟨_, s, ⟨rfl, OfflineQueue.leads_cached_iff.mpr ⟨.inl rfl, rfl⟩⟩, free⟩
  | keep key value =>
    exact ⟨(), { s with queue := s.queue.put _ _ },
      ⟨rfl, .ok (), OfflineQueue.leads_keep_iff.mpr (.inl ⟨rfl, rfl⟩)⟩, free⟩
  | enqueue e =>
    obtain ⟨a, queue, queueing⟩ : ∃ a queue, Queueing o mayFail e s.queue a queue := by
      cases reads : OfflineQueue.queueOf (.ok (s.queue.stored o.queueKey)) with
      | error f => exact ⟨_, _, .unread (.inl reads.symm)⟩
      | ok queued => exact ⟨_, _, .queued (.inl reads.symm) 0⟩
    exact ⟨a, { s with queue }, ⟨rfl, OfflineQueue.leads_enqueue_iff.mpr
      ⟨OfflineQueue.hasTurn_of_free free, queueing⟩⟩, queueing.free free⟩

/-! ### Questions for the queue -/

/-- Whether the queue is asked. -/
def Ask.forQueue : Ask → Bool
  | .isOnline | .enqueue _ | .cached _ | .keep .. => true
  | _ => false

/-- What the queue was asked, in order. -/
def asked (history : List (Happening interface)) : List Ask :=
  (history.map (·.question)).filter (·.forQueue)

@[simp] theorem asked_append (first rest : List (Happening interface)) :
    asked (first ++ rest) = asked first ++ asked rest := by
  simp [asked]

theorem asked_eq_nil_iff : asked history = [] ↔ ∀ h ∈ history, h.question.forQueue = false := by
  simp [asked]

/-- The attempts under a policy do not ask the queue. -/
theorem Tries.unasked {left : Nat} (h : Tries x r expected left history result) :
    asked history = [] := by
  rw [asked_eq_nil_iff]
  intro e he
  have kind := h.inAttempt e he
  obtain ⟨q, a⟩ := e
  cases q with
  | cancelled | send | draw | pause | notify => rfl
  | _ => cases kind

theorem Renews.unasked (h : Renews x r expected history result) : asked history = [] := by
  cases h <;> rfl

/-- A call asks nothing of the queue while it attempts its request. -/
theorem Attempts.unasked (h : Attempts x r expected history result) : asked history = [] := by
  cases h with
  | tried tries => exact tries.unasked
  | denied tries =>
    rw [asked_append, tries.unasked]
    rfl
  | renewed tries renews =>
    have rest : asked (⟨.canRefresh, true⟩ :: _) = [] := renews.unasked
    rw [asked_append, tries.unasked, rest]
    rfl

/-- Without others, what asks the queue only for the connection leaves it as it is. -/
theorem queue_of_only {s s' : Outside} (allows : (outside o mayFail others).Allows s history s')
    (only : ∀ q ∈ asked history, q = .isOnline) : others ∨ s'.queue = s.queue := by
  induction allows with
  | nil => exact .inr rfl
  | @cons s s₁ s₂ q a history here rest ih =>
    have each : ∀ h ∈ (⟨q, a⟩ : Happening interface) :: history,
        h.question.forQueue = true → h.question = .isOnline := by
      intro h hh asks
      exact only _ (List.mem_filter.mpr ⟨List.mem_map_of_mem hh, asks⟩)
    have later : others ∨ s₂.queue = s₁.queue := by
      refine ih fun q hq => ?_
      obtain ⟨hmem, asks⟩ := List.mem_filter.mp hq
      obtain ⟨h, hh, rfl⟩ := List.mem_map.mp hmem
      exact each h (List.mem_cons_of_mem _ hh) asks
    have first : others ∨ s₁.queue = s.queue := by
      have apart := each _ List.mem_cons_self
      cases q with
      | enqueue | cached | keep => cases apart rfl
      | isOnline | token =>
        obtain ⟨-, rfl⟩ := here
        exact .inr rfl
      | refresh =>
        rcases a with _ | _ | token
        · exact here
        · exact here
        · exact here.imp_right fun same => by rw [same]
      | send | pause => exact here.imp_right fun same => by rw [same]
      | cancelled | draw | notify | toLogin | canRefresh | newEventId =>
        obtain rfl : s₁ = s := here
        exact .inr rfl
    rcases first, later with ⟨among | same, among' | same'⟩
    · exact .inl among
    · exact .inl among
    · exact .inl among'
    · exact .inr (same'.trans same)

end ScreenFlow.Executor
