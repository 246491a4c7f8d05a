import ScreenFlow.Execute.Basic
import ScreenFlow.Proofs.Process.Histories

/-!
# Calls of the executor

A call attempts its request under the retry policy, with one more attempt when a refusal has let it
refresh the session. Then it settles with the offline queue. It asks the queue alone while there is
no connection.

* `Tries`, `Renews`, `Attempts`: all that a call can ask while it attempts its request, that it is
  told, and that it comes to;
* `FallsBack`, `Settles`, `Course`: the same with the queue, and for a whole call;
* `attempts_of_ends`, `course_of_ends`: every history of a call is of this kind;
* `returns_of_replied`: a reply of success is the last word of its call.
-/

namespace ScreenFlow.Executor

variable {x : Executor} {r : Request} {expected : Option ResponseType}
  {history : List (Happening interface)} {result : Except Fault Response}

/-! ### One attempt -/

/-- The time that each attempt has. -/
def budget (x : Executor) (r : Request) : Duration := r.timeout.getD x.settings.requestTimeout

/-- The policy under which the request is attempted. -/
def policy (x : Executor) (r : Request) : RetryPolicy := r.retry.getD x.settings.retry

/-- What an attempt comes to unless it is cancelled. -/
def outcome (x : Executor) (r : Request) (expected : Option ResponseType) :
    Sent → Except Fault Response
  | .replied reply => reply.toResponse r.graphql.isSome expected
  | .failed f => .error f
  | .elapsed => .error (.timeout (x.budget r))

theorem attempt_eq (x : Executor) (r : Request) (expected : Option ResponseType) :
    x.attempt r expected =
      .ask (.send r (x.budget r)) fun a => .done (a.map (x.outcome r expected)) := by
  simp only [attempt, ask, Process.call, Process.bind_def, Process.ask_bind, Process.done_bind]
  congr 1
  funext a
  rcases a with _ | (_ | _ | _) <;> rfl

/-- The attempt was refused: the server, or whatever stands before it, says 401. -/
def Refused : Sent → Prop
  | .replied reply => reply.status = 401
  | .failed (.network status _ _) => status = 401
  | _ => False

theorem refused_iff {s : Sent} :
    Refused s ↔ ∃ m body, x.outcome r expected s = .error (.network 401 m body) := by
  cases s with
  | elapsed => simp [Refused, outcome]
  | failed f => cases f <;> simp [Refused, outcome]
  | replied reply =>
    simp only [Refused, outcome, Reply.toResponse]
    by_cases success : isSuccessStatus reply.status = true
    · have other : reply.status ≠ 401 := by
        rintro h
        simp [h, isSuccessStatus] at success
      rw [if_neg (by simp [success])]
      simp only [other, false_iff, not_exists]
      intro m body h
      cases hg : r.graphql.isSome with
      | false => simp [hg, Except.map] at h
      | true =>
        cases hb : reply.decode expected with
        | json envelope =>
          simp only [hg, hb, ↓reduceIte, GraphqlCall.openBody, GraphqlCall.openEnvelope] at h
          split at h
          · cases h
          · split at h <;> cases h
        | _ => simp [hg, hb, GraphqlCall.openBody, Except.map] at h
    · rw [if_pos (by simp [success])]
      simp [Reply.toFault]

/-! ### Attempts under a policy -/

/-- An attempt that was not cancelled. -/
def attempted (x : Executor) (r : Request) (s : Sent) : List (Happening interface) :=
  [⟨.cancelled, false⟩, ⟨.send r (x.budget r), some s⟩]

/-- Nothing but random numbers, for the length of a pause. -/
def Drawn (drawn : List (Happening interface)) : Prop := ∀ h ∈ drawn, h.question = .draw

/-- All that can happen while so many attempts are left. -/
inductive Tries (x : Executor) (r : Request) (expected : Option ResponseType) :
    Nat → List (Happening interface) → Except Fault Response → Prop
  | stopped {left : Nat} :
      Tries x r expected (left + 1) [⟨.cancelled, true⟩] (.error .cancelled)
  | cut {left : Nat} :
      Tries x r expected (left + 1) [⟨.cancelled, false⟩, ⟨.send r (x.budget r), none⟩]
        (.error .cancelled)
  | settled {left : Nat} (s : Sent)
      (final : ∀ f, x.outcome r expected s = .error f → f.isRetryable = false) :
      Tries x r expected (left + 1) (x.attempted r s) (x.outcome r expected s)
  | exhausted {s : Sent} {f : Fault} (failed : x.outcome r expected s = .error f)
      (retryable : f.isRetryable = true) (message : String) :
      Tries x r expected 1 (x.attempted r s ++ [⟨.notify message .error, ()⟩]) (.error f)
  | woken {left : Nat} {s : Sent} {f : Fault} (failed : x.outcome r expected s = .error f)
      (retryable : f.isRetryable = true) {drawn : List (Happening interface)}
      (draws : Drawn drawn) (d : Duration) :
      Tries x r expected (left + 2) (x.attempted r s ++ (drawn ++ [⟨.pause d, false⟩]))
        (.error .cancelled)
  | again {left : Nat} {s : Sent} {f : Fault} (failed : x.outcome r expected s = .error f)
      (retryable : f.isRetryable = true) {drawn : List (Happening interface)}
      (draws : Drawn drawn) (d : Duration) {history : List (Happening interface)}
      {result : Except Fault Response} (rest : Tries x r expected (left + 1) history result) :
      Tries x r expected (left + 2) (x.attempted r s ++ (drawn ++ ⟨.pause d, true⟩ :: history))
        result

/-- What is asked while a request is attempted under a policy. -/
def Ask.inAttempt : Ask → Bool
  | .cancelled | .send .. | .draw | .pause _ | .notify .. => true
  | _ => false

theorem Tries.inAttempt {left : Nat} (h : Tries x r expected left history result) :
    ∀ e ∈ history, e.question.inAttempt = true := by
  have attempt (s : Sent) : ∀ e ∈ x.attempted r s, e.question.inAttempt = true := by
    simp [attempted, Ask.inAttempt]
  have draw {drawn : List (Happening interface)} (draws : Drawn drawn) :
      ∀ e ∈ drawn, e.question.inAttempt = true := by
    intro e he
    rw [draws e he]
    rfl
  induction h with
  | stopped | cut => simp [Ask.inAttempt]
  | settled s => exact attempt s
  | exhausted =>
    exact List.forall_mem_append.mpr ⟨attempt _, List.forall_mem_singleton.mpr rfl⟩
  | woken _ _ draws =>
    exact List.forall_mem_append.mpr ⟨attempt _,
      List.forall_mem_append.mpr ⟨draw draws, List.forall_mem_singleton.mpr rfl⟩⟩
  | again _ _ draws _ _ ih =>
    exact List.forall_mem_append.mpr ⟨attempt _,
      List.forall_mem_append.mpr ⟨draw draws, List.forall_mem_cons.mpr ⟨rfl, ih⟩⟩⟩

/-- A random number for a pause of random length. -/
def drawing (p : RetryPolicy) : Execution Nat :=
  if p.strategy == .jitter then .ask .draw .done else .done (0 : Nat)

/-- The attempts that are left when attempt `n` is to be made, with it. -/
def attempting (x : Executor) (r : Request) (expected : Option ResponseType) (p : RetryPolicy)
    (left n : Nat) : Execution (Except Fault Response) :=
  (Retry.loop p left n).runIn (x.answerRetry r expected)

theorem attempting_succ (p : RetryPolicy) (left n : Nat) :
    x.attempting r expected p (left + 1) n = .ask .cancelled fun stop =>
      if stop then .done (.error .cancelled)
      else .ask (.send r (x.budget r)) fun a =>
        match a.map (x.outcome r expected) with
        | none => .done (.error .cancelled)
        | some (.ok response) => .done (.ok response)
        | some (.error f) =>
          if !f.isRetryable then .done (.error f)
          else if left = 0 then
            .ask (.notify (Retry.exhaustedMessage p.maxAttempts) .error) fun _ => .done (.error f)
          else (drawing p).bind fun draw => .ask (.pause (p.delayWith n draw)) fun slept =>
            if slept then x.attempting r expected p left (n + 1)
            else .done (.error .cancelled) := by
  simp only [attempting, Retry.loop, Retry.ask, Process.call, Process.bind_def, Process.ask_bind,
    Process.done_bind, Process.pure_def, Process.runIn, answerRetry, ask]
  congr 1
  funext stop
  cases stop with
  | true => rfl
  | false =>
    simp only [Bool.false_eq_true, ↓reduceIte, Process.runIn, Process.bind_def, Process.ask_bind,
      Process.done_bind, answerRetry, attempt_eq]
    congr 1
    funext a
    cases a.map (x.outcome r expected) with
    | none => rfl
    | some got =>
      cases got with
      | ok response => rfl
      | error f =>
        dsimp only
        cases retryable : f.isRetryable with
        | false => rfl
        | true =>
          by_cases last : left = 0
          · simp only [Bool.not_true, Bool.false_eq_true, last, ↓reduceIte, Process.runIn]
            rfl
          cases jitter : p.strategy == .jitter
          all_goals
            simp only [Bool.not_true, Bool.false_eq_true, last, jitter, drawing, ↓reduceIte,
              Process.runIn, Process.bind_def, Process.ask_bind, Process.done_bind, answerRetry,
              ask, Process.call]
          · congr 1
            funext slept
            cases slept <;> rfl
          · congr 1
            funext draw
            congr 1
            funext slept
            cases slept <;> rfl

theorem drawn_of_ends {p : RetryPolicy} {draw : Nat} (h : (drawing p).Ends history draw) :
    Drawn history := by
  unfold drawing at h
  split at h
  · obtain ⟨k, rest, rfl, hdone⟩ := Process.ends_ask_iff.mp h
    obtain ⟨rfl, -⟩ := Process.ends_done_iff.mp hdone
    simp [Drawn]
  · obtain ⟨rfl, -⟩ := Process.ends_done_iff.mp h
    simp [Drawn]

theorem tries_of_ends {p : RetryPolicy} {left n : Nat} {history : List (Happening interface)}
    (h : (x.attempting r expected p (left + 1) n).Ends history result) :
    Tries x r expected (left + 1) history result := by
  rw [attempting_succ] at h
  obtain ⟨stop, rest, rfl, begun⟩ := Process.ends_ask_iff.mp h
  cases stop with
  | true =>
    obtain ⟨rfl, rfl⟩ := Process.ends_done_iff.mp begun
    exact .stopped
  | false =>
    obtain ⟨a, rest, rfl, answered⟩ := Process.ends_ask_iff.mp begun
    cases a with
    | none =>
      obtain ⟨rfl, rfl⟩ := Process.ends_done_iff.mp answered
      exact .cut
    | some s =>
      rw [Option.map_some] at answered
      cases came : x.outcome r expected s with
      | ok response =>
        rw [came] at answered
        obtain ⟨rfl, rfl⟩ := Process.ends_done_iff.mp answered
        exact came ▸ .settled s (by simp [came])
      | error f =>
        rw [came] at answered
        cases retryable : f.isRetryable with
        | false =>
          simp only [retryable, Bool.not_false, ↓reduceIte, Process.ends_done_iff] at answered
          obtain ⟨rfl, rfl⟩ := answered
          exact came ▸ .settled s (by simp [came, retryable])
        | true =>
          simp only [retryable, Bool.not_true, Bool.false_eq_true, ↓reduceIte] at answered
          cases left with
          | zero =>
            obtain ⟨_, rest, rfl, closed⟩ := Process.ends_ask_iff.mp answered
            obtain ⟨rfl, rfl⟩ := Process.ends_done_iff.mp closed
            exact .exhausted came retryable _
          | succ left =>
            obtain ⟨drawn, draw, rest, rfl, hdraw, waits⟩ := Process.ends_bind_iff.mp answered
            obtain ⟨slept, rest, rfl, wakes⟩ := Process.ends_ask_iff.mp waits
            have draws : Drawn drawn := drawn_of_ends hdraw
            cases slept with
            | false =>
              obtain ⟨rfl, rfl⟩ := Process.ends_done_iff.mp wakes
              exact .woken came retryable draws _
            | true => exact .again came retryable draws _ (tries_of_ends wakes)
termination_by left

theorem tries_of_withRetry (h : (x.withRetry r expected).Ends history result) :
    Tries x r expected (x.policy r).maxAttempts history result := by
  obtain ⟨left, hleft⟩ : ∃ left, (x.policy r).maxAttempts = left + 1 :=
    Nat.exists_eq_succ_of_ne_zero (by simp only [RetryPolicy.maxAttempts]; omega)
  have run :
      (x.attempting r expected (x.policy r) (x.policy r).maxAttempts 0).Ends history result := h
  rw [hleft] at run ⊢
  exact tries_of_ends run

/-! ### One refresh and one more attempt -/

theorem outcome_reauthorized (token : String) (s : Sent) :
    x.outcome (reauthorized r token) expected s = x.outcome r expected s := by
  cases s <;> rfl

/-- All that can happen after a refusal, if the session can be refreshed. -/
inductive Renews (x : Executor) (r : Request) (expected : Option ResponseType) :
    List (Happening interface) → Except Fault Response → Prop
  | stopped : Renews x r expected [⟨.cancelled, true⟩] (.error .cancelled)
  | cut : Renews x r expected [⟨.cancelled, false⟩, ⟨.refresh, none⟩] (.error .cancelled)
  | failed (f : Fault) :
      Renews x r expected [⟨.cancelled, false⟩, ⟨.refresh, some (.error f)⟩,
        ⟨.toLogin x.settings.loginPath, ()⟩] (.error (refreshFault f))
  | stoppedAgain (token : String) :
      Renews x r expected [⟨.cancelled, false⟩, ⟨.refresh, some (.ok token)⟩, ⟨.cancelled, true⟩]
        (.error .cancelled)
  | cutAgain (token : String) :
      Renews x r expected [⟨.cancelled, false⟩, ⟨.refresh, some (.ok token)⟩,
        ⟨.cancelled, false⟩, ⟨.send (reauthorized r token) (x.budget r), none⟩] (.error .cancelled)
  | again (token : String) (s : Sent) :
      Renews x r expected [⟨.cancelled, false⟩, ⟨.refresh, some (.ok token)⟩,
        ⟨.cancelled, false⟩, ⟨.send (reauthorized r token) (x.budget r), some s⟩]
        (x.outcome r expected s)

theorem renews_of_ends (h : (x.refreshAndRetry r expected).Ends history result) :
    Renews x r expected history result := by
  simp only [refreshAndRetry, attempt_eq, ask, Process.call, Process.bind_def, Process.ask_bind,
    Process.done_bind, Process.pure_def] at h
  obtain ⟨stop, rest, rfl, begun⟩ := Process.ends_ask_iff.mp h
  cases stop with
  | true =>
    obtain ⟨rfl, rfl⟩ := Process.ends_done_iff.mp begun
    exact .stopped
  | false =>
    obtain ⟨refreshed, rest, rfl, answered⟩ := Process.ends_ask_iff.mp begun
    cases refreshed with
    | none =>
      obtain ⟨rfl, rfl⟩ := Process.ends_done_iff.mp answered
      exact .cut
    | some verdict =>
      cases verdict with
      | error f =>
        obtain ⟨_, rest, rfl, left⟩ := Process.ends_ask_iff.mp answered
        obtain ⟨rfl, rfl⟩ := Process.ends_done_iff.mp left
        exact .failed f
      | ok token =>
        obtain ⟨stop, rest, rfl, resumed⟩ := Process.ends_ask_iff.mp answered
        cases stop with
        | true =>
          obtain ⟨rfl, rfl⟩ := Process.ends_done_iff.mp resumed
          exact .stoppedAgain token
        | false =>
          obtain ⟨a, rest, rfl, sent⟩ := Process.ends_ask_iff.mp resumed
          cases a with
          | none =>
            obtain ⟨rfl, rfl⟩ := Process.ends_done_iff.mp sent
            exact .cutAgain token
          | some s =>
            obtain ⟨rfl, rfl⟩ := Process.ends_done_iff.mp sent
            rw [outcome_reauthorized]
            exact .again token s

/-! ### All attempts -/

/-- All that can happen before a call looks at the queue. -/
inductive Attempts (x : Executor) (r : Request) (expected : Option ResponseType) :
    List (Happening interface) → Except Fault Response → Prop
  | tried {history : List (Happening interface)} {result : Except Fault Response}
      (tries : Tries x r expected (x.policy r).maxAttempts history result)
      (other : ∀ m body, result ≠ .error (.network 401 m body)) :
      Attempts x r expected history result
  | denied {history : List (Happening interface)} {m : String} {body : Option Json}
      (tries : Tries x r expected (x.policy r).maxAttempts history (.error (.network 401 m body))) :
      Attempts x r expected (history ++ [⟨.canRefresh, false⟩]) (.error (.network 401 m body))
  | renewed {history rest : List (Happening interface)} {m : String} {body : Option Json}
      {result : Except Fault Response}
      (tries : Tries x r expected (x.policy r).maxAttempts history (.error (.network 401 m body)))
      (renews : Renews x r expected rest result) :
      Attempts x r expected (history ++ ⟨.canRefresh, true⟩ :: rest) result

theorem attempts_of_ends (h : (x.send r expected).Ends history result) :
    Attempts x r expected history result := by
  obtain ⟨first, tried, rest, rfl, hfirst, hrest⟩ := Process.ends_bind_iff.mp h
  have tries : Tries x r expected (x.policy r).maxAttempts first tried := tries_of_withRetry hfirst
  by_cases refused : ∃ m body, tried = .error (.network 401 m body)
  · obtain ⟨m, body, rfl⟩ := refused
    obtain ⟨can, after, rfl, answered⟩ := Process.ends_ask_iff.mp hrest
    cases can with
    | true => exact .renewed tries (renews_of_ends answered)
    | false =>
      obtain ⟨rfl, rfl⟩ := Process.ends_done_iff.mp answered
      exact .denied tries
  · have other : ∀ m body, tried ≠ .error (.network 401 m body) := fun m body h =>
      refused ⟨m, body, h⟩
    have closed : (Process.done tried : Execution _).Ends rest result := by
      split at hrest
      · rename_i m body
        exact absurd rfl (other m body)
      · exact hrest
    obtain ⟨rfl, rfl⟩ := Process.ends_done_iff.mp closed
    rw [List.append_nil]
    exact .tried tries other

variable {offline : Bool}

/-! ### Without an answer from the server -/

/-- What a mutation comes to that was handed to the queue. -/
def queueAnswer : Except OfflineError String → Except Fault Response
  | .ok id => .ok (.accepted id)
  | .error e => .error e.toFault

/-- What a read comes to when the kept reads were asked for it. -/
def readAnswer (r : Request) (cause : Option Fault) :
    Except OfflineError (Option Json) → Except Fault Response
  | .ok (some value) => .ok { status := 200, body := .json value, fromCache := true }
  | .ok none => .error (cause.getD (uncached r))
  | .error e => .error (cause.getD e.toFault)

/-- All that can happen without an answer from the server. -/
inductive FallsBack (r : Request) (cause : Option Fault) :
    List (Happening interface) → Except Fault Response → Prop
  | queued (mutating : r.isMutating = true) (token : Option String) (id : String)
      (a : Except OfflineError String) :
      FallsBack r cause [⟨.token, token⟩, ⟨.newEventId, id⟩,
        ⟨.enqueue (OfflineEvent.ofRequest id r token), a⟩] (queueAnswer a)
  | read (reads : r.isMutating = false) (a : Except OfflineError (Option Json)) :
      FallsBack r cause [⟨.cached (cacheKey r), a⟩] (readAnswer r cause a)

theorem fallsBack_of_ends {cause : Option Fault} (h : (fallBack r cause).Ends history result) :
    FallsBack r cause history result := by
  simp only [fallBack, queue, ask, Process.call, Process.bind_def, Process.ask_bind,
    Process.done_bind, Process.pure_def] at h
  cases mutating : r.isMutating with
  | true =>
    rw [if_pos mutating] at h
    obtain ⟨token, rest, rfl, asked⟩ := Process.ends_ask_iff.mp h
    obtain ⟨id, rest, rfl, named⟩ := Process.ends_ask_iff.mp asked
    obtain ⟨a, rest, rfl, answered⟩ := Process.ends_ask_iff.mp named
    cases a with
    | ok id' =>
      obtain ⟨rfl, rfl⟩ := Process.ends_done_iff.mp answered
      exact .queued mutating token id (.ok id')
    | error e =>
      obtain ⟨rfl, rfl⟩ := Process.ends_done_iff.mp answered
      exact .queued mutating token id (.error e)
  | false =>
    rw [if_neg (by simp [mutating])] at h
    obtain ⟨a, rest, rfl, answered⟩ := Process.ends_ask_iff.mp h
    rcases a with e | _ | value
    all_goals
      obtain ⟨rfl, rfl⟩ := Process.ends_done_iff.mp answered
      exact .read mutating _

/-! ### When the attempts are over -/

/-- The result is one that is kept for times without connection. -/
def Kept (x : Executor) (r : Request) (reached : Except Fault Response) : Prop :=
  r.isMutating = false ∧ ∃ response, reached = .ok response ∧
    x.settings.cacheReads = true ∧ isKept response.body = true

/-- No answer was got from the server. -/
def Unanswered (reached : Except Fault Response) : Prop := ∃ m, reached = .error (.transport m)

/-- All that can happen when the attempts have come to something. -/
inductive Settles (x : Executor) (r : Request) (offline : Bool) (reached : Except Fault Response) :
    List (Happening interface) → Except Fault Response → Prop
  | kept (on : offline = true) (kept : Kept x r reached) {response : Response}
      (good : reached = .ok response) :
      Settles x r offline reached [⟨.keep (cacheKey r) response.value, ()⟩] reached
  | fellBack (on : offline = true) {m : String} (lost : reached = .error (.transport m))
      {history : List (Happening interface)} {result : Except Fault Response}
      (falls : FallsBack r (some (.transport m)) history result) :
      Settles x r offline reached history result
  | plain (other : offline = true → ¬ Kept x r reached ∧ ¬ Unanswered reached) :
      Settles x r offline reached [] reached

theorem settles_of_ends {reached : Except Fault Response}
    (h : (x.settle r offline reached).Ends history result) :
    Settles x r offline reached history result := by
  cases reached with
  | ok response =>
    simp only [settle, keepRead, ask, Process.call, Process.bind_def, Process.pure_def] at h
    by_cases keeps : offline = true ∧ Kept x r (.ok response)
    · obtain ⟨on, reads, response', same, caches, kept⟩ := keeps
      cases same
      simp only [on, reads, caches, kept, Bool.not_false, Bool.and_self, ↓reduceIte,
        Process.ask_bind, Process.done_bind] at h
      obtain ⟨_, rest, rfl, answered⟩ := Process.ends_ask_iff.mp h
      obtain ⟨rfl, rfl⟩ := Process.ends_done_iff.mp answered
      exact .kept on ⟨reads, response, rfl, caches, kept⟩ rfl
    · have closed : (Process.done (.ok response) : Execution (Except Fault Response)).Ends history
          result := by
        by_cases reads : (offline && !r.isMutating) = true
        · have unkept : ¬ (x.settings.cacheReads && isKept response.body) = true := by
            intro h
            rw [Bool.and_eq_true] at reads h
            exact keeps ⟨reads.1, by simpa using reads.2, response, rfl, h.1, h.2⟩
          rwa [if_pos reads, if_neg unkept, Process.done_bind] at h
        · rwa [if_neg reads] at h
      obtain ⟨rfl, rfl⟩ := Process.ends_done_iff.mp closed
      refine .plain fun on => ⟨fun kept => keeps ⟨on, kept⟩, ?_⟩
      rintro ⟨m, lost⟩
      cases lost
  | error f =>
    have unkept : ¬ Kept x r (.error f) := by
      rintro ⟨-, response, same, -⟩
      cases same
    by_cases lost : ∃ m, f = .transport m
    · obtain ⟨m, rfl⟩ := lost
      cases on : offline with
      | true =>
        rw [settle, on, if_pos rfl] at h
        exact .fellBack rfl rfl (fallsBack_of_ends h)
      | false =>
        rw [settle, on, if_neg (by simp)] at h
        obtain ⟨rfl, rfl⟩ := Process.ends_done_iff.mp h
        exact .plain fun off => by cases off
    · have closed : (Process.done (.error f) : Execution (Except Fault Response)).Ends history
          result := by
        cases f with
        | transport m => exact absurd ⟨m, rfl⟩ lost
        | _ => exact h
      obtain ⟨rfl, rfl⟩ := Process.ends_done_iff.mp closed
      refine .plain fun _ => ⟨unkept, ?_⟩
      rintro ⟨m, same⟩
      cases same
      exact lost ⟨m, rfl⟩

/-! ### A whole call -/

/-- The question whether there is a connection, where there is a queue. -/
def found (offline : Bool) : List (Happening interface) :=
  if offline then [⟨.isOnline, true⟩] else []

/-- All that can happen in a call, with a queue or without one. -/
inductive Course (x : Executor) (r : Request) (expected : Option ResponseType) (offline : Bool) :
    List (Happening interface) → Except Fault Response → Prop
  | streaming (streams : r.isStreaming = true) :
      Course x r expected offline [] (.error (.unsupported
        "streaming operations go through the subscription manager"))
  | cancelled (plain : r.isStreaming = false) :
      Course x r expected offline [⟨.cancelled, true⟩] (.error .cancelled)
  | unconnected (plain : r.isStreaming = false) (on : offline = true)
      {history : List (Happening interface)} {result : Except Fault Response}
      (falls : FallsBack r none history result) :
      Course x r expected offline (⟨.cancelled, false⟩ :: ⟨.isOnline, false⟩ :: history) result
  | connected (plain : r.isStreaming = false) {went rest : List (Happening interface)}
      {reached result : Except Fault Response} (goes : (x.send r expected).Ends went reached)
      (settles : Settles x r offline reached rest result) :
      Course x r expected offline (⟨.cancelled, false⟩ :: (found offline ++ (went ++ rest))) result

theorem course_of_ends (h : (x.run r expected offline).Ends history result) :
    Course x r expected offline history result := by
  simp only [run, ask, Process.call, Process.bind_def, Process.ask_bind, Process.done_bind,
    Process.pure_def] at h
  cases streams : r.isStreaming with
  | true =>
    rw [if_pos streams] at h
    obtain ⟨rfl, rfl⟩ := Process.ends_done_iff.mp h
    exact .streaming streams
  | false =>
    rw [if_neg (by simp [streams])] at h
    obtain ⟨stop, rest, rfl, begun⟩ := Process.ends_ask_iff.mp h
    cases stop with
    | true =>
      obtain ⟨rfl, rfl⟩ := Process.ends_done_iff.mp begun
      exact .cancelled streams
    | false =>
      rw [if_neg (by simp)] at begun
      cases offline with
      | false =>
        obtain ⟨went, reached, rest, rfl, hwent, hrest⟩ := Process.ends_bind_iff.mp begun
        exact .connected streams hwent (settles_of_ends hrest)
      | true =>
        obtain ⟨online, rest, rfl, answered⟩ := Process.ends_ask_iff.mp begun
        cases online with
        | false => exact .unconnected streams rfl (fallsBack_of_ends answered)
        | true =>
          obtain ⟨went, reached, rest, rfl, hwent, hrest⟩ := Process.ends_bind_iff.mp answered
          have course := Course.connected streams hwent (settles_of_ends hrest)
          exact course

/-! ### The last word of a call -/

variable {reached : Except Fault Response} {reply : Reply}

/-- The server's success can still be a failure, but of one kind only. -/
theorem fault_of_success {graphql : Bool} (success : isSuccessStatus reply.status = true) {f : Fault}
    (h : reply.toResponse graphql expected = .error f) : ∃ m, f = .graphql m := by
  rw [Reply.toResponse, if_neg (by simp [success])] at h
  cases graphql with
  | false => cases h
  | true =>
    cases body : reply.decode expected with
    | json envelope =>
      simp only [body, ↓reduceIte, GraphqlCall.openBody, GraphqlCall.openEnvelope] at h
      split at h
      · cases h
      · split at h
        · cases h
        · exact ⟨_, (Except.error.inj h).symm⟩
    | _ =>
      simp only [body, ↓reduceIte, GraphqlCall.openBody] at h
      cases h

/-- What the server replied, in order. -/
def replies (history : List (Happening interface)) : List Reply :=
  history.filterMap fun
    | ⟨.send .., some (.replied reply)⟩ => some reply
    | _ => none

@[simp] theorem replies_append (first rest : List (Happening interface)) :
    replies (first ++ rest) = replies first ++ replies rest := List.filterMap_append

theorem mem_replies_attempted {s : Sent} :
    reply ∈ replies (x.attempted r s) ↔ s = .replied reply := by
  cases s with
  | replied other => simp [replies, attempted, eq_comm]
  | failed | elapsed => simp [replies, attempted]

theorem Drawn.replies_eq (h : Drawn history) : replies history = [] := by
  refine List.filterMap_eq_nil_iff.mpr fun e he => ?_
  obtain ⟨q, a⟩ := e
  obtain rfl : q = .draw := h _ he
  rfl

theorem FallsBack.replies_eq {cause : Option Fault} (h : FallsBack r cause history result) :
    replies history = [] := by
  cases h <;> rfl

theorem Settles.replies_eq (h : Settles x r offline reached history result) :
    replies history = [] := by
  cases h with
  | kept | plain => rfl
  | fellBack _ _ falls => exact falls.replies_eq

/-- An answer of the server is not changed any more. -/
theorem Settles.same (h : Settles x r offline reached history result)
    (answered : ¬ Unanswered reached) : result = reached := by
  cases h with
  | kept | plain => rfl
  | fellBack _ lost => exact absurd ⟨_, lost⟩ answered

theorem Renews.returns (h : Renews x r expected history result)
    (replied : reply ∈ replies history) :
    result = reply.toResponse r.graphql.isSome expected := by
  cases h with
  | again token s =>
    cases s with
    | replied other =>
      obtain rfl : reply = other := List.mem_singleton.mp replied
      rfl
    | failed | elapsed => cases replied
  | _ => cases replied

section Success

variable (success : isSuccessStatus reply.status = true)

include success

/-- No other attempt follows a reply of success. -/
theorem final_of_success {s : Sent} {f : Fault} (failed : x.outcome r expected s = .error f)
    (retryable : f.isRetryable = true) : reply ∉ replies (x.attempted r s) := by
  intro replied
  obtain rfl := mem_replies_attempted.mp replied
  -- What the server reports in an envelope is not tried again.
  obtain ⟨m, rfl⟩ := fault_of_success success failed
  cases retryable

theorem Tries.returns {left : Nat} (h : Tries x r expected left history result)
    (replied : reply ∈ replies history) :
    result = reply.toResponse r.graphql.isSome expected := by
  induction h with
  | stopped | cut => cases replied
  | settled s =>
    obtain rfl := mem_replies_attempted.mp replied
    rfl
  | exhausted failed retryable =>
    rw [replies_append] at replied
    rcases List.mem_append.mp replied with here | after
    · exact absurd here (final_of_success success failed retryable)
    · cases after
  | woken failed retryable draws =>
    rw [replies_append, replies_append, draws.replies_eq] at replied
    rcases List.mem_append.mp replied with here | after
    · exact absurd here (final_of_success success failed retryable)
    · cases after
  | @again _ _ _ failed retryable _ draws d later _ rest ih =>
    have skips : replies (⟨.pause d, true⟩ :: later) = replies later := rfl
    rw [replies_append, replies_append, draws.replies_eq, skips] at replied
    rcases List.mem_append.mp replied with here | after
    · exact absurd here (final_of_success success failed retryable)
    · exact ih after

/-- A refusal is not what a reply of success comes to. -/
theorem Tries.unreplied {left : Nat} {m : String} {body : Option Json}
    (h : Tries x r expected left history (.error (.network 401 m body))) :
    reply ∉ replies history := by
  intro replied
  obtain ⟨_, same⟩ := fault_of_success success (h.returns success replied).symm
  cases same

theorem Attempts.returns (h : Attempts x r expected history result)
    (replied : reply ∈ replies history) :
    result = reply.toResponse r.graphql.isSome expected := by
  cases h with
  | tried tries => exact tries.returns success replied
  | denied tries =>
    rw [replies_append] at replied
    rcases List.mem_append.mp replied with early | late
    · exact absurd early (tries.unreplied success)
    · cases late
  | @renewed _ rest _ _ _ tries renews =>
    have skips : replies (⟨.canRefresh, true⟩ :: rest) = replies rest := rfl
    rw [replies_append, skips] at replied
    rcases List.mem_append.mp replied with early | late
    · exact absurd early (tries.unreplied success)
    · exact renews.returns late

/-- What a reply of success says is what the call returns, also with a queue. -/
theorem returns_of_replied (h : (x.run r expected offline).Ends history result)
    (replied : reply ∈ replies history) :
    result = reply.toResponse r.graphql.isSome expected := by
  cases course_of_ends h with
  | streaming | cancelled => cases replied
  | @unconnected _ _ after _ falls =>
    have late : reply ∈ replies after := replied
    rw [falls.replies_eq] at late
    cases late
  | @connected _ went rest reached _ goes settles =>
    have begun : replies (⟨.cancelled, false⟩ :: (found offline ++ (went ++ rest))) =
        replies went := by
      have skips : replies (⟨.cancelled, false⟩ :: (found offline ++ (went ++ rest))) =
          replies (found offline) ++ (replies went ++ replies rest) := by
        rw [← replies_append, ← replies_append]
        rfl
      rw [skips, settles.replies_eq, List.append_nil]
      cases offline <;> rfl
    rw [begun] at replied
    have reaches := (attempts_of_ends goes).returns success replied
    rw [← reaches]
    refine settles.same ?_
    rintro ⟨m, lost⟩
    obtain ⟨_, same⟩ := fault_of_success success (reaches.symm.trans lost)
    cases same

end Success

end ScreenFlow.Executor
