import ScreenFlow.Proofs.Execute.Calls
import ScreenFlow.Proofs.Http.Headers

/-!
# What a call does outside

A call sends requests, refreshes the session and sends the user to log in.

* `Tries.sent_eq`, `Tries.quiet`: attempts under a policy send the request itself, and not too
  often;
* `Bounded`, `Refreshing`: how often each of these happens, after what, and what follows from it;
* `effects_bounded`: they hold of every call;
* `not_sendsRenewed_returnsRenewed`: a cancelled call does not use its refresh, and the attempt
  after one need not decide what the call returns.
-/

namespace ScreenFlow.Executor

variable {x : Executor} {r : Request} {expected : Option ResponseType} {offline : Bool}
  {history : List (Happening interface)} {result : Except Fault Response}

/-- The requests that were sent, in order. -/
def sent (history : List (Happening interface)) : List Request :=
  history.filterMap fun
    | ⟨.send r _, _⟩ => some r
    | _ => none

/-- What came of each refresh of the session; nothing where the call was cancelled meanwhile. -/
def refreshes (history : List (Happening interface)) : List (Option (Except Fault String)) :=
  history.filterMap fun
    | ⟨.refresh, a⟩ => some a
    | _ => none

/-- Where the user was sent to log in. -/
def logins (history : List (Happening interface)) : List String :=
  history.filterMap fun
    | ⟨.toLogin path, _⟩ => some path
    | _ => none

/-- Neither the server nor the session nor the user hears of it. -/
structure Silent (history : List (Happening interface)) : Prop where
  sent : sent history = []
  refreshes : refreshes history = []
  logins : logins history = []

@[simp] theorem sent_append (first rest : List (Happening interface)) :
    sent (first ++ rest) = sent first ++ sent rest := List.filterMap_append

@[simp] theorem refreshes_append (first rest : List (Happening interface)) :
    refreshes (first ++ rest) = refreshes first ++ refreshes rest := List.filterMap_append

@[simp] theorem logins_append (first rest : List (Happening interface)) :
    logins (first ++ rest) = logins first ++ logins rest := List.filterMap_append

theorem Drawn.unsent (h : Drawn history) : sent history = [] := by
  refine List.filterMap_eq_nil_iff.mpr fun e he => ?_
  obtain ⟨q, a⟩ := e
  obtain rfl : q = .draw := h _ he
  rfl

/-! ### Attempts -/

theorem sent_attempted (s : Sent) : sent (x.attempted r s) = [r] := rfl

/-- Each attempt sends the request itself, and there are no more of them than allowed. -/
theorem Tries.sent_eq {left : Nat} (h : Tries x r expected left history result) :
    ∃ k, k ≤ left ∧ sent history = List.replicate k r := by
  induction h with
  | stopped => exact ⟨0, by omega, rfl⟩
  | cut => exact ⟨1, by omega, rfl⟩
  | settled => exact ⟨1, by omega, rfl⟩
  | exhausted => exact ⟨1, by omega, rfl⟩
  | woken _ _ draws d =>
    refine ⟨1, by omega, ?_⟩
    rw [sent_append, sent_append, draws.unsent]
    rfl
  | again _ _ draws d _ ih =>
    obtain ⟨k, hk, same⟩ := ih
    refine ⟨k + 1, by omega, ?_⟩
    have rest : sent (⟨.pause d, true⟩ :: _) = List.replicate k r := same
    rw [sent_append, sent_append, draws.unsent, rest, sent_attempted, List.replicate_succ]
    rfl

/-- While a request is attempted, the session is not refreshed and nobody is sent to log in. -/
theorem Tries.quiet {left : Nat} (h : Tries x r expected left history result) :
    refreshes history = [] ∧ logins history = [] := by
  constructor
  all_goals
    refine List.filterMap_eq_nil_iff.mpr fun e he => ?_
    have kind := h.inAttempt e he
    obtain ⟨q, a⟩ := e
    cases q with
    | cancelled | send | draw | pause | notify => rfl
    | _ => cases kind

/-- A refusal is never tried again, so it is the last thing that happens. -/
theorem Tries.refused {left : Nat} {m : String} {body : Option Json}
    (h : Tries x r expected left history (.error (.network 401 m body))) :
    ∃ earlier s, history = earlier ++ [⟨.send r (x.budget r), some s⟩] ∧ Refused s := by
  generalize hresult : (Except.error (.network 401 m body) : Except Fault Response) = result at h
  induction h with
  | stopped | cut | woken => cases hresult
  | settled s =>
    exact ⟨[⟨.cancelled, false⟩], s, rfl, refused_iff.mpr ⟨m, body, hresult.symm⟩⟩
  | exhausted failed retryable =>
    cases hresult
    cases retryable
  | @again _ before _ _ _ drawn _ d _ _ _ ih =>
    obtain ⟨earlier, s, rfl, refused⟩ := ih hresult
    exact ⟨x.attempted r before ++ (drawn ++ ⟨.pause d, true⟩ :: earlier), s, by simp, refused⟩

/-! ### After the attempts -/

theorem FallsBack.silent {cause : Option Fault} (h : FallsBack r cause history result) :
    Silent history := by
  cases h <;> exact ⟨rfl, rfl, rfl⟩

theorem Settles.silent {reached : Except Fault Response}
    (h : Settles x r offline reached history result) : Silent history := by
  cases h with
  | kept | plain => exact ⟨rfl, rfl, rfl⟩
  | fellBack _ _ falls => exact falls.silent

/-- A call returns what its attempts came to, unless the queue takes part and no answer was got. -/
structure Returned (x : Executor) (r : Request) (offline : Bool) (reached : Except Fault Response)
    (rest : List (Happening interface)) (result : Except Fault Response) : Prop where
  same : ¬ (offline = true ∧ Unanswered reached) → result = reached
  fellBack : ∀ m, offline = true → reached = .error (.transport m) →
    FallsBack r (some (.transport m)) rest result

theorem Settles.returned {reached : Except Fault Response}
    (h : Settles x r offline reached history result) :
    Returned x r offline reached history result := by
  cases h with
  | kept on kept good =>
    refine ⟨fun _ => rfl, fun m _ lost => ?_⟩
    rw [good] at lost
    cases lost
  | fellBack on lost falls =>
    refine ⟨fun answered => absurd ⟨on, _, lost⟩ answered, fun m _ same => ?_⟩
    obtain rfl : _ = m := Fault.transport.inj (Except.error.inj (lost.symm.trans same))
    exact falls
  | plain other => exact ⟨fun _ => rfl, fun m on lost => absurd ⟨m, lost⟩ (other on).2⟩

/-! ### A whole call -/

/-- The request with the token as its one authorization, and otherwise unchanged. -/
structure Reissued (r : Request) (token : String) (q : Request) : Prop where
  same : q = { r with headers := q.headers }
  credential : q.headers.filter (Text.sameName ·.1 authorizationHeader) =
    [(authorizationHeader, bearerValue token)]
  others : q.headers.filter (!Text.sameName ·.1 authorizationHeader) =
    r.headers.filter (!Text.sameName ·.1 authorizationHeader)

theorem reissued (r : Request) (token : String) : Reissued r token (reauthorized r token) :=
  ⟨rfl, Headers.filter_set _ _ _, Headers.filter_set_other _ _ _⟩

/-- An attempt was refused at the end, and the session could be refreshed. -/
def Due (x : Executor) (r : Request) (before : List (Happening interface)) : Prop :=
  ∃ earlier s, before = earlier ++
    [⟨.send r (x.budget r), some s⟩, ⟨.canRefresh, true⟩, ⟨.cancelled, false⟩] ∧ Refused s

/-- What follows from what came of a refresh. -/
def Follows (x : Executor) (r : Request) (expected : Option ResponseType) (offline : Bool)
    (after : List (Happening interface)) (result : Except Fault Response) :
    Option (Except Fault String) → Prop
  | none => after = [] ∧ result = .error .cancelled
  | some (.error f) =>
    sent after = [] ∧ logins after = [x.settings.loginPath] ∧ result = .error (refreshFault f)
  | some (.ok token) => logins after = [] ∧
    (after = [⟨.cancelled, true⟩] ∧ result = .error .cancelled ∨
      ∃ q a rest, Reissued r token q ∧
        after = ⟨.cancelled, false⟩ :: ⟨.send q (x.budget r), a⟩ :: rest ∧ sent rest = [] ∧
        match a with
        | none => result = .error .cancelled
        | some s => Returned x r offline (x.outcome r expected s) rest result)

/-- The refreshes of a call, with what they came after and what followed. -/
def Refreshing (x : Executor) (r : Request) (expected : Option ResponseType) (offline : Bool)
    (history : List (Happening interface)) (result : Except Fault Response) : Prop :=
  ∀ a ∈ refreshes history, ∃ before after, history = before ++ ⟨.refresh, a⟩ :: after ∧
    Due x r before ∧ (∀ q ∈ sent before, q = r) ∧ logins before = [] ∧
    Follows x r expected offline after result a

/-- A fault that came of some answer is what the call returns. -/
theorem Settles.of_fault {f : Fault} (answered : ∀ m, f ≠ .transport m)
    (h : Settles x r offline (.error f) history result) : history = [] ∧ result = .error f := by
  cases h with
  | kept _ _ good => cases good
  | fellBack _ lost => exact absurd (Except.error.inj lost) (answered _)
  | plain => exact ⟨rfl, rfl⟩

theorem Settles.of_cancelled (h : Settles x r offline (.error .cancelled) history result) :
    history = [] ∧ result = .error .cancelled :=
  h.of_fault fun _ same => by cases same

theorem refreshFault_ne_transport (f : Fault) (m : String) : refreshFault f ≠ .transport m := by
  cases f <;> simp [refreshFault]

section Whole

variable {first next rest went : List (Happening interface)} {reached : Except Fault Response}
  {m : String} {body : Option Json}

theorem Renews.refreshing
    (tries : Tries x r expected (x.policy r).maxAttempts first (.error (.network 401 m body)))
    (renews : Renews x r expected next reached)
    (settles : Settles x r offline reached rest result) :
    Refreshing x r expected offline (first ++ ⟨.canRefresh, true⟩ :: (next ++ rest)) result := by
  obtain ⟨unrefreshed, unled⟩ := tries.quiet
  obtain ⟨k, -, sent_first⟩ := tries.sent_eq
  obtain ⟨earlier, s, hfirst, refused⟩ := tries.refused
  -- Whatever came of the refresh, the same came before it.
  have due : Due x r (first ++ [⟨.canRefresh, true⟩, ⟨.cancelled, false⟩]) :=
    ⟨earlier, s, by simp [hfirst], refused⟩
  have original : ∀ q ∈ sent (first ++ [⟨.canRefresh, true⟩, ⟨.cancelled, false⟩]), q = r := by
    intro q hq
    rw [sent_append, sent_first, show sent [⟨.canRefresh, true⟩, ⟨.cancelled, false⟩] = [] from rfl,
      List.append_nil] at hq
    exact List.eq_of_mem_replicate hq
  have stays : logins (first ++ [⟨.canRefresh, true⟩, ⟨.cancelled, false⟩]) = [] := by
    rw [logins_append, unled]
    rfl
  have silent := settles.silent
  intro a ha
  have found : a ∈ refreshes next := by
    have whole : refreshes (first ++ ⟨.canRefresh, true⟩ :: (next ++ rest)) =
        refreshes first ++ (refreshes next ++ refreshes rest) := by
      rw [refreshes_append, ← refreshes_append next rest]
      rfl
    rw [whole, unrefreshed, silent.refreshes] at ha
    simpa using ha
  suffices h : ∃ after, next ++ rest = ⟨.cancelled, false⟩ :: ⟨.refresh, a⟩ :: after ∧
      Follows x r expected offline after result a by
    obtain ⟨after, same, follows⟩ := h
    refine ⟨_, after, ?_, due, original, stays, follows⟩
    rw [same, List.append_assoc]
    rfl
  cases renews with
  | stopped => cases found
  | cut =>
    obtain rfl : a = none := List.mem_singleton.mp found
    obtain ⟨rfl, rfl⟩ := settles.of_cancelled
    exact ⟨[], rfl, rfl, rfl⟩
  | failed f =>
    obtain rfl : a = some (.error f) := List.mem_singleton.mp found
    obtain ⟨rfl, rfl⟩ := settles.of_fault (refreshFault_ne_transport f)
    exact ⟨_, rfl, rfl, rfl, rfl⟩
  | stoppedAgain token =>
    obtain rfl : a = some (.ok token) := List.mem_singleton.mp found
    obtain ⟨rfl, rfl⟩ := settles.of_cancelled
    exact ⟨_, rfl, rfl, .inl ⟨rfl, rfl⟩⟩
  | cutAgain token =>
    obtain rfl : a = some (.ok token) := List.mem_singleton.mp found
    obtain ⟨rfl, rfl⟩ := settles.of_cancelled
    exact ⟨_, rfl, rfl, .inr ⟨_, none, [], reissued r token, rfl, rfl, rfl⟩⟩
  | again token s =>
    obtain rfl : a = some (.ok token) := List.mem_singleton.mp found
    exact ⟨_, rfl, silent.logins, .inr ⟨_, some s, rest, reissued r token, rfl, silent.sent,
      settles.returned⟩⟩

/-- Where nothing was refreshed, there is nothing to tell of a refresh. -/
theorem refreshing_of_unrefreshed (unrefreshed : refreshes history = []) :
    Refreshing x r expected offline history result := by
  intro a ha
  rw [unrefreshed] at ha
  cases ha

theorem Attempts.refreshing (attempts : Attempts x r expected went reached)
    (settles : Settles x r offline reached rest result) :
    Refreshing x r expected offline (went ++ rest) result := by
  cases attempts with
  | tried tries =>
    apply refreshing_of_unrefreshed
    rw [refreshes_append, tries.quiet.1, settles.silent.refreshes]
    rfl
  | denied tries =>
    apply refreshing_of_unrefreshed
    rw [refreshes_append, refreshes_append, tries.quiet.1, settles.silent.refreshes]
    rfl
  | renewed tries renews =>
    rw [List.append_assoc]
    exact renews.refreshing tries settles

/-- What a call does outside in all. -/
structure Bounded (x : Executor) (r : Request) (history : List (Happening interface)) : Prop where
  few : (sent history).length ≤ (x.policy r).maxAttempts + 1
  once : (refreshes history).length ≤ 1
  original : refreshes history = [] → (∀ q ∈ sent history, q = r) ∧ logins history = []

theorem Silent.bounded (silent : Silent history) : Bounded x r history := by
  obtain ⟨unsent, unrefreshed, stays⟩ := silent
  constructor
  · rw [unsent]
    exact Nat.zero_le _
  · rw [unrefreshed]
    exact Nat.zero_le _
  · intro _
    rw [unsent]
    exact ⟨fun q hq => (List.not_mem_nil hq).elim, stays⟩

/-- What is silent around it does not count. -/
theorem Bounded.between (start : Silent first) (bounded : Bounded x r went) (silent : Silent rest) :
    Bounded x r (first ++ (went ++ rest)) := by
  have sends : sent (first ++ (went ++ rest)) = sent went := by
    rw [sent_append, sent_append, start.sent, silent.sent, List.append_nil, List.nil_append]
  have renewals : refreshes (first ++ (went ++ rest)) = refreshes went := by
    rw [refreshes_append, refreshes_append, start.refreshes, silent.refreshes, List.append_nil,
      List.nil_append]
  have leaves : logins (first ++ (went ++ rest)) = logins went := by
    rw [logins_append, logins_append, start.logins, silent.logins, List.append_nil, List.nil_append]
  obtain ⟨few, once, original⟩ := bounded
  constructor
  · rwa [sends]
  · rwa [renewals]
  · rwa [sends, renewals, leaves]

theorem Tries.bounded {left : Nat} (tries : Tries x r expected left first reached)
    (fits : left ≤ (x.policy r).maxAttempts) : Bounded x r first := by
  obtain ⟨k, hk, same⟩ := tries.sent_eq
  obtain ⟨unrefreshed, stays⟩ := tries.quiet
  constructor
  · rw [same, List.length_replicate]
    omega
  · rw [unrefreshed]
    exact Nat.zero_le 1
  · intro _
    refine ⟨fun q hq => ?_, stays⟩
    rw [same] at hq
    exact List.eq_of_mem_replicate hq

/-- One refresh at most, one request after it at most, and nothing else without it. -/
theorem Renews.bounds (h : Renews x r expected next reached) :
    (sent next).length ≤ 1 ∧ (refreshes next).length ≤ 1 ∧
      (refreshes next = [] → sent next = [] ∧ logins next = []) := by
  cases h <;> simp [sent, refreshes, logins]

theorem Attempts.bounded (h : Attempts x r expected went reached) : Bounded x r went := by
  cases h with
  | tried tries => exact tries.bounded (Nat.le_refl _)
  | @denied first _ _ tries =>
    have start : Silent [] := ⟨rfl, rfl, rfl⟩
    have silent : Silent [⟨.canRefresh, false⟩] := ⟨rfl, rfl, rfl⟩
    exact Bounded.between start (tries.bounded (Nat.le_refl _)) silent
  | @renewed first next _ _ _ tries renews =>
    obtain ⟨k, hk, same⟩ := tries.sent_eq
    obtain ⟨unrefreshed, stays⟩ := tries.quiet
    obtain ⟨few, once, alone⟩ := renews.bounds
    have sends : sent (first ++ ⟨.canRefresh, true⟩ :: next) = List.replicate k r ++ sent next := by
      rw [sent_append, same]
      rfl
    have renewals : refreshes (first ++ ⟨.canRefresh, true⟩ :: next) = refreshes next := by
      rw [refreshes_append, unrefreshed]
      rfl
    have leaves : logins (first ++ ⟨.canRefresh, true⟩ :: next) = logins next := by
      rw [logins_append, stays]
      rfl
    constructor
    · rw [sends, List.length_append, List.length_replicate]
      omega
    · rwa [renewals]
    · intro none
      rw [renewals] at none
      obtain ⟨unsent, stays⟩ := alone none
      rw [sends, leaves, unsent, List.append_nil]
      exact ⟨fun q hq => List.eq_of_mem_replicate hq, stays⟩

end Whole

/-- What is silent before it does not count. -/
theorem Refreshing.after_silent {first : List (Happening interface)} (silent : Silent first)
    (h : Refreshing x r expected offline history result) :
    Refreshing x r expected offline (first ++ history) result := by
  intro a ha
  rw [refreshes_append, silent.refreshes, List.nil_append] at ha
  obtain ⟨before, after, rfl, ⟨earlier, s, rfl, refused⟩, original, stays, follows⟩ := h a ha
  refine ⟨first ++ (earlier ++ _), after, (List.append_assoc ..).symm,
    ⟨first ++ earlier, s, (List.append_assoc ..).symm, refused⟩, ?_, ?_, follows⟩
  · rw [sent_append, silent.sent]
    exact original
  · rw [logins_append, silent.logins]
    exact stays

/-- What a call finds out before its first attempt. -/
theorem silent_begun (offline : Bool) : Silent (⟨.cancelled, false⟩ :: found offline) := by
  cases offline <;> exact ⟨rfl, rfl, rfl⟩

theorem bounded_of_ends (h : (x.run r expected offline).Ends history result) :
    Bounded x r history ∧ Refreshing x r expected offline history result := by
  have quiet (silent : Silent history) :
      Bounded x r history ∧ Refreshing x r expected offline history result :=
    ⟨silent.bounded, refreshing_of_unrefreshed silent.refreshes⟩
  cases course_of_ends h with
  | streaming | cancelled => exact quiet ⟨rfl, rfl, rfl⟩
  | unconnected _ _ falls =>
    have silent := falls.silent
    exact quiet ⟨silent.sent, silent.refreshes, silent.logins⟩
  | connected _ goes settles =>
    have attempts := attempts_of_ends goes
    constructor
    · exact attempts.bounded.between (silent_begun offline) settles.silent
    · exact (attempts.refreshing settles).after_silent (silent_begun offline)

/-- Only headers of what is sent may differ from the request. -/
theorem same_of_sent (h : (x.run r expected offline).Ends history result) {q : Request}
    (hq : q ∈ sent history) : q = { r with headers := q.headers } := by
  obtain ⟨bounded, refreshing⟩ := bounded_of_ends h
  cases renewals : refreshes history with
  | nil =>
    obtain rfl := (bounded.original renewals).1 q hq
    rfl
  | cons a _ =>
    have ha : a ∈ refreshes history := renewals ▸ List.mem_cons_self
    obtain ⟨before, after, rfl, -, original, -, follows⟩ := refreshing a ha
    rw [sent_append] at hq
    rcases List.mem_append.mp hq with early | tail
    · obtain rfl := original q early
      rfl
    have late : q ∈ sent after := tail
    rcases a with _ | f | token
    · obtain ⟨rfl, -⟩ := follows
      cases late
    · rw [follows.1] at late
      cases late
    · rcases follows.2 with ⟨rfl, -⟩ | ⟨q', a, rest, reissued, rfl, unsent, -⟩
      · cases late
      · have one : sent (⟨.cancelled, false⟩ :: ⟨.send q' (x.budget r), a⟩ :: rest) = [q'] :=
          congrArg (q' :: ·) unsent
        rw [one] at late
        obtain rfl := List.mem_singleton.mp late
        exact reissued.same

/-- A call sends at most one request more than its policy allows attempts, refreshes the session at
most once and only after a refusal, repeats the request once after that with the new token, and
sends the user to log in only if the refresh failed. -/
theorem effects_bounded (x : Executor) (r : Request) (expected : Option ResponseType) :
    (∀ history result, (x.execute r expected).Ends history result →
      Bounded x r history ∧ Refreshing x r expected x.queueing history result) ∧
    (∀ history result, (x.executeOnline r expected).Ends history result →
      Bounded x r history ∧ Refreshing x r expected false history result) :=
  ⟨fun _ _ h => bounded_of_ends h, fun _ _ h => bounded_of_ends h⟩

/-- A mutation under a session token. -/
def posting : Request where
  dataSourceId := "todos"
  method := .post
  url := "https://a/todos"
  headers := [(authorizationHeader, bearerValue "old")]

/-- What happens up to the attempt that a refresh makes possible. -/
def renewing (s : Sent) : List (Happening interface) :=
  [⟨.cancelled, false⟩, ⟨.isOnline, true⟩, ⟨.cancelled, false⟩,
    ⟨.send posting 30000, some (.replied { status := 401 })⟩, ⟨.canRefresh, true⟩,
    ⟨.cancelled, false⟩, ⟨.refresh, some (.ok "new")⟩, ⟨.cancelled, false⟩,
    ⟨.send (reauthorized posting "new") 30000, some s⟩]

theorem effects_bounded_refused_twice :
    (({ queueing := true } : Executor).execute posting none).Ends
        (renewing (.replied { status := 401 }))
        (.error (.network 401 "HTTP 401" none)) ∧
      Refreshing { queueing := true } posting none true (renewing (.replied { status := 401 }))
        (.error (.network 401 "HTTP 401" none)) := by
  have h : (({ queueing := true } : Executor).execute posting none).Ends
      (renewing (.replied { status := 401 })) (.error (.network 401 "HTTP 401" none)) := by
    iterate 9 apply Process.Ends.asked
    exact .done _
  exact ⟨h, ((effects_bounded _ _ _).1 _ _ h).2⟩

/-- A refresh that succeeds is followed by one more request. -/
def SendsRenewed : Prop :=
  ∀ (x : Executor) (r : Request) (expected : Option ResponseType) (token : String)
    (before after : List (Happening interface)) (result : Except Fault Response),
    (x.execute r expected).Ends (before ++ ⟨.refresh, some (.ok token)⟩ :: after) result →
      (sent after).length = 1

/-- What the attempt after a refresh comes to is what the call returns. -/
def ReturnsRenewed : Prop :=
  ∀ (x : Executor) (r q : Request) (expected : Option ResponseType) (token : String) (d : Duration)
    (s : Sent) (before after : List (Happening interface)) (result : Except Fault Response),
    (x.execute r expected).Ends (before ++ ⟨.refresh, some (.ok token)⟩ :: ⟨.cancelled, false⟩ ::
      ⟨.send q d, some s⟩ :: after) result → result = x.outcome r expected s

/-- A call that is cancelled right after its refresh sends nothing more, and where the attempt after
it gets no answer, the request is queued. -/
theorem not_sendsRenewed_returnsRenewed : ¬ SendsRenewed ∧ ¬ ReturnsRenewed := by
  constructor
  · intro sends
    have cancelled : (({ queueing := true } : Executor).execute posting none).Ends
        ((renewing .elapsed).take 7 ++ [⟨.cancelled, true⟩]) (.error .cancelled) := by
      iterate 8 apply Process.Ends.asked
      exact .done _
    have once := sends _ _ _ "new" ((renewing .elapsed).take 6) [⟨.cancelled, true⟩] _ cancelled
    cases once
  · intro returns
    have queued : (({ queueing := true } : Executor).execute posting none).Ends
        (renewing (.failed (.transport "connection reset")) ++
          [⟨.token, some "new"⟩, ⟨.newEventId, "e"⟩,
            ⟨.enqueue (OfflineEvent.ofRequest "e" posting (some "new")), .ok "e"⟩])
        (.ok (.accepted "e")) := by
      iterate 12 apply Process.Ends.asked
      exact .done _
    have lost := returns _ _ _ _ "new" 30000 (.failed (.transport "connection reset"))
      ((renewing .elapsed).take 6) _ _ queued
    cases lost

end ScreenFlow.Executor
