import ScreenFlow.Proofs.Execute.Routing
import ScreenFlow.Proofs.Offline.Replaying

/-!
# The session token of queued requests

A request that is queued is stored without the session token it was made with, if that is still the
session token. The token is compared when the request is queued, which may be after a refresh.

* `sheltered_ofRequest_iff`: an event is free of the token that the request carries exactly if it
  is the live one;
* `event_sheltered_iff`: the events that a call queues, after whatever happened before;
* `not_sheltersToken`: after a refresh the token of before is stored.
-/

namespace ScreenFlow.Executor

open OfflineQueue (State)

variable {x : Executor} {r : Request} {expected : Option ResponseType} {offline : Bool}
  {history : List (Happening interface)} {result reached : Except Fault Response}
  {o : OfflineSettings} {mayFail others : Prop} {s s' : Outside} {t : String}

/-! ### Events -/

/-- The token is the only authorization that the request has, under whatever spelling. -/
structure Carries (r : Request) (t : String) : Prop where
  some : ∃ h ∈ r.headers, Text.sameName h.1 authorizationHeader = true
  only : ∀ h ∈ r.headers, Text.sameName h.1 authorizationHeader = true → h.2 = bearerValue t

/-- The event has no authorization, under whatever spelling, but wants the session token. -/
structure Sheltered (e : OfflineEvent) : Prop where
  bare : ∀ h ∈ e.headers.getD [], Text.sameName h.1 authorizationHeader = false
  wants : e.sessionAuth = true

theorem headers_ofRequest (id : String) (r : Request) (live : Option String) :
    (OfflineEvent.ofRequest id r live).headers.getD [] =
      r.headers.filter (!OfflineEvent.isSessionHeader live ·) := by
  have kept (hs : Headers) : (if hs.isEmpty then none else some hs).getD [] = hs := by
    cases hs <;> rfl
  cases hg : r.graphql <;> simp only [OfflineEvent.ofRequest, hg, kept]

theorem sessionAuth_ofRequest (id : String) (r : Request) (live : Option String) :
    (OfflineEvent.ofRequest id r live).sessionAuth =
      r.headers.any (OfflineEvent.isSessionHeader live) := by
  cases hg : r.graphql <;> simp only [OfflineEvent.ofRequest, hg]

theorem bearerValue_inj {t u : String} : bearerValue t = bearerValue u ↔ t = u := by
  constructor
  · intro h
    have lists := congrArg String.toList h
    simp only [bearerValue, String.toList_append, List.append_cancel_left_eq] at lists
    exact String.toList_inj.mp lists
  · rintro rfl
    rfl

theorem sheltered_ofRequest_iff (carries : Carries r t) (id : String) (live : Option String) :
    Sheltered (OfflineEvent.ofRequest id r live) ↔ live = some t := by
  constructor
  · rintro ⟨-, wants⟩
    rw [sessionAuth_ofRequest] at wants
    obtain ⟨h, hmem, session⟩ := List.any_eq_true.mp wants
    cases live with
    | none => simp [OfflineEvent.isSessionHeader] at session
    | some u =>
      obtain ⟨name, value⟩ := OfflineEvent.isSessionHeader_iff.mp session
      rw [carries.only h hmem name, bearerValue_inj] at value
      rw [value]
  · rintro rfl
    constructor
    · intro h hmem
      rw [headers_ofRequest] at hmem
      obtain ⟨hmem, other⟩ := List.mem_filter.mp hmem
      cases name : Text.sameName h.1 authorizationHeader with
      | false => rfl
      | true =>
        have session := OfflineEvent.isSessionHeader_iff.mpr ⟨name, carries.only h hmem name⟩
        simp [session] at other
    · rw [sessionAuth_ofRequest, List.any_eq_true]
      obtain ⟨h, hmem, name⟩ := carries.some
      exact ⟨h, hmem, OfflineEvent.isSessionHeader_iff.mpr ⟨name, carries.only h hmem name⟩⟩

/-- What was stored without a token is sent with the one of that time. -/
theorem attaches_of_sheltered {id : String} {live : Option String} {u : String} (nonempty : u ≠ "")
    (sheltered : Sheltered (OfflineEvent.ofRequest id r live)) :
    ∃ q, (OfflineEvent.ofRequest id r live).toRequest = .ok q ∧
      q.attachSession (some u) = (true, q.setHeader authorizationHeader (bearerValue u)) := by
  refine ⟨_, OfflineEvent.toRequest_ofRequest id r live, ?_⟩
  have bare : (OfflineEvent.replayed r live).hasHeader authorizationHeader = false := by
    refine Headers.has_eq_false_iff.mpr fun h hmem => ?_
    have other := sheltered.bare h
    rw [headers_ofRequest] at other
    simpa using other hmem
  have given : Credential.nonempty (some u) = some u := by
    simp [Credential.nonempty, nonempty]
  rw [Request.attachSession, bare, given]
  rfl

/-! ### The live token -/

/-- Without others, the session token stays the same unless it is refreshed. -/
theorem live_of_unrefreshed (allows : (outside o mayFail others).Allows s history s')
    (unrefreshed : refreshes history = []) : others ∨ s'.live = s.live := by
  induction allows with
  | nil => exact .inr rfl
  | @cons s s₁ s₂ q a history here rest ih =>
    cases q with
    | refresh => cases unrefreshed
    | isOnline | token =>
      obtain ⟨-, rfl⟩ := here
      exact ih unrefreshed
    | enqueue | cached | keep =>
      obtain ⟨same, -⟩ := here
      exact (ih unrefreshed).imp_right fun later => later.trans same
    | send | pause =>
      rcases here with among | rfl
      · exact .inl among
      · exact ih unrefreshed
    | cancelled | draw | notify | toLogin | canRefresh | newEventId =>
      obtain rfl : s₁ = s := here
      exact ih unrefreshed

theorem live_of_refreshed {before after : List (Happening interface)} {token : String}
    (allows : (outside o mayFail others).Allows s
      (before ++ ⟨.refresh, some (.ok token)⟩ :: after) s')
    (unrefreshed : refreshes after = []) : others ∨ s'.live = some token := by
  obtain ⟨s₁, -, tail⟩ := Surroundings.allows_append_iff.mp allows
  obtain ⟨s₂, here, rest⟩ := Surroundings.allows_cons_iff.mp tail
  rcases here with among | rfl
  · exact .inl among
  · exact live_of_unrefreshed rest unrefreshed

/-! ### Calls that queue -/

/-- The session was not refreshed, or once with success. -/
inductive Renewed : List (Happening interface) → Prop
  | never {history : List (Happening interface)} (unrefreshed : refreshes history = []) :
      Renewed history
  | once {before after : List (Happening interface)} (token : String)
      (earlier : refreshes before = []) (later : refreshes after = []) :
      Renewed (before ++ ⟨.refresh, some (.ok token)⟩ :: after)

theorem Renewed.cons {h : Happening interface} (other : refreshes [h] = [])
    (renewed : Renewed history) : Renewed (h :: history) := by
  cases renewed with
  | never unrefreshed =>
    refine .never ?_
    rw [← List.singleton_append, refreshes_append, other, unrefreshed]
    rfl
  | @once before after token earlier later =>
    rw [← List.cons_append]
    refine .once token ?_ later
    rw [← List.singleton_append, refreshes_append, other, earlier]
    rfl

/-- Where others leave the session alone, its token is the same unless a refresh gave another. -/
theorem Renewed.live_iff (renewed : Renewed history) (live : s.live = some t)
    (allows : (outside o mayFail others).Allows s history s') :
    others ∨ (s'.live = some t ↔ ∀ token, some (.ok token) ∈ refreshes history → token = t) := by
  cases renewed with
  | never unrefreshed =>
    refine (live_of_unrefreshed allows unrefreshed).imp_right fun same => ?_
    rw [same, unrefreshed]
    exact ⟨fun _ token hmem => (List.not_mem_nil hmem).elim, fun _ => live⟩
  | @once before after token earlier later =>
    refine (live_of_refreshed allows later).imp_right fun now => ?_
    have whole :
        refreshes (before ++ ⟨.refresh, some (.ok token)⟩ :: after) = [some (.ok token)] := by
      rw [refreshes_append, earlier]
      exact congrArg (_ :: ·) later
    rw [now, whole, Option.some_inj]
    simp

/-- An attempt that got no answer came without a refresh, or after one. -/
theorem Attempts.renewed_of_lost (h : Attempts x r expected history reached)
    (lost : Unanswered reached) : Renewed history := by
  obtain ⟨m, lost⟩ := lost
  cases h with
  | tried tries => exact .never tries.quiet.1
  | denied => cases lost
  | @renewed first _ _ _ _ tries renews =>
    cases renews with
    | stopped | cut | stoppedAgain | cutAgain => cases lost
    | failed f => exact absurd (Except.error.inj lost) (refreshFault_ne_transport f m)
    | again token s =>
      have earlier : refreshes (first ++ [⟨.canRefresh, true⟩, ⟨.cancelled, false⟩]) = [] := by
        rw [refreshes_append, tries.quiet.1]
        rfl
      have once := Renewed.once token earlier
        (show refreshes [⟨.cancelled, false⟩,
          ⟨.send (reauthorized r token) (x.budget r), some s⟩] = [] from rfl)
      rwa [List.append_assoc] at once

/-- Only the queue gives responses that are queued. -/
theorem queued_of_outcome {s : Sent} {response : Response}
    (h : x.outcome r expected s = .ok response) : response.queued = none := by
  cases s with
  | failed | elapsed => cases h
  | replied reply =>
    simp only [outcome, Reply.toResponse] at h
    split at h
    · cases h
    · generalize (if r.graphql.isSome then _ else _ : Except Fault ResponseBody) = body at h
      cases body with
      | error => cases h
      | ok => cases h; rfl

theorem Tries.queued_eq {left : Nat} {response : Response}
    (h : Tries x r expected left history (.ok response)) : response.queued = none := by
  generalize hresult : (Except.ok response : Except Fault Response) = result at h
  induction h with
  | stopped | cut | woken | exhausted => cases hresult
  | settled s => exact queued_of_outcome hresult.symm
  | again _ _ _ _ _ ih => exact ih hresult

theorem Attempts.queued_eq {response : Response}
    (h : Attempts x r expected history (.ok response)) : response.queued = none := by
  cases h with
  | tried tries => exact tries.queued_eq
  | renewed _ renews =>
    generalize hresult : (Except.ok response : Except Fault Response) = result at renews
    cases renews with
    | again token s => exact queued_of_outcome hresult.symm
    | _ => cases hresult

/-- How an event is handed to the queue. -/
def handing (r : Request) (live : Option String) (id : String) (a : Except OfflineError String) :
    List (Happening interface) :=
  [⟨.token, live⟩, ⟨.newEventId, id⟩, ⟨.enqueue (OfflineEvent.ofRequest id r live), a⟩]

theorem FallsBack.handing_of_queued {cause : Option Fault} {response : Response} {id : String}
    (h : FallsBack r cause history (.ok response)) (queued : response.queued = some id) :
    ∃ live id', history = handing r live id' (.ok id) := by
  generalize hresult : (Except.ok response : Except Fault Response) = result at h
  cases h with
  | queued mutating live id' a =>
    cases a with
    | error => cases hresult
    | ok accepted =>
      cases hresult
      cases queued
      exact ⟨live, id', rfl⟩
  | read reads a =>
    rcases a with f | _ | value
    · cases hresult
    · cases hresult
    · cases hresult
      cases queued

/-- A call that returns a queued response has handed one event to the queue, at its end. -/
theorem handing_of_queued {response : Response} {id : String}
    (ends : (x.run r expected offline).Ends history (.ok response))
    (queued : response.queued = some id) :
    ∃ before live id', history = before ++ handing r live id' (.ok id) ∧
      asked before = [.isOnline] ∧ Renewed before := by
  generalize hresult : (Except.ok response : Except Fault Response) = result at ends
  cases course_of_ends ends with
  | streaming | cancelled => cases hresult
  | unconnected _ _ falls =>
    subst hresult
    obtain ⟨live, id', rfl⟩ := falls.handing_of_queued queued
    exact ⟨[⟨.cancelled, false⟩, ⟨.isOnline, false⟩], live, id', rfl, rfl, .never rfl⟩
  | @connected _ went rest reached _ goes settles =>
    have attempts := attempts_of_ends goes
    cases settles with
    | kept _ _ good | plain =>
      subst hresult
      rw [attempts.queued_eq] at queued
      cases queued
    | fellBack on lost falls =>
      subst hresult on
      obtain ⟨live, id', rfl⟩ := falls.handing_of_queued queued
      have begun : Renewed (⟨.cancelled, false⟩ :: ⟨.isOnline, true⟩ :: went) :=
        (attempts.renewed_of_lost ⟨_, lost⟩).cons rfl |>.cons rfl
      refine ⟨⟨.cancelled, false⟩ :: ⟨.isOnline, true⟩ :: went, live, id', rfl, ?_, begun⟩
      exact congrArg (Ask.isOnline :: ·) attempts.unasked

/-- The event that a call queues is free of the token that the request carries exactly if that is
still the session token when the call queues it; unless others change the session, that is if no
refresh of this call gave another token. -/
theorem event_sheltered_iff (x : Executor) (r : Request) (expected : Option ResponseType)
    (o : OfflineSettings) (mayFail others : Prop) (s s' : Outside)
    (history : List (Happening interface)) (response : Response) (t id : String)
    (carries : Carries r t) (live : s.live = some t)
    (ends : (x.execute r expected).Ends history (.ok response))
    (allows : (outside o mayFail others).Allows s history s')
    (queued : response.queued = some id) :
    ∃ now : Outside, asked history = [.isOnline, .enqueue (OfflineEvent.ofRequest id r now.live)] ∧
      Adds o (OfflineEvent.ofRequest id r now.live) now.queue s'.queue ∧
      (Sheltered (OfflineEvent.ofRequest id r now.live) ↔ now.live = some t) ∧
      (others ∨ (now.live = some t ↔ ∀ token, some (.ok token) ∈ refreshes history → token = t)) ∧
      (Sheltered (OfflineEvent.ofRequest id r now.live) → ∀ u, u ≠ "" →
        ∃ q, (OfflineEvent.ofRequest id r now.live).toRequest = .ok q ∧
          q.attachSession (some u) = (true, q.setHeader authorizationHeader (bearerValue u))) := by
  obtain ⟨before, token, id', rfl, asks, renewed⟩ := handing_of_queued ends queued
  obtain ⟨now, going, handed⟩ := Surroundings.allows_append_iff.mp allows
  obtain ⟨rfl, named⟩ := allows_token_iff.mp handed
  obtain ⟨queue, leads, closed⟩ := allows_enqueue_iff.mp (allows_newEventId_iff.mp named)
  obtain rfl := Surroundings.allows_nil_iff.mp closed
  obtain ⟨-, queueing⟩ := OfflineQueue.leads_enqueue_iff.mp leads
  obtain ⟨same, adds⟩ := adds_of_queueing queueing
  obtain rfl : id = id' := same.trans (ofRequest_id ..)
  have unrefreshed : refreshes (handing r now.live id (.ok id)) = [] := rfl
  refine ⟨now, ?_, adds, sheltered_ofRequest_iff carries id now.live, ?_,
    fun sheltered u nonempty => attaches_of_sheltered nonempty sheltered⟩
  · rw [asked_append, asks]
    rfl
  · rw [refreshes_append, unrefreshed, List.append_nil]
    exact renewed.live_iff live going

/-- A place where nothing is stored and the session has this token. -/
def loggedIn (online : Bool) (token : String) : Outside where
  queue := { queue := { online }, stored := fun _ => none }
  live := some token

theorem carries_posting : Carries posting "old" where
  some := ⟨_, List.mem_singleton.mpr rfl, rfl⟩
  only := fun h hmem _ => by rw [List.mem_singleton.mp hmem]

theorem queues_loggedIn (online : Bool) (token : String) (e : OfflineEvent) :
    ∃ queue, (OfflineQueue.surroundings False).Leads (OfflineQueue.enqueue {} e)
      (loggedIn online token).queue (.ok e.id) queue :=
  ⟨_, OfflineQueue.leads_enqueue_iff.mpr ⟨OfflineQueue.hasTurn_of_free rfl, .queued (.inl rfl) 0⟩⟩

theorem event_sheltered_iff_unplugged :
    Sheltered (OfflineEvent.ofRequest "e" posting (some "old")) := by
  have ends : (({ queueing := true } : Executor).execute posting none).Ends
      (⟨.cancelled, false⟩ :: ⟨.isOnline, false⟩ :: handing posting (some "old") "e" (.ok "e"))
      (.ok (.accepted "e")) := by
    iterate 5 apply Process.Ends.asked
    exact .done _
  obtain ⟨queue, leads⟩ :=
    queues_loggedIn false "old" (OfflineEvent.ofRequest "e" posting (some "old"))
  have allows : (outside {} False False).Allows (loggedIn false "old")
      (⟨.cancelled, false⟩ :: ⟨.isOnline, false⟩ :: handing posting (some "old") "e" (.ok "e"))
      ⟨queue, some "old"⟩ :=
    allows_cancelled_iff.mpr (allows_isOnline_iff.mpr ⟨rfl, allows_token_iff.mpr ⟨rfl,
      allows_newEventId_iff.mpr (allows_enqueue_iff.mpr ⟨queue, leads, .nil _⟩)⟩⟩)
  obtain ⟨now, asks, -, sheltered, unrefreshed, -⟩ :=
    event_sheltered_iff { queueing := true } posting none {} False False _ _ _ _ "old" "e"
      carries_posting rfl ends allows rfl
  have same : OfflineEvent.ofRequest "e" posting (some "old") =
      OfflineEvent.ofRequest "e" posting now.live := by
    simpa [asked, handing, Ask.forQueue] using asks
  rw [same, sheltered]
  have still := unrefreshed.resolve_left id
  exact still.mpr fun token hmem => (List.not_mem_nil hmem).elim

/-- Whatever happens to a mutation that carries the session token, it is never queued with it. -/
def SheltersToken : Prop :=
  ∀ (x : Executor) (r : Request) (expected : Option ResponseType) (o : OfflineSettings)
    (s s' : Outside) (history : List (Happening interface)) (response : Response) (t id : String),
    r.isMutating = true → Carries r t → t ≠ "" → s.live = some t →
    (x.execute r expected).Ends history (.ok response) →
    (outside o False False).Allows s history s' → response.queued = some id →
    ∀ e, .enqueue e ∈ asked history → Sheltered e

/-- A refresh that is followed by a request without an answer: the request is queued with the token
of before. -/
theorem not_sheltersToken : ¬ SheltersToken := by
  intro shelters
  have ends : (({ queueing := true } : Executor).execute posting none).Ends
      (renewing (.failed (.transport "connection reset")) ++
        handing posting (some "new") "e" (.ok "e")) (.ok (.accepted "e")) := by
    iterate 12 apply Process.Ends.asked
    exact .done _
  obtain ⟨queue, leads⟩ :=
    queues_loggedIn true "new" (OfflineEvent.ofRequest "e" posting (some "new"))
  have renews : (outside {} False False).Allows (loggedIn true "old")
      (renewing (.failed (.transport "connection reset"))) (loggedIn true "new") := by
    refine allows_cancelled_iff.mpr (allows_isOnline_iff.mpr ⟨rfl, allows_cancelled_iff.mpr ?_⟩)
    refine Surroundings.allows_cons_iff.mpr ⟨loggedIn true "old", .inr rfl, ?_⟩
    refine Surroundings.allows_cons_iff.mpr ⟨loggedIn true "old", rfl, allows_cancelled_iff.mpr ?_⟩
    refine Surroundings.allows_cons_iff.mpr ⟨loggedIn true "new", .inr rfl, ?_⟩
    exact allows_cancelled_iff.mpr (Surroundings.allows_cons_iff.mpr ⟨_, .inr rfl, .nil _⟩)
  have allows : (outside {} False False).Allows (loggedIn true "old")
      (renewing (.failed (.transport "connection reset")) ++
        handing posting (some "new") "e" (.ok "e")) ⟨queue, some "new"⟩ :=
    Surroundings.allows_append_iff.mpr ⟨_, renews, allows_token_iff.mpr ⟨rfl,
      allows_newEventId_iff.mpr (allows_enqueue_iff.mpr ⟨queue, leads, .nil _⟩)⟩⟩
  have handed : .enqueue (OfflineEvent.ofRequest "e" posting (some "new")) ∈
      asked (renewing (.failed (.transport "connection reset")) ++
        handing posting (some "new") "e" (.ok "e")) := by
    simp [asked, renewing, handing, Ask.forQueue]
  have sheltered := shelters _ _ _ _ _ _ _ _ "old" "e" rfl carries_posting (by decide) rfl ends
    allows rfl _ handed
  cases sheltered.wants

end ScreenFlow.Executor
