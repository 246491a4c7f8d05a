import ScreenFlow.Proofs.Auth.TakingTurns

/-!
# What a renewal leaves behind

A renewal that has the turn either takes the token that it finds, or exchanges the refresh token and
makes what it gets the session.

* `Trail`: what a history shows;
* `ensures_begin`, `ensures_end`: a session begins or ends after an exchange;
* `ensures_redeem`: one request is sent, and its reply decides;
* `ensures_renewal_absent`, `ensures_renewal_present`: what a renewal makes of the session it finds.
-/

namespace ScreenFlow.Auth

open Simulation (SessionPart)

/-! ### What a history shows -/

section

variable (history : List (Happening interface))

def requests : List Request :=
  history.filterMap fun
    | ⟨.send r, _⟩ => some r
    | _ => none

def emitted : List AuthEvent :=
  history.filterMap fun
    | ⟨.emit e, _⟩ => some e
    | _ => none

/-- The paths to which the user was sent. -/
def redirects : List String :=
  history.filterMap fun
    | ⟨.toLogin path, _⟩ => some path
    | _ => none

/-- What has become the session. -/
def sessions : List (Option StoredAuth) :=
  history.filterMap fun
    | ⟨.setSession a, _⟩ => some a
    | _ => none

/-- What the clock has shown. -/
def times : List Int :=
  history.filterMap fun
    | ⟨.now, now⟩ => some now
    | _ => none

/-- What the servers have replied. -/
def replies : List (Except Fault Reply) :=
  history.filterMap fun
    | ⟨.send _, reply⟩ => some reply
    | _ => none

/-- Whether the store has refused a change. -/
def refused : Bool :=
  history.any fun
    | ⟨.store (.set ..), .error _⟩ | ⟨.store (.delete _), .error _⟩ => true
    | _ => false

/-- The history shows exactly this. -/
structure Trail (rs : List Request) (es : List AuthEvent) (paths : List String)
    (as : List (Option StoredAuth)) : Prop where
  requests : requests history = rs
  emitted : emitted history = es
  redirects : redirects history = paths
  sessions : sessions history = as

end

variable {auth : Auth} {s s' : SessionPart} {h h₁ h₂ : List (Happening interface)}
  {rs rs' : List Request} {es es' : List AuthEvent} {paths paths' : List String}
  {as as' : List (Option StoredAuth)}

@[simp] theorem requests_append : requests (h₁ ++ h₂) = requests h₁ ++ requests h₂ :=
  List.filterMap_append

@[simp] theorem emitted_append : emitted (h₁ ++ h₂) = emitted h₁ ++ emitted h₂ :=
  List.filterMap_append

@[simp] theorem redirects_append : redirects (h₁ ++ h₂) = redirects h₁ ++ redirects h₂ :=
  List.filterMap_append

@[simp] theorem sessions_append : sessions (h₁ ++ h₂) = sessions h₁ ++ sessions h₂ :=
  List.filterMap_append

@[simp] theorem replies_append : replies (h₁ ++ h₂) = replies h₁ ++ replies h₂ :=
  List.filterMap_append

@[simp] theorem refused_append : refused (h₁ ++ h₂) = (refused h₁ || refused h₂) := List.any_append

theorem Trail.append (t : Trail h₁ rs es paths as) (t' : Trail h₂ rs' es' paths' as') :
    Trail (h₁ ++ h₂) (rs ++ rs') (es ++ es') (paths ++ paths') (as ++ as') where
  requests := by rw [requests_append, t.requests, t'.requests]
  emitted := by rw [emitted_append, t.emitted, t'.emitted]
  redirects := by rw [redirects_append, t.redirects, t'.redirects]
  sessions := by rw [sessions_append, t.sessions, t'.sessions]

/-! ### Storing and ending -/

/-- The store is asked for one change. -/
theorem ensures_save (a : StoredAuth) (now : Int) :
    surroundings.Ensures (auth.save a now) s fun h r s' =>
      s' = s ∧ Trail h [] [] [] [] ∧ replies h = [] ∧ (refused h = false ↔ r = .ok ()) := by
  rw [save]
  cases auth.storage.write a now with
  | clear =>
    refine Surroundings.ensures_ask_iff.mpr fun (deleted : Except StoreError Bool) s₁ same => ?_
    refine Surroundings.ensures_done_iff.mpr ⟨same, ⟨rfl, rfl, rfl, rfl⟩, rfl, ?_⟩
    cases deleted <;> simp [refused, Except.map, Except.mapError]
  | set text ttl =>
    refine Surroundings.ensures_ask_iff.mpr fun (written : Except StoreError Unit) s₁ same => ?_
    refine Surroundings.ensures_done_iff.mpr ⟨same, ⟨rfl, rfl, rfl, rfl⟩, rfl, ?_⟩
    cases written <;> simp [refused, Except.mapError]

/-- A session begins, and that is told unless the store refuses it. -/
theorem ensures_begin (a : StoredAuth) (toLogin : Bool) :
    surroundings.Ensures (auth.concludeRefresh toLogin (.ok a)) s fun h r s' =>
      s'.current = some a ∧ replies h = [] ∧
        (refused h = false ∧ r = .ok a.token ∧ Trail h [] [.refreshed a.expiresAt] [] [some a] ∨
          refused h = true ∧ (∃ e, r = .error e) ∧ Trail h [] [] [] [some a]) := by
  refine Surroundings.ensures_bind_iff.mpr ?_
  refine Surroundings.ensures_ask_iff.mpr fun _ s₁ same => ?_
  obtain rfl : s₁ = { s with current := some a } := same
  refine Surroundings.ensures_ask_iff.mpr fun now s₂ same => ?_
  obtain rfl : s₂ = _ := same
  refine (ensures_save a now).mono ?_
  rintro h r s' ⟨rfl, trail, quiet, written⟩
  have begun : Trail [⟨.setSession (some a), ()⟩, ⟨.now, now⟩] [] [] [] [some a] :=
    ⟨rfl, rfl, rfl, rfl⟩
  have trail' := begun.append trail
  cases r with
  | ok _ =>
    refine Surroundings.ensures_ask_iff.mpr fun _ s₃ same => ?_
    obtain rfl : s₃ = _ := same
    refine Surroundings.ensures_done_iff.mpr ⟨rfl, ?_, .inl ⟨?_, rfl, ?_⟩⟩
    · simpa [replies] using quiet
    · simpa [refused] using written.mpr rfl
    · have told : Trail [⟨.emit (.refreshed a.expiresAt), ()⟩] [] [.refreshed a.expiresAt] [] [] :=
        ⟨rfl, rfl, rfl, rfl⟩
      exact trail'.append told
  | error e =>
    refine Surroundings.ensures_done_iff.mpr ⟨rfl, ?_, .inr ⟨?_, ⟨e, rfl⟩, ?_⟩⟩
    · simpa [replies] using quiet
    · simpa [refused] using written
    · simpa using trail'

/-- A session ends, and that is told if there was one. -/
theorem ensures_end (e : AuthError) (toLogin : Bool) :
    surroundings.Ensures (auth.concludeRefresh toLogin (.error e)) s fun h r s' =>
      s'.current = none ∧ replies h = [] ∧ r = .error e ∧
        Trail h [] (if s.current.isSome then [.loggedOut] else [])
          (if toLogin then [auth.settings.loginPath] else []) [none] := by
  simp only [concludeRefresh, logout, clear, redirect, ask, Process.call, Process.bind_def,
    Process.pure_def, Process.ask_bind, Process.done_bind, Surroundings.ensures_ask_iff,
    surroundings, Answers]
  rintro _ s₁ ⟨rfl, rfl⟩ _ s₂ rfl _ s₃ rfl deleted s₄ rfl
  cases hs : s₁.current <;> cases toLogin <;>
    simp [Surroundings.ensures_ask_iff, Answers, replies]
  all_goals
    intros
    exact ⟨rfl, rfl, rfl, rfl⟩

/-! ### Renewals -/

variable {own a : StoredAuth} {endpoint refreshToken : String} {n : Nat} {toLogin : Bool}

theorem canRefresh_iff :
    auth.canRefresh (some a) = true ↔ ∃ endpoint refreshToken,
      auth.settings.tokenEndpoint.filter (fun _ => auth.connected) = some endpoint ∧
        a.refreshToken = some refreshToken := by
  cases he : auth.settings.tokenEndpoint <;> cases hc : auth.connected <;>
    cases hr : a.refreshToken <;> simp [canRefresh, he, hc, hr]

/-- One request is sent, and its reply says what comes of the exchange. -/
theorem ensures_redeem (endpoint : String) (ho : own.refreshToken = some refreshToken) :
    surroundings.Ensures (auth.redeem endpoint refreshToken) s fun h r s' =>
      s' = s ∧ Trail h [refreshRequest endpoint refreshToken] [] [] [] ∧ refused h = false ∧
        ∃ reply now, replies h = [reply] ∧ Call.refresh.verdict auth own reply now = some r.toOption := by
  refine Surroundings.ensures_ask_iff.mpr fun (reply : Except Fault Reply) s₁ same => ?_
  obtain rfl : s₁ = s := same
  cases reply with
  | error f =>
    refine Surroundings.ensures_done_iff.mpr ⟨rfl, ⟨rfl, rfl, rfl, rfl⟩, rfl, _, 0, rfl, ?_⟩
    simp [Call.verdict, Except.toOption]
  | ok reply =>
    refine Surroundings.ensures_ask_iff.mpr fun (now : Int) s₂ same => ?_
    obtain rfl : s₂ = s₁ := same
    refine Surroundings.ensures_done_iff.mpr ⟨rfl, ⟨rfl, rfl, rfl, rfl⟩, rfl, _, now, rfl, ?_⟩
    simp [Call.verdict, Except.toOption, ho]

/-- Where there is no session, a renewal fails without a request. -/
theorem ensures_renewal_absent (seen : Option String) (hs : s.current = none) :
    surroundings.Ensures (auth.renewal toLogin seen) s fun h r s' =>
      s'.current = none ∧ (∃ e, r = .error e) ∧
        Trail h [] [] (if toLogin then [auth.settings.loginPath] else []) [none] := by
  refine Surroundings.ensures_ask_iff.mpr ?_
  rintro _ s₁ ⟨rfl, rfl⟩
  refine Surroundings.ensures_ask_iff.mpr fun (now : Int) s₂ same => ?_
  obtain rfl : s₂ = s₁ := same
  rw [hs]
  change surroundings.Ensures (auth.exchange.bind (auth.concludeRefresh toLogin)) _ _
  refine Surroundings.ensures_bind_iff.mpr (Surroundings.ensures_ask_iff.mpr ?_)
  rintro _ s₃ ⟨rfl, rfl⟩
  rw [hs]
  refine Surroundings.ensures_done_iff.mpr ((ensures_end .noRefreshToken toLogin).mono ?_)
  rintro h r s' ⟨ended, -, failed, trail⟩
  rw [hs] at trail
  have looked : Trail [⟨.session, none⟩, ⟨.now, now⟩, ⟨.session, none⟩] [] [] [] [] :=
    ⟨rfl, rfl, rfl, rfl⟩
  exact ⟨ended, ⟨_, failed⟩, looked.append trail⟩

/-- Where there is a session, its token is taken if it is live and new, and otherwise a request is
sent, provided that one can be. -/
theorem ensures_renewal_present (seen : Option String) (hs : s.current = some a) :
    surroundings.Ensures (auth.renewal toLogin seen) s fun h r s' =>
      (∃ now, seen ≠ some a.token ∧ isLive auth.settings now (some a) = true ∧
          h = [⟨.session, some a⟩, ⟨.now, now⟩] ∧ r = .ok a.token ∧ s' = s) ∨
        (∃ now ∈ times h, ¬ (seen ≠ some a.token ∧ isLive auth.settings now (some a) = true)) ∧
          (auth.canRefresh (some a) = true → requests h ≠ []) := by
  refine Surroundings.ensures_ask_iff.mpr ?_
  rintro _ s₁ ⟨rfl, rfl⟩
  refine Surroundings.ensures_ask_iff.mpr fun (now : Int) s₂ same => ?_
  obtain rfl : s₂ = s₁ := same
  rw [hs]
  dsimp only
  by_cases hnew : (seen != some a.token && isLive auth.settings now (some a)) = true
  · rw [Process.done_bind, if_pos hnew]
    simp only [Bool.and_eq_true, bne_iff_ne] at hnew
    exact Surroundings.ensures_done_iff.mpr (.inl ⟨now, hnew.1, hnew.2, rfl, rfl, rfl⟩)
  · rw [Process.done_bind, if_neg hnew]
    simp only [Bool.and_eq_true, bne_iff_ne] at hnew
    change surroundings.Ensures (auth.exchange.bind (auth.concludeRefresh toLogin)) _ _
    refine Surroundings.ensures_bind_iff.mpr (Surroundings.ensures_ask_iff.mpr ?_)
    rintro _ s₃ ⟨rfl, rfl⟩
    rw [hs]
    by_cases can : auth.canRefresh (some a) = true
    · obtain ⟨endpoint, refreshToken, he, hr⟩ := canRefresh_iff.mp can
      simp only [Process.done_bind, Option.bind_some, hr, he]
      refine (ensures_redeem endpoint hr).mono ?_
      rintro h r s' ⟨rfl, trail, -, -⟩ rest r' s'' - -
      refine .inr ⟨⟨now, by simp [times], hnew⟩, fun _ none => ?_⟩
      have sent : requests h ++ requests rest = [] := by
        rw [← requests_append]
        exact none
      simp [trail.requests] at sent
    · intro h r s' _ _ rest r' s'' _ _
      exact .inr ⟨⟨now, by simp [times], hnew⟩, fun can' => absurd can' can⟩

/-- What an exchange brings can be exchanged again. -/
theorem canRefresh_of_verdict {reply : Except Fault Reply} {now : Int}
    (verdict : Call.refresh.verdict auth own reply now = some (some a))
    (he : auth.settings.tokenEndpoint.filter (fun _ => auth.connected) = some endpoint) :
    auth.canRefresh (some a) = true := by
  obtain ⟨reply, -, brings⟩ := Option.bind_eq_some_iff.mp (Option.some.inj verdict)
  suffices ∃ refreshToken, a.refreshToken = some refreshToken by
    obtain ⟨refreshToken, h⟩ := this
    exact canRefresh_iff.mpr ⟨endpoint, refreshToken, he, h⟩
  cases ho : ofTokenReply auth.settings now (own.refreshToken.getD "") reply with
  | error e => simp [ho, Except.toOption] at brings
  | ok b =>
    obtain rfl : b = a := by simpa [ho, Except.toOption] using brings
    simp only [ofTokenReply] at ho
    split at ho
    · cases ho
    · split at ho
      · cases ho
      · split at ho
        · cases ho
        · cases ho
          exact ⟨_, rfl⟩

/-- What comes of a request that is on its way. -/
structure Sent (auth : Auth) (own : StoredAuth) (endpoint refreshToken : String)
    (h : List (Happening interface)) (r : Except AuthError String) (x : Option StoredAuth) : Prop where
  replied : ∃ reply now, replies h = [reply] ∧ Call.refresh.verdict auth own reply now = some x
  requests : requests h = [refreshRequest endpoint refreshToken]
  sessions : sessions h = [x]
  succeeds : ∀ a, x = some a → redirects h = [] ∧
    (refused h = false ∧ r = .ok a.token ∧ emitted h = [.refreshed a.expiresAt] ∨
      refused h = true ∧ ∃ e, r = .error e)
  fails : x = none → (∃ e, r = .error e) ∧ emitted h = [.loggedOut] ∧
    redirects h = if auth.settings.requiresAuth then [auth.settings.loginPath] else []

/-- The reply is carried out. -/
theorem ensures_sent (endpoint : String) (ho : own.refreshToken = some refreshToken)
    (hs : s.current.isSome = true) :
    surroundings.Ensures ((auth.redeem endpoint refreshToken).bind
        (auth.concludeRefresh auth.settings.requiresAuth)) s fun h r s' =>
      Sent auth own endpoint refreshToken h r s'.current := by
  refine Surroundings.ensures_bind_iff.mpr ((ensures_redeem endpoint ho).mono ?_)
  rintro h₁ res _ ⟨rfl, trail, taken, reply, now, replied, verdict⟩
  cases res with
  | ok a =>
    refine (ensures_begin a auth.settings.requiresAuth).mono ?_
    rintro h₂ r s' ⟨current, quiet, outcome⟩
    have replied : replies (h₁ ++ h₂) = [reply] := by simp [replied, quiet]
    rw [current]
    rcases outcome with ⟨stored, rfl, trail'⟩ | ⟨refused', failed, trail'⟩
    · have trail := trail.append trail'
      refine ⟨⟨reply, now, replied, verdict⟩, trail.requests, trail.sessions, ?_, nofun⟩
      rintro _ ⟨⟩
      exact ⟨trail.redirects, .inl ⟨by simp [taken, stored], rfl, trail.emitted⟩⟩
    · have trail := trail.append trail'
      refine ⟨⟨reply, now, replied, verdict⟩, trail.requests, trail.sessions, ?_, nofun⟩
      rintro _ ⟨⟩
      exact ⟨trail.redirects, .inr ⟨by simp [refused'], failed⟩⟩
  | error e =>
    refine (ensures_end e auth.settings.requiresAuth).mono ?_
    rintro h₂ r s' ⟨current, quiet, rfl, trail'⟩
    rw [if_pos hs] at trail'
    have trail := trail.append trail'
    have replied : replies (h₁ ++ h₂) = [reply] := by simp [replied, quiet]
    rw [current]
    exact ⟨⟨reply, now, replied, verdict⟩, trail.requests, trail.sessions, nofun,
      fun _ => ⟨⟨e, rfl⟩, trail.emitted, trail.redirects⟩⟩

end ScreenFlow.Auth
