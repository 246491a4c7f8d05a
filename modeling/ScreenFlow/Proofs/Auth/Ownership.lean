import ScreenFlow.Proofs.Process.Interleaving
import ScreenFlow.Simulation.World

/-!
# Whose session an exchange changes

Renewals and profile requests wait for the network while logins and logouts go on. What a reply does
to the session depends on the reply and on the session for which it was asked, not on the session of
the moment.

* `exchange_respects_session_iff`: a reply leaves every session but its own alone exactly if its own
  is still there, or it would change nothing;
* `not_ownsExchanges`: a late refusal of a profile request ends the session of someone else.
-/

namespace ScreenFlow.Auth

open Simulation (SessionPart)

/-- What can be called while other calls are under way. -/
inductive Call where
  | login (token : String) (refreshToken : Option String) (expiresIn : Option Duration)
  | logout (toLogin : Bool)
  | refresh
  | refreshForRequest
  | loadProfile (force : Bool)

/-- The operation of a call, without its result. -/
def perform (auth : Auth) : Call → Operation Unit
  | .login token refreshToken expiresIn => do let _ ← auth.login token refreshToken expiresIn
  | .logout toLogin => do let _ ← auth.logout toLogin
  | .refresh => do let _ ← auth.refresh
  | .refreshForRequest => do let _ ← auth.refreshForRequest
  | .loadProfile force => do let _ ← auth.loadProfile force

/-- Which answers a question may get. Servers, the store and the clock answer what they like. -/
def Answers : SessionPart → (q : Ask) → Answer q → SessionPart → Prop
  | s, .session, a, s' => a = s.current ∧ s' = s
  | s, .setSession a, _, s' => s' = { s with current := a }
  | s, .profile, a, s' => a = s.profile ∧ s' = s
  | s, .setProfile p, _, s' => s' = { s with profile := p }
  | s, .takeTicket, ticket, s' => (ticket, s'.lock) = s.lock.take ∧ s' = { s with lock := s'.lock }
  | s, .turn ticket, _, s' => s.lock.hasTurn ticket = true ∧ s' = s
  | s, .handBack ticket, _, s' => s' = { s with lock := s.lock.handBack ticket }
  | s, .emit e, _, s' => s' = { s with events := s.events.send e }
  | s, .store _, _, s' | s, .now, _, s' | s, .send _, _, s' | s, .toLogin _, _, s' => s' = s

/-- Others go on while an operation waits for the network, the store or its turn. -/
def surroundings : Surroundings interface SessionPart where
  suspends
    | .store _ | .turn _ | .send _ => true
    | _ => false
  answers := Answers
  undo
    | .takeTicket, ticket => some fun s => { s with lock := s.lock.handBack ticket }
    | _, _ => none

/-- Every question has an answer of its type. -/
theorem nonempty_answer (q : Ask) : Nonempty (Answer q) := by
  cases q with
  | store q =>
    cases q with
    | get => exact ⟨.ok none⟩
    | set => exact ⟨.ok ()⟩
    | delete => exact ⟨.ok true⟩
    | keys => exact ⟨.ok []⟩
    | isAvailable => exact ⟨true⟩
  | takeTicket => exact ⟨(0 : Nat)⟩
  | now => exact ⟨(0 : Int)⟩
  | session | profile => exact ⟨none⟩
  | send => exact ⟨.ok { status := 200 }⟩
  | turn | handBack | setSession | setProfile | emit | toLogin => exact ⟨()⟩

/-- The session as an operation read it last. -/
def lastSeen (past : List (Happening interface)) : Option StoredAuth :=
  past.foldl (fun seen h =>
    match h with
    | ⟨.session, a⟩ => a
    | _ => seen) none

/-- What a reply to the exchange of a call makes of the session, if anything. -/
def Call.verdict (auth : Auth) (own : StoredAuth) (reply : Except Fault Reply) (now : Int) :
    Call → Option (Option StoredAuth)
  | .refresh | .refreshForRequest =>
    some (reply.toOption.bind fun r =>
      (ofTokenReply auth.settings now (own.refreshToken.getD "") r).toOption)
  | .loadProfile _ => if reply.toOption.any (·.status == 401) then some none else none
  | .login .. | .logout _ => none

/-! ### Runs of an operation -/

/-- No operation lacks an answer to go on with. -/
theorem exists_runs {α : Type} (p : Operation α) (s : SessionPart) (past) :
    ∃ s' p' past', surroundings.Runs s p past s' p' past' := by
  refine Surroundings.exists_runs (fun s q hq => ?_) p s past
  cases q with
  | store | turn | send => simp [surroundings] at hq
  | takeTicket => exact ⟨s.lock.take.1, { s with lock := s.lock.take.2 }, rfl, rfl⟩
  | session => exact ⟨s.current, s, rfl, rfl⟩
  | profile => exact ⟨s.profile, s, rfl, rfl⟩
  | now => exact ⟨(0 : Int), s, rfl⟩
  | handBack | setSession | setProfile | emit | toLogin => exact ⟨(), _, rfl⟩

/-- Neither sends anything nor touches the session in memory. -/
def Quiet {α : Type} : Operation α → Prop
  | .done _ => True
  | .ask (.send _) _ | .ask (.setSession _) _ => False
  | .ask _ next => ∀ a, Quiet (next a)

theorem Quiet.bind {α β : Type} {p : Operation α} {k : α → Operation β} (hp : Quiet p)
    (hk : ∀ a, Quiet (k a)) : Quiet (p.bind k) := by
  induction p with
  | done a => exact hk a
  | ask q next ih =>
    cases q with
    | send | setSession => exact hp.elim
    | _ => exact fun a => ih a (hp a)

/-- However far it goes before it is suspended, the session stays. -/
theorem Quiet.runs {p : Operation Unit} (hp : Quiet p) {s s' past p' past'}
    (r : surroundings.Runs s p past s' p' past') : s'.current = s.current := by
  induction r with
  | done | suspended => rfl
  | @answered q _ _ _ _ a _ _ _ _ ha _ ih =>
    cases q with
    | send | setSession => exact hp.elim
    | session | profile | takeTicket | turn => rw [ih (hp a), ha.2]
    | setProfile | handBack | emit | store | now | toLogin =>
      rw [ih (hp a), show _ = _ from ha]

/-- Before it is suspended, the operation makes of the session what `v` says of some time that the
clock may show; `none` leaves it alone. -/
def TakesIn (v : Int → Option (Option StoredAuth)) (p : Operation Unit) : Prop :=
  ∀ s past x, (∃ s' p' past', surroundings.Runs s p past s' p' past' ∧ s'.current = x) ↔
    ∃ now, x = (v now).getD s.current

theorem Quiet.takesIn {p : Operation Unit} (hp : Quiet p) : TakesIn (fun _ => none) p := by
  intro s past x
  constructor
  · rintro ⟨s', p', past', r, rfl⟩
    exact ⟨0, hp.runs r⟩
  · rintro ⟨_, rfl⟩
    obtain ⟨s', p', past', r⟩ := exists_runs p s past
    exact ⟨s', p', past', r, hp.runs r⟩

theorem takesIn_setSession {x : Option StoredAuth} {next : Unit → Operation Unit}
    (h : Quiet (next ())) : TakesIn (fun _ => some x) (.ask (.setSession x) next) := by
  intro s past y
  simp only [surroundings.runs_answered_iff (q := .setSession x) rfl]
  constructor
  · rintro ⟨s', p', past', ⟨_, s₁, hs, r⟩, rfl⟩
    exact ⟨0, by rw [h.runs r, show s₁ = _ from hs]; rfl⟩
  · rintro ⟨_, hy⟩
    obtain ⟨s', p', past', r⟩ :=
      exists_runs (next ()) { s with current := x } (past ++ [⟨.setSession x, ()⟩])
    exact ⟨s', p', past', ⟨(), _, rfl, r⟩, (h.runs r).trans hy.symm⟩

theorem takesIn_session {v : Int → Option (Option StoredAuth)}
    {next : Option StoredAuth → Operation Unit} (h : ∀ a, TakesIn v (next a)) :
    TakesIn v (.ask .session next) := by
  intro s past x
  rw [← h s.current s (past ++ [⟨.session, s.current⟩]) x]
  simp only [surroundings.runs_answered_iff (q := .session) rfl]
  constructor
  · rintro ⟨s', p', past', ⟨_, _, ⟨rfl, rfl⟩, r⟩, hx⟩
    exact ⟨s', p', past', r, hx⟩
  · rintro ⟨s', p', past', r, hx⟩
    exact ⟨s', p', past', ⟨_, s, ⟨rfl, rfl⟩, r⟩, hx⟩

/-- The time that is read here is the one that counts. -/
theorem takesIn_now {v : Int → Option (Option StoredAuth)} {next : Int → Operation Unit}
    (h : ∀ now, TakesIn (fun _ => v now) (next now)) : TakesIn v (.ask .now next) := by
  intro s past x
  simp only [surroundings.runs_answered_iff (q := .now) rfl]
  constructor
  · rintro ⟨s', p', past', ⟨now, s₁, hs, r⟩, hx⟩
    rw [show s₁ = s from hs] at r
    obtain ⟨_, hv⟩ := (h now s _ x).mp ⟨s', p', past', r, hx⟩
    exact ⟨now, hv⟩
  · rintro ⟨now, hv⟩
    obtain ⟨s', p', past', r, hx⟩ := (h now s (past ++ [⟨.now, now⟩]) x).mpr ⟨now, hv⟩
    exact ⟨s', p', past', ⟨now, s, rfl, r⟩, hx⟩

/-! ### Where operations wait -/

/-- Whoever waits for the network has read a session before, and its verdict on the reply is carried
out. Whoever waits for the store leaves the session alone from then on. -/
def AtExchange (auth : Auth) (c : Call) (past : List (Happening interface)) : Operation Unit → Prop
  | .ask (.send _) next =>
    ∃ own, lastSeen past = some own ∧ ∀ reply, TakesIn (c.verdict auth own reply) (next reply)
  | .ask (.store _) next => ∀ a, TakesIn (fun _ => none) (next a)
  | _ => True

theorem Quiet.always {auth : Auth} {c : Call} {p : Operation Unit} (hp : Quiet p) (past) :
    p.Always (AtExchange auth c) past := by
  induction p generalizing past with
  | done a => trivial
  | ask q next ih =>
    cases q with
    | send | setSession => exact hp.elim
    | store => exact ⟨fun a => (hp a).takesIn, fun a => ih a (hp a) _⟩
    | _ => exact ⟨trivial, fun a => ih a (hp a) _⟩

variable {auth : Auth} {c : Call}

theorem quiet_save (a : StoredAuth) (now : Int) : Quiet (auth.save a now) := by
  simp only [save]
  split <;> exact fun _ => trivial

theorem establish_bind {α : Type} (auth : Auth) (a : StoredAuth)
    {k : Except AuthError Unit → Operation α} (hk : ∀ r, Quiet (k r)) :
    ∃ next, (auth.establish a).bind k = .ask (.setSession (some a)) next ∧ Quiet (next ()) := by
  refine ⟨_, rfl, fun now => ?_⟩
  exact (quiet_save a now).bind hk

theorem logout_bind (auth : Auth) (toLogin : Bool) {k : Except AuthError Unit → Operation Unit}
    (hk : ∀ r, Quiet (k r)) :
    ∃ next : Option StoredAuth → Unit → Operation Unit,
      (auth.logout toLogin).bind k =
        .ask .session (fun before => .ask (.setSession none) (next before)) ∧
      ∀ before, Quiet (next before ()) := by
  refine ⟨_, rfl, fun before _ deleted => ?_⟩
  cases before <;> cases toLogin <;>
    simp [redirect, ask, Process.call, Process.bind_def, Process.pure_def, Quiet, hk]

/-- Making `a` the session, where what follows is quiet. -/
theorem takesIn_establish (a : StoredAuth) {k : Except AuthError Unit → Operation Unit}
    (hk : ∀ r, Quiet (k r)) : TakesIn (fun _ => some (some a)) ((auth.establish a).bind k) := by
  obtain ⟨next, h, quiet⟩ := auth.establish_bind a hk
  rw [h]
  exact takesIn_setSession quiet

theorem always_establish (a : StoredAuth) {k : Except AuthError Unit → Operation Unit}
    (hk : ∀ r, Quiet (k r)) (past) :
    ((auth.establish a).bind k).Always (AtExchange auth c) past := by
  obtain ⟨next, h, quiet⟩ := auth.establish_bind a hk
  rw [h]
  exact ⟨trivial, fun _ => quiet.always _⟩

theorem takesIn_logout (toLogin : Bool) {k : Except AuthError Unit → Operation Unit}
    (hk : ∀ r, Quiet (k r)) : TakesIn (fun _ => some none) ((auth.logout toLogin).bind k) := by
  obtain ⟨next, h, quiet⟩ := auth.logout_bind toLogin hk
  rw [h]
  exact takesIn_session fun before => takesIn_setSession (quiet before)

theorem always_logout (toLogin : Bool) {k : Except AuthError Unit → Operation Unit}
    (hk : ∀ r, Quiet (k r)) (past) :
    ((auth.logout toLogin).bind k).Always (AtExchange auth c) past := by
  obtain ⟨next, h, quiet⟩ := auth.logout_bind toLogin hk
  rw [h]
  exact ⟨trivial, fun before => ⟨trivial, fun _ => (quiet before).always _⟩⟩

/-! ### The operations -/

@[simp] theorem lastSeen_session (past : List (Happening interface)) (a : Option StoredAuth) :
    lastSeen (past ++ [⟨.session, a⟩]) = a := by
  simp [lastSeen]

theorem takesIn_conclude (toLogin : Bool) (r : Except AuthError StoredAuth)
    {k : Except AuthError String → Operation Unit} (hk : ∀ r, Quiet (k r)) :
    TakesIn (fun _ => some r.toOption) ((auth.concludeRefresh toLogin r).bind k) := by
  cases r with
  | ok a =>
    simp only [concludeRefresh, Process.bind_def, Process.bind_assoc]
    refine takesIn_establish a fun r => ?_
    cases r with
    | ok _ => exact fun _ => hk _
    | error _ => exact hk _
  | error e =>
    simp only [concludeRefresh, Process.bind_def, Process.bind_assoc]
    exact takesIn_logout toLogin fun _ => hk _

theorem always_conclude (toLogin : Bool) (r : Except AuthError StoredAuth)
    {k : Except AuthError String → Operation Unit} (hk : ∀ r, Quiet (k r)) (past) :
    ((auth.concludeRefresh toLogin r).bind k).Always (AtExchange auth c) past := by
  cases r with
  | ok a =>
    simp only [concludeRefresh, Process.bind_def, Process.bind_assoc]
    refine always_establish a (fun r => ?_) past
    cases r with
    | ok _ => exact fun _ => hk _
    | error _ => exact hk _
  | error e =>
    simp only [concludeRefresh, Process.bind_def, Process.bind_assoc]
    exact always_logout toLogin (fun _ => hk _) past

/-- A renewal carries out the verdict on its reply, whatever the session is by then. -/
theorem always_exchange (toLogin : Bool)
    (hc : ∀ own reply now, c.verdict auth own reply now = some (reply.toOption.bind fun r =>
      (ofTokenReply auth.settings now (own.refreshToken.getD "") r).toOption))
    {k : Except AuthError String → Operation Unit} (hk : ∀ r, Quiet (k r)) (past) :
    (auth.exchange.bind fun r => (auth.concludeRefresh toLogin r).bind k).Always
      (AtExchange auth c) past := by
  refine ⟨trivial, fun a => ?_⟩
  simp only [Process.pure_def, Process.done_bind]
  split
  · exact always_conclude toLogin _ hk _
  · rename_i refreshToken ha
    split
    · exact always_conclude toLogin _ hk _
    · obtain ⟨own, rfl, hown⟩ := Option.bind_eq_some_iff.mp ha
      refine ⟨⟨own, lastSeen_session past _, fun reply => ?_⟩, fun reply => ?_⟩
      · cases reply with
        | error f =>
          simp only [hc]
          exact takesIn_conclude toLogin _ hk
        | ok reply =>
          refine takesIn_now fun now => ?_
          simp only [hc, hown]
          exact takesIn_conclude toLogin _ hk
      · cases reply with
        | error f => exact always_conclude toLogin _ hk _
        | ok reply => exact ⟨trivial, fun now => always_conclude toLogin _ hk _⟩

theorem always_refreshWith (toLogin : Bool)
    (hc : ∀ own reply now, c.verdict auth own reply now = some (reply.toOption.bind fun r =>
      (ofTokenReply auth.settings now (own.refreshToken.getD "") r).toOption))
    {k : Except AuthError String → Operation Unit} (hk : ∀ r, Quiet (k r)) (past) :
    ((auth.refreshWith toLogin).bind k).Always (AtExchange auth c) past := by
  refine ⟨trivial, fun seen => ⟨trivial, fun ticket => ⟨trivial, fun _ => ⟨trivial, fun a =>
    ⟨trivial, fun now => ?_⟩⟩⟩⟩⟩
  simp only [Process.done_bind, Process.bind_def, Process.pure_def]
  cases a with
  | none =>
    simp only [Process.bind_assoc]
    exact always_exchange toLogin hc (k := fun r => .ask (.handBack ticket) fun _ => k r)
      (fun r _ => hk r) _
  | some current =>
    dsimp only
    split
    · exact ⟨trivial, fun _ => (hk _).always _⟩
    · simp only [Process.bind_assoc]
      exact always_exchange toLogin hc (k := fun r => .ask (.handBack ticket) fun _ => k r)
        (fun r _ => hk r) _

/-- A refused profile request ends the session; any other reply leaves it alone. -/
theorem fetchProfile_bind (auth : Auth) (endpoint token : String)
    {k : Except AuthError (Option Json) → Operation Unit} (hk : ∀ r, Quiet (k r)) :
    ∃ next : Except Fault Reply → Operation Unit,
      (auth.fetchProfile endpoint token).bind k = .ask (.send (profileRequest endpoint token)) next ∧
      ∀ reply : Except Fault Reply, if reply.toOption.any (·.status == 401) then
        ∃ k' : Except AuthError Unit → Operation Unit, (∀ r, Quiet (k' r)) ∧
          next reply = (auth.logout auth.settings.requiresAuth).bind k'
        else Quiet (next reply) := by
  refine ⟨_, rfl, fun reply => ?_⟩
  simp only [Process.done_bind, Process.bind_def, Process.pure_def]
  cases reply with
  | error f => exact hk _
  | ok reply =>
    by_cases h : reply.status = 401
    · simp only [h, Except.toOption, Option.any_some, beq_self_eq_true, ↓reduceIte,
        Process.bind_assoc]
      refine ⟨_, fun r => ?_, rfl⟩
      cases r <;> exact hk _
    · simp only [h, Except.toOption, Option.any_some, beq_iff_eq, ↓reduceIte]
      split
      · exact hk _
      · split
        · exact hk _
        · exact fun _ => hk _

theorem always_loadProfile (force : Bool)
    (hc : ∀ own reply now, c.verdict auth own reply now =
      if reply.toOption.any (·.status == 401) then some none else none)
    {k : Except AuthError (Option Json) → Operation Unit} (hk : ∀ r, Quiet (k r)) (past) :
    ((auth.loadProfile force).bind k).Always (AtExchange auth c) past := by
  simp only [loadProfile]
  split
  · exact (hk _).always past
  · rename_i endpoint _
    refine ⟨trivial, fun a => ?_⟩
    cases a with
    | none => exact (hk _).always _
    | some own =>
      refine ⟨trivial, fun kept => ?_⟩
      simp only [Process.done_bind, Process.pure_def]
      split
      · exact (hk _).always _
      · obtain ⟨next, h, hnext⟩ := auth.fetchProfile_bind endpoint own.token hk
        rw [h]
        have seen : lastSeen (past ++ [⟨.session, some own⟩] ++ [⟨.profile, kept⟩]) = some own := by
          simp [lastSeen]
        refine ⟨⟨own, seen, fun reply => ?_⟩, fun reply => ?_⟩
        · have := hnext reply
          simp only [hc]
          split at this
          · obtain ⟨k', hk', e⟩ := this
            rw [e, if_pos ‹_›]
            exact takesIn_logout _ hk'
          · rw [if_neg ‹_›]
            exact this.takesIn
        · have := hnext reply
          split at this
          · obtain ⟨k', hk', e⟩ := this
            rw [e]
            exact always_logout _ hk' _
          · exact this.always _

theorem always_login (token : String) (refreshToken : Option String) (expiresIn : Option Duration)
    {k : Except AuthError StoredAuth → Operation Unit} (hk : ∀ r, Quiet (k r)) (past) :
    ((auth.login token refreshToken expiresIn).bind k).Always (AtExchange auth c) past := by
  refine ⟨trivial, fun now => ?_⟩
  simp only [Process.done_bind, Process.bind_def, Process.pure_def, Process.bind_assoc]
  refine always_establish _ (fun r => ?_) _
  cases r with
  | error e => exact hk _
  | ok _ => exact fun _ _ => hk _

theorem always_perform (auth : Auth) (c : Call) :
    (auth.perform c).Always (AtExchange auth c) [] := by
  cases c with
  | login token refreshToken expiresIn =>
    exact always_login (k := fun _ => .done ()) token refreshToken expiresIn (fun _ => trivial) []
  | logout toLogin => exact always_logout (k := fun _ => .done ()) toLogin (fun _ => trivial) []
  | refresh =>
    exact always_refreshWith (k := fun _ => .done ()) _ (fun _ _ _ => rfl) (fun _ => trivial) []
  | refreshForRequest =>
    simp only [perform, refreshForRequest, Process.bind_def, Process.bind_assoc]
    exact always_refreshWith (k := fun _ => .done ()) _ (fun _ _ _ => rfl) (fun _ => trivial) []
  | loadProfile force =>
    exact always_loadProfile (k := fun _ => .done ()) force (fun _ _ _ => rfl) (fun _ => trivial) []

/-! ### Ownership -/

/-- The reply to an exchange changes the session only if it is still the one for which the exchange
was begun. -/
def OwnsExchanges (auth : Auth) : Prop :=
  ∀ s₀ p p' i t r next reply, surroundings.Reachable auth.perform s₀ p → p.threads[i]? = some t →
    t.process = .ask (.send r) next → surroundings.Resumes i (.send r) reply p p' →
    p'.state.current ≠ p.state.current → p.state.current = lastSeen t.past

/-- What a waiting operation is told makes of the session what its verdict says, of whatever session
there is by then. -/
theorem resumes_send_iff {auth : Auth} {s₀ : SessionPart} {p i t r next}
    (reach : surroundings.Reachable auth.perform s₀ p) (here : p.threads[i]? = some t)
    (live : t.abandoned = false) (waits : t.process = .ask (.send r) next) :
    ∃ own, lastSeen t.past = some own ∧ ∀ reply x,
      (∃ p', surroundings.Resumes i (.send r) reply p p' ∧ p'.state.current = x) ↔
        ∃ now, x = (t.call.verdict auth own reply now).getD p.state.current := by
  have at_ := (reach.always (always_perform auth) t (List.mem_of_getElem? here)).here
  rw [waits] at at_
  obtain ⟨own, seen, takes⟩ := at_
  refine ⟨own, seen, fun reply x => ?_⟩
  rw [← takes reply p.state (t.past ++ [⟨.send r, reply⟩]) x]
  constructor
  · rintro ⟨p', h, hx⟩
    obtain ⟨s₁, s₂, q, past, ha, runs, rfl⟩ := (Surroundings.resumes_iff here live waits).mp h
    rw [show s₁ = p.state from ha] at runs
    exact ⟨s₂, q, past, runs, hx⟩
  · rintro ⟨s₂, q, past, runs, hx⟩
    exact ⟨_, (Surroundings.resumes_iff here live waits).mpr ⟨_, s₂, q, past, rfl, runs, rfl⟩, hx⟩

/-! ### A login that comes in between -/

/-- Saving asks the store once, and succeeds if the store does. -/
theorem save_ask (auth : Auth) (a : StoredAuth) (now : Int) :
    ∃ q next, auth.save a now = .ask (.store q) next ∧ ∃ b, next b = .done (.ok ()) := by
  simp only [save]
  split
  · exact ⟨_, _, rfl, .ok true, rfl⟩
  · exact ⟨_, _, rfl, .ok (), rfl⟩

/-- What a login does when the session has been stored, or could not be. -/
def loggedIn (a : StoredAuth) : Except AuthError Unit → Operation (Except AuthError StoredAuth)
  | .error e => return .error e
  | .ok () => do
    ask (.setProfile none)
    ask (.emit (.loggedIn a.expiresAt))
    return .ok a

theorem login_bind (auth : Auth) (token : String) {k : Except AuthError StoredAuth → Operation Unit} :
    ∃ k' : StoredAuth → Except AuthError Unit → Operation Unit,
      ((auth.login token none none).bind k = .ask .now fun now =>
        .ask (.setSession (some (record auth.settings now token none none))) fun _ =>
          .ask .now fun later => (auth.save (record auth.settings now token none none) later).bind
            (k' (record auth.settings now token none none))) ∧
      ∀ a, k' a (.ok ()) =
        .ask (.setProfile none) fun _ => .ask (.emit (.loggedIn a.expiresAt)) fun _ => k (.ok a) := by
  refine ⟨fun a r => (loggedIn a r).bind k, ?_, fun _ => rfl⟩
  simp only [login, establish, Process.bind_def, Process.bind_assoc]
  rfl

theorem loadProfile_waits {auth : Auth} {endpoint : String}
    (connects : (auth.settings.profileEndpoint.filter fun _ => auth.connected) = some endpoint)
    {s : SessionPart} {own : StoredAuth} (hs : s.current = some own) (hp : s.profile = none) :
    ∃ next past, surroundings.Runs s (auth.perform (.loadProfile false)) [] s
      (.ask (.send (profileRequest endpoint own.token)) next) past ∧ lastSeen past = some own := by
  obtain ⟨next, h, -⟩ := auth.fetchProfile_bind endpoint own.token
    (k := fun _ => .done ()) fun _ => trivial
  refine ⟨next, [⟨.session, some own⟩, ⟨.profile, none⟩], ?_, rfl⟩
  simp only [perform, loadProfile, connects]
  refine .answered rfl ⟨hs.symm, rfl⟩ (.answered rfl ⟨hp.symm, rfl⟩ ?_)
  exact h ▸ .suspended rfl ..

/-- A login waits for the store with its session in memory, and is done once the store has kept it. -/
theorem login_waits (auth : Auth) (token : String) (s : SessionPart) :
    ∃ q next past b, surroundings.Runs s (auth.perform (.login token none none)) []
        { s with current := some (record auth.settings 0 token none none) }
        (.ask (.store q) next) past ∧
      ∀ s past, ∃ s' past', surroundings.Runs s (next b) past s' (.done ()) past' ∧
        s'.current = s.current := by
  obtain ⟨k, hlogin, hk⟩ := login_bind auth token (k := fun _ => .done ())
  obtain ⟨q, rest, hsave, b, hb⟩ := save_ask auth (record auth.settings 0 token none none) 0
  refine ⟨q, fun x => (rest x).bind (k (record auth.settings 0 token none none)),
    [⟨.now, (0 : Int)⟩, ⟨.setSession (some (record auth.settings 0 token none none)), ()⟩,
      ⟨.now, (0 : Int)⟩], b, ?_, fun s past => ?_⟩
  · rw [show auth.perform (.login token none none) = _ from hlogin]
    refine .answered (a := (0 : Int)) rfl rfl
      (.answered (a := ()) rfl rfl (.answered (a := (0 : Int)) rfl rfl ?_))
    rw [hsave]
    exact .suspended rfl ..
  · dsimp only
    rw [hb, Process.done_bind, hk]
    exact ⟨_, _, .answered (a := ()) rfl rfl (.answered (a := ()) rfl rfl (.done ..)), rfl⟩

/-- While a profile request waits for its reply, a login may be carried through. -/
theorem login_overtakes {auth : Auth} {endpoint : String}
    (connects : (auth.settings.profileEndpoint.filter fun _ => auth.connected) = some endpoint)
    {s : SessionPart} {own : StoredAuth} (hs : s.current = some own) (hp : s.profile = none)
    (token : String) :
    ∃ p past next past', surroundings.Reachable auth.perform s p ∧
      p.threads[0]? = some ⟨.loadProfile false,
        .ask (.send (profileRequest endpoint own.token)) next, past, false⟩ ∧
      lastSeen past = some own ∧
      p.threads[1]? = some ⟨.login token none none, .done (), past', false⟩ ∧
      p.state.current = some (record auth.settings 0 token none none) := by
  obtain ⟨next, past, loads, seen⟩ := loadProfile_waits connects hs hp
  obtain ⟨q, rest, past', b, begins, ends⟩ := login_waits auth token s
  have waiting : surroundings.Reachable auth.perform s
      ⟨{ s with current := some (record auth.settings 0 token none none) },
        [⟨.loadProfile false, .ask (.send (profileRequest endpoint own.token)) next, past, false⟩,
          ⟨.login token none none, .ask (.store q) rest, past', false⟩]⟩ :=
    .tail (.single (.begin _ loads)) (.begin _ begins)
  obtain ⟨s', past'', ends, hs'⟩ := ends _ (past' ++ [⟨.store q, b⟩])
  exact ⟨_, past, next, past'', waiting.tail (.resume (i := 1) (.mk rfl rfl rfl rfl ends)),
    rfl, seen, rfl, hs'⟩

/-- Where there is a profile to load, its refusal may come when someone else has logged in. -/
theorem not_ownsExchanges_of_profile {auth : Auth} {endpoint : String}
    (connects : (auth.settings.profileEndpoint.filter fun _ => auth.connected) = some endpoint) :
    ¬ OwnsExchanges auth := by
  intro owns
  let s₀ : SessionPart :=
    { auth, slot := .session, epoch := 0, moves := false, current := some { token := "first" } }
  obtain ⟨p, past, next, _, reach, here, seen, -, current⟩ :=
    login_overtakes connects (s := s₀) rfl rfl "second"
  obtain ⟨own, -, takes⟩ := resumes_send_iff reach here rfl rfl
  obtain ⟨p', resumes, ended⟩ := (takes (.ok { status := 401 }) none).mpr ⟨0, rfl⟩
  have same := owns _ _ _ _ _ _ _ _ reach here rfl resumes (by simp [ended, current])
  rw [seen, current] at same
  simp [record] at same

theorem not_ownsExchanges : ¬ OwnsExchanges
    { settings := { profileEndpoint := some "https://api.example.com/me" }
      storage := { key := "weft:auth" } } :=
  not_ownsExchanges_of_profile rfl

/-! ### Ownership, reply by reply -/

theorem exchange_respects_session_iff {auth : Auth} {s₀ : SessionPart} {p i t r next}
    (reach : surroundings.Reachable auth.perform s₀ p) (here : p.threads[i]? = some t)
    (live : t.abandoned = false) (waits : t.process = .ask (.send r) next)
    (reply : Except Fault Reply) :
    ∃ own, lastSeen t.past = some own ∧
      ((∀ p', surroundings.Resumes i (.send r) reply p p' →
          p'.state.current ≠ p.state.current → p.state.current = some own) ↔
        p.state.current = some own ∨
          ∀ now, (t.call.verdict auth own reply now).getD p.state.current = p.state.current) := by
  obtain ⟨own, seen, takes⟩ := resumes_send_iff reach here live waits
  refine ⟨own, seen, ?_⟩
  constructor
  · intro owns
    by_cases same : p.state.current = some own
    · exact .inl same
    · refine .inr fun now => ?_
      obtain ⟨p', h, hx⟩ := (takes reply _).mpr ⟨now, rfl⟩
      refine Classical.byContradiction fun changed => same (owns p' h ?_)
      rwa [hx]
  · rintro (same | still) p' h changed
    · exact same
    · obtain ⟨now, hx⟩ := (takes reply _).mp ⟨p', h, rfl⟩
      exact absurd (hx.trans (still now)) changed

/-- A profile request that a login has overtaken must not be refused. -/
theorem exchange_respects_session_overtaken :
    ∃ (auth : Auth) (p : Pool interface SessionPart Call Unit) (t : _) (r : _) (own : _),
      p.threads[0]? = some t ∧ (∃ next, t.process = .ask (.send r) next) ∧
      lastSeen t.past = some own ∧ p.state.current ≠ some own ∧ p.state.current ≠ none ∧
      ∀ reply : Except Fault Reply,
        (∀ p', surroundings.Resumes 0 (.send r) reply p p' →
            p'.state.current ≠ p.state.current → p.state.current = some own) ↔
          ∀ now, ((Call.loadProfile false).verdict auth own reply now).getD p.state.current =
            p.state.current := by
  let auth : Auth := { settings := { profileEndpoint := some "https://api.example.com/me" }
                       storage := { key := "weft:auth" } }
  let s₀ : SessionPart :=
    { auth, slot := .session, epoch := 0, moves := false, current := some { token := "first" } }
  have connects : (auth.settings.profileEndpoint.filter fun _ => auth.connected) =
      some "https://api.example.com/me" := rfl
  obtain ⟨p, past, next, _, reach, here, seen, -, current⟩ :=
    login_overtakes connects (s := s₀) rfl rfl "second"
  have other : p.state.current ≠ some { token := "first" } := by simp [current, record]
  refine ⟨auth, p, _, _, _, here, ⟨next, rfl⟩, seen, other, by simp [current], fun reply => ?_⟩
  obtain ⟨own, seen', respects⟩ := exchange_respects_session_iff reach here rfl rfl reply
  obtain rfl : own = { token := "first" } := Option.some.inj (seen'.symm.trans seen)
  rw [respects]
  exact or_iff_right other

end ScreenFlow.Auth
