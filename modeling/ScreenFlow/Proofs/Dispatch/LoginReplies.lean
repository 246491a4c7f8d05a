import ScreenFlow.Proofs.Auth.Ownership
import ScreenFlow.Proofs.Dispatch.Received

/-!
# What becomes of the reply to a login

A handler that looks like a login begins a session with the tokens of its result. It looks for them in
the result as it is after the mapping, not in the body of the reply.

* `Auth.session_of_login`: a login makes its tokens the session, whatever the store says to that;
* `SessionAnswers`: what the questions of a handler do to the session;
* `login_starts_iff`: the session begins with the tokens of the reply exactly if the mapped result
  still has them;
* `not_startsSession`: a mapping that leaves them out leaves the user logged out.
-/

namespace ScreenFlow

open Simulation (SessionPart)

/-! ### Logins -/

namespace Auth

variable {s s' : SessionPart}

/-- What is quiet leaves the session as it is. -/
theorem Quiet.leads {α : Type} {p : Operation α} (hp : Quiet p) {a : α}
    (leads : surroundings.Leads p s a s') : s'.current = s.current := by
  induction p generalizing s with
  | done b =>
    obtain ⟨-, rfl⟩ := Surroundings.leads_done_iff.mp leads
    rfl
  | ask q next ih =>
    obtain ⟨x, s₁, answered, leads⟩ := Surroundings.leads_ask_iff.mp leads
    cases q with
    | send | setSession => exact hp.elim
    | session | profile | takeTicket | turn => rw [ih x (hp x) leads, answered.2]
    | setProfile | handBack | emit | store | now | toLogin =>
      rw [ih x (hp x) leads, show s₁ = _ from answered]

/-- The session is there before it is stored, so it is there in any case. -/
theorem session_of_login {auth : Auth} {token : String} {refreshToken : Option String}
    {expiresIn : Option Duration} {result : Except AuthError StoredAuth}
    (leads : surroundings.Leads (auth.login token refreshToken expiresIn) s result s') :
    ∃ now, s'.current = some (record auth.settings now token refreshToken expiresIn) := by
  have begins : auth.login token refreshToken expiresIn = .ask .now fun now =>
      (auth.establish (record auth.settings now token refreshToken expiresIn)).bind
        (loggedIn (record auth.settings now token refreshToken expiresIn)) := rfl
  rw [begins] at leads
  obtain ⟨now, s₁, -, leads⟩ := Surroundings.leads_ask_iff.mp leads
  obtain ⟨next, establishes, quiet⟩ := auth.establish_bind
    (record auth.settings now token refreshToken expiresIn) (k := loggedIn _)
    (fun r => by cases r <;> simp [loggedIn, Quiet, ask, Process.call, Process.bind_def,
      Process.pure_def])
  rw [establishes] at leads
  obtain ⟨_, s₂, set, leads⟩ := Surroundings.leads_ask_iff.mp leads
  exact ⟨now, (quiet.leads leads).trans (congrArg (·.current) set)⟩

end Auth

/-! ### The session of a handler -/

namespace Dispatch

variable {d : Dispatcher} {i : Invocation} {c : Context} {depth : Nat} {spec : ActionSpec}
  {v mapped body : Json} {history first rest : List (Happening interface)} {s s₁ s' : SessionPart}
  {r : Run} {reply : Reply}

/-- What a question of a handler does to the session. While a main action is under way the session
can become anything. -/
def SessionAnswers : SessionPart → (q : Ask) → Answer q → SessionPart → Prop
  | s, .act .., _, s' => s'.auth = s.auth
  | s, .logIn t, begun, s' => ∃ result,
    Auth.surroundings.Leads (s.auth.login t.token t.refreshToken t.expiresIn) s result s' ∧
      begun = result.toOption.isSome
  | s, .logOut toLogin, _, s' => ∃ result,
    Auth.surroundings.Leads (s.auth.logout toLogin) s result s'
  | s, _, _, s' => s' = s

/-- A session that nobody else changes between the main actions. -/
def sessionSurroundings : Surroundings interface SessionPart where
  suspends
    | .act .. | .logIn _ | .logOut _ => true
    | _ => false
  answers := SessionAnswers

/-- The logins that were tried, in order. -/
def logins (history : List (Happening interface)) : List LoginTokens :=
  history.filterMap fun
    | ⟨.logIn t, _⟩ => some t
    | _ => none

@[simp] theorem logins_append (first rest : List (Happening interface)) :
    logins (first ++ rest) = logins first ++ logins rest := List.filterMap_append

theorem Plain.session {α : Type} {o : Operation α} {a : α} (h : Plain o)
    (ends : o.Ends history a) (allows : sessionSurroundings.Allows s history s') :
    logins history = [] ∧ s' = s := by
  induction ends generalizing s with
  | done => exact ⟨rfl, Surroundings.allows_nil_iff.mp allows⟩
  | @asked q next x later a _ ih =>
    obtain ⟨s₁, here, going⟩ := Surroundings.allows_cons_iff.mp allows
    obtain ⟨unsigned, rfl⟩ := ih (h.2 x) going
    have plain : Ask.isPlain q = true := h.1
    cases q with
    | snapshot | setState | host | evaluate => exact ⟨unsigned, here⟩
    | _ => cases plain

/-- Up to its result, a main action leaves the session to itself. -/
theorem main_session {result : Except Fault Json} (ends : (main spec c).Ends history result)
    (allows : sessionSurroundings.Allows s history s') :
    logins history = [] ∧ s'.auth = s.auth := by
  obtain ⟨stopped, later, rfl, after⟩ := Process.ends_ask_iff.mp ends
  obtain ⟨s₁, rfl, going⟩ := Surroundings.allows_cons_iff.mp allows
  cases stopped with
  | true =>
    obtain ⟨rfl, -⟩ := Process.ends_done_iff.mp after
    exact ⟨rfl, congrArg (·.auth) (Surroundings.allows_nil_iff.mp going)⟩
  | false =>
    obtain ⟨came, later, rfl, closed⟩ := Process.ends_ask_iff.mp after
    obtain ⟨rfl, -⟩ := Process.ends_done_iff.mp closed
    obtain ⟨s₂, same, going⟩ := Surroundings.allows_cons_iff.mp going
    rw [Surroundings.allows_nil_iff.mp going]
    exact ⟨rfl, same⟩

theorem opening_nil : opening d i c depth spec [] = (do
    applyPatches d c spec.optimistic
    let result ← main spec c
    return ([.idle, .executing], result)) := by
  rw [opening, runAll]
  rfl

theorem opening_session {result : List Phase × Except Fault Json}
    (ends : (opening d i c depth spec []).Ends history result)
    (allows : sessionSurroundings.Allows s history s') :
    logins history = [] ∧ s'.auth = s.auth := by
  rw [opening_nil] at ends
  obtain ⟨patching, ⟨⟩, later, rfl, patches, ends⟩ := Process.ends_bind_iff.mp ends
  obtain ⟨acting, came, closing, rfl, acts, ends⟩ := Process.ends_bind_iff.mp ends
  obtain ⟨rfl, -⟩ := Process.ends_done_iff.mp ends
  obtain ⟨s₁, begun, going⟩ := Surroundings.allows_append_iff.mp allows
  obtain ⟨unsigned, rfl⟩ := (plain_applyPatches d c spec.optimistic).session patches begun
  rw [List.append_nil] at going ⊢
  obtain ⟨still, same⟩ := main_session acts going
  exact ⟨by rw [logins_append, unsigned, still]; rfl, same⟩

/-- What a login leaves behind. -/
def Records (s s' : SessionPart) (t : LoginTokens) : Prop :=
  ∃ now, s'.current = some
    (Auth.record s.auth.settings now t.token t.refreshToken t.expiresIn)

/-- A login begins a session with the tokens that the result shows. -/
theorem session_of_updateSession {u : Unit} (session : d.hasSession = true)
    (login : SessionEffect.ofAction spec (d.sourceName i spec) = .login)
    (ends : (updateSession d i spec v).Ends history u)
    (allows : sessionSurroundings.Allows s history s') :
    logins history = (LoginTokens.ofResult? v).toList ∧
      ∀ t, LoginTokens.ofResult? v = some t → Records s s' t := by
  simp only [updateSession, session, login, Bool.not_true, Bool.false_eq_true, if_false] at ends
  cases shown : LoginTokens.ofResult? v with
  | none =>
    rw [shown] at ends
    obtain ⟨rfl, -⟩ := Process.ends_done_iff.mp ends
    exact ⟨rfl, nofun⟩
  | some tokens =>
    rw [shown] at ends
    obtain ⟨begun, later, rfl, after⟩ := Process.ends_ask_iff.mp ends
    obtain ⟨s₁, ⟨result, leads, -⟩, going⟩ := Surroundings.allows_cons_iff.mp allows
    have redirects : logins later = [] ∧ s' = s₁ := by
      cases begun with
      | true => exact (plain_host _).session after going
      | false => exact (plain_pure ()).session after going
    obtain ⟨unsigned, rfl⟩ := redirects
    refine ⟨?_, fun t same => ?_⟩
    · change tokens :: logins later = [tokens]
      rw [unsigned]
    · obtain rfl := Option.some.inj same
      exact Auth.session_of_login leads

/-- A logout begins no session. -/
theorem logins_of_logout {u : Unit}
    (logout : SessionEffect.ofAction spec (d.sourceName i spec) = .logout)
    (ends : (updateSession d i spec v).Ends history u) : logins history = [] := by
  unfold updateSession at ends
  split at ends
  · obtain ⟨rfl, -⟩ := Process.ends_done_iff.mp ends
    rfl
  · rw [logout] at ends
    obtain ⟨_, later, rfl, after⟩ := Process.ends_ask_iff.mp ends
    rw [ends_host_iff.mp after]
    cases d.settings.postLogoutRedirect <;> rfl

theorem plain_confirm : Plain (confirm d spec c v) :=
  (plain_confirmation d spec c v).bind fun _ => plain_host _

/-! ### A handler without sub-handlers -/

theorem conclude_ok (visited : List Phase) :
    conclude d i c depth spec [] [] [] (visited, .ok v) = (do
      let (v, c) ← succeed d i spec c v
      transition d c spec.successTransition
      return ⟨visited ++ [.success] ++ [.finally_] ++ [.done], .ok v⟩) := by
  simp only [conclude, runAll]
  rfl

theorem conclude_error (visited : List Phase) {f : Fault} (other : f ≠ .cancelled) :
    conclude d i c depth spec [] [] [] (visited, .error f) = (do
      let c ← fail d spec c f
      transition d c spec.errorTransition
      return ⟨visited ++ [.error] ++ [.finally_] ++ [.done], .error f⟩) := by
  cases f with
  | cancelled => exact absurd rfl other
  | _ =>
    simp only [conclude, runAll]
    rfl

/-- A failure begins no session. -/
theorem session_of_failure {visited : List Phase} {f : Fault}
    (ends : (conclude d i c depth spec [] [] [] (visited, .error f)).Ends rest r)
    (allows : sessionSurroundings.Allows s rest s') :
    logins rest = [] ∧ ∃ f', r.result = .error f' := by
  by_cases cancelled : f = .cancelled
  · subst cancelled
    obtain ⟨rfl, rfl⟩ := Process.ends_done_iff.mp ends
    exact ⟨rfl, _, rfl⟩
  · rw [conclude_error visited cancelled] at ends
    obtain ⟨failing, c', later, rfl, fails, ends⟩ := Process.ends_bind_iff.mp ends
    obtain ⟨moving, ⟨⟩, closing, rfl, moves, ends⟩ := Process.ends_bind_iff.mp ends
    obtain ⟨rfl, rfl⟩ := Process.ends_done_iff.mp ends
    obtain ⟨s₁, begun, going⟩ := Surroundings.allows_append_iff.mp allows
    rw [List.append_nil] at going ⊢
    obtain ⟨unsigned, -⟩ := (plain_fail d spec c f).session fails begun
    obtain ⟨still, -⟩ := (plain_transition d c' spec.errorTransition).session moves going
    exact ⟨by rw [logins_append, unsigned, still]; rfl, f, rfl⟩

/-- What a handler makes of a value, if there is something to be done with it. -/
def Mapped (spec : ActionSpec) (v mapped : Json) : Prop :=
  Skips spec v ∧ mapped = v ∨
    ∃ response, spec.response = some response ∧ ResultMapping.Maps response.mapping v mapped

theorem mapped_of_bindResult (ends : (bindResult d spec c v).Ends history mapped) :
    Mapped spec v mapped := by
  by_cases skips : Skips spec v
  · rw [bindResult_skips skips] at ends
    obtain ⟨-, rfl⟩ := Process.ends_done_iff.mp ends
    exact .inl ⟨skips, rfl⟩
  · cases handles : spec.response with
    | none => exact absurd (.inl handles) skips
    | some response =>
      exact .inr ⟨response, handles, (binds_of_bindResult handles skips ends).maps⟩

/-- What a handler does with a value: the result that it shows, and the session after it. -/
structure Concluded (d : Dispatcher) (i : Invocation) (spec : ActionSpec) (v mapped : Json)
    (rest : List (Happening interface)) (s s' : SessionPart) : Prop where
  maps : Mapped spec v mapped
  signs : ∃ signing, (updateSession d i spec mapped).Ends signing () ∧
    sessionSurroundings.Allows s signing s' ∧ logins rest = logins signing

theorem concluded_of_success {visited : List Phase}
    (ends : (conclude d i c depth spec [] [] [] (visited, .ok v)).Ends rest r)
    (allows : sessionSurroundings.Allows s rest s') :
    ∃ mapped, r.result = .ok mapped ∧ Concluded d i spec v mapped rest s s' := by
  rw [conclude_ok] at ends
  obtain ⟨own, ⟨mapped, c'⟩, later, rfl, succeeds, ends⟩ := Process.ends_bind_iff.mp ends
  obtain ⟨moving, ⟨⟩, closing, rfl, moves, ends⟩ := Process.ends_bind_iff.mp ends
  obtain ⟨rfl, rfl⟩ := Process.ends_done_iff.mp ends
  obtain ⟨binding, signing, telling, rfl, binds, signs, tells⟩ := succession_of_succeed succeeds
  obtain ⟨s₁, begun, closes⟩ := Surroundings.allows_append_iff.mp allows
  obtain ⟨s₂, bound, going⟩ := Surroundings.allows_append_iff.mp begun
  obtain ⟨s₃, signed, told⟩ := Surroundings.allows_append_iff.mp going
  rw [List.append_nil] at closes ⊢
  -- The login is in the middle, and what comes before and after it has to do with the state alone.
  obtain ⟨unbound, rfl⟩ := (plain_bindResult d spec c v).session binds bound
  obtain ⟨untold, rfl⟩ := plain_confirm.session tells told
  obtain ⟨unmoved, rfl⟩ := (plain_transition d c' spec.successTransition).session moves closes
  refine ⟨mapped, rfl, mapped_of_bindResult binds, signing, signs, signed, ?_⟩
  simp only [logins_append, unbound, untold, unmoved, List.nil_append, List.append_nil]

/-! ### Login replies -/

/-- What looks like a login: the name of its data source, or its mark. -/
def LoginShaped (spec : ActionSpec) (sourceName : String) : Prop :=
  Text.contains sourceName "logout" = false ∧
    (Text.contains sourceName "login" = true ∨ Text.contains sourceName "register" = true ∨
      spec.isLogin = true ∧ spec.isLogout = false)

theorem ofAction_of_loginShaped {sourceName : String} (shaped : LoginShaped spec sourceName) :
    SessionEffect.ofAction spec sourceName = if spec.isLogout then .logout else .login := by
  obtain ⟨other, named⟩ := shaped
  cases out : spec.isLogout with
  | true => simp [SessionEffect.ofAction, out]
  | false =>
    have login : (spec.isLogin || Text.contains sourceName "login" ||
        Text.contains sourceName "register") = true := by
      rcases named with login | register | ⟨marked, -⟩
      · simp [login]
      · simp [register]
      · simp [marked]
    simp [SessionEffect.ofAction, out, other, login]

/-- What the data source of a handler makes of a body: an envelope is opened. -/
def Opened (d : Dispatcher) (i : Invocation) (spec : ActionSpec) (body v : Json) : Prop :=
  ∃ id source, spec.dataSourceId = some id ∧ d.registry.find i.own id = .ok source ∧
    (if source.isGraphql then GraphqlCall.openEnvelope body else .ok body) = .ok v

/-- The session was begun with these tokens, once, and is theirs in the end. -/
structure Starts (s s' : SessionPart) (history : List (Happening interface)) (t : LoginTokens) :
    Prop where
  once : logins history = [t]
  session : Records s s' t

/-- What happens before the first login does not matter. -/
theorem starts_of_unsigned {t : LoginTokens} (unsigned : logins first = [])
    (same : s₁.auth = s.auth) : Starts s s' (first ++ rest) t ↔ Starts s₁ s' rest t := by
  have only : logins (first ++ rest) = logins rest := by
    rw [logins_append, unsigned, List.nil_append]
  have records : Records s s' t ↔ Records s₁ s' t := by rw [Records, Records, same]
  constructor
  · rintro ⟨once, session⟩
    exact ⟨only ▸ once, records.mp session⟩
  · rintro ⟨once, session⟩
    exact ⟨only ▸ once, records.mpr session⟩

/-- What looks like a login begins a session with the tokens of the result, unless it is marked as a
logout. -/
theorem Concluded.starts_iff {t : LoginTokens} (h : Concluded d i spec v mapped rest s s')
    (session : d.hasSession = true) (shaped : LoginShaped spec (d.sourceName i spec)) :
    Starts s s' rest t ↔ spec.isLogout = false ∧ LoginTokens.ofResult? mapped = some t := by
  obtain ⟨-, signing, signs, signed, all⟩ := h
  have effect := ofAction_of_loginShaped shaped
  cases out : spec.isLogout with
  | true =>
    refine iff_of_false (fun starts => ?_) (by simp)
    have once := starts.once
    rw [all, logins_of_logout (by rw [effect, out]; rfl) signs] at once
    cases once
  | false =>
    obtain ⟨tried, leaves⟩ :=
      session_of_updateSession session (by rw [effect, out]; rfl) signs signed
    constructor
    · rintro ⟨once, -⟩
      rw [all, tried] at once
      cases shown : LoginTokens.ofResult? mapped with
      | none =>
        rw [shown] at once
        cases once
      | some t' =>
        rw [shown] at once
        exact ⟨rfl, congrArg some (List.singleton_inj.mp once)⟩
    · rintro ⟨-, shown⟩
      refine ⟨?_, leaves t shown⟩
      rw [all, tried, shown]
      rfl

theorem value_of_json {graphql : Bool} {expected : Option ResponseType}
    (json : reply.decode expected = .json body) : reply.value graphql expected =
      if graphql then GraphqlCall.openEnvelope body else .ok body := by
  rw [Reply.value, json]
  cases graphql with
  | false => rfl
  | true =>
    simp only [↓reduceIte, GraphqlCall.openBody]
    cases GraphqlCall.openEnvelope body <;> rfl

/-- A handler that looks like a login begins a session with the tokens of the reply exactly if it is
not marked as a logout and what it makes of the body still shows the same tokens. -/
theorem login_starts_iff (d : Dispatcher) (i : Invocation) (c : Context) (depth : Nat)
    (spec : ActionSpec) (session : d.hasSession = true)
    (shaped : LoginShaped spec (d.sourceName i spec)) (reply : Reply)
    (first rest : List (Happening interface)) (r : Run)
    (received : Received d i c depth (.node spec [] [] [] []) reply first rest r) (body : Json)
    (json : reply.decode spec.wanted = .json body) (tokens : LoginTokens)
    (carries : LoginTokens.ofResult? body = some tokens) (s s' : SessionPart)
    (allows : sessionSurroundings.Allows s (first ++ rest) s') :
    Starts s s' (first ++ rest) tokens ↔ spec.isLogout = false ∧
      ∃ v mapped, Opened d i spec body v ∧ Mapped spec v mapped ∧ r.result = .ok mapped ∧
        LoginTokens.ofResult? mapped = LoginTokens.ofResult? body := by
  obtain ⟨id, source, visited, named, found, concludes⟩ := received.concludes
  obtain ⟨-, -, _, _, _, _, opens, -, -⟩ := received
  change (conclude d i c depth spec [] [] []
    (visited, reply.value source.isGraphql spec.wanted)).Ends rest r at concludes
  rw [value_of_json json] at concludes
  obtain ⟨s₁, begun, going⟩ := Surroundings.allows_append_iff.mp allows
  obtain ⟨unsigned, same⟩ := opening_session opens begun
  rw [carries, starts_of_unsigned unsigned same]
  cases opened : (if source.isGraphql then GraphqlCall.openEnvelope body else .ok body) with
  | error f =>
    rw [opened] at concludes
    obtain ⟨none, f', failed⟩ := session_of_failure concludes going
    refine iff_of_false (fun starts => ?_) ?_
    · have once := starts.once
      rw [none] at once
      cases once
    · rintro ⟨-, _, mapped, -, -, succeeded, -⟩
      cases failed.symm.trans succeeded
  | ok v =>
    rw [opened] at concludes
    obtain ⟨mapped, result, concluded⟩ := concluded_of_success concludes going
    rw [concluded.starts_iff session shaped]
    constructor
    · rintro ⟨unmarked, shown⟩
      have opens : Opened d i spec body v := ⟨id, source, named, found, opened⟩
      exact ⟨unmarked, v, mapped, opens, concluded.maps, result, shown⟩
    · rintro ⟨unmarked, _, mapped', -, -, result', shown⟩
      obtain rfl : mapped' = mapped := Except.ok.inj (result'.symm.trans result)
      exact ⟨unmarked, shown⟩

/-- Where users log in. -/
def portal : DataSource where
  id := "login"
  path := "https://a/login"

def guarded : Dispatcher where
  hasSession := true

def door : Invocation where
  id := "i"
  own := [portal]

/-- An action that logs in and maps the result like this. -/
def entering (mapping : Option ResultMapping) : ActionSpec where
  action := .apiCall
  dataSourceId := some "login"
  response := some { mapping }

def loginRequest : Request where
  dataSourceId := "login"
  method := .get
  url := "https://a/login"

/-- What the server grants. -/
def granted : Json := .obj [("token", .str "t"), ("user", .str "ada")]

def grantedText : String := "\x7b\"token\":\"t\",\"user\":\"ada\"\x7d"

def tokens : LoginTokens := ⟨"t", none, none⟩

theorem decode_granted : (replying grantedText).decode none = .json granted := by
  decide +kernel

theorem shaped_entering (mapping : Option ResultMapping) :
    LoginShaped (entering mapping) (guarded.sourceName door (entering mapping)) := by
  have name : guarded.sourceName door (entering mapping) = "login" := by
    change guarded.sourceName door (entering none) = "login"
    decide +kernel
  rw [name]
  exact ⟨by decide +kernel, .inl (by decide +kernel)⟩

theorem received_entering {mapping : Option ResultMapping}
    (runs : (run guarded door (.ofEvent .null) 1 (.node (entering mapping) [] [] [] [])).Ends
      (⟨.cancelled, false⟩ :: ⟨.act (entering mapping) (.ofEvent .null), .ok granted⟩ :: rest) r) :
    Received guarded door (.ofEvent .null) 1 (.node (entering mapping) [] [] [] [])
      (replying grantedText)
      [⟨.cancelled, false⟩, ⟨.act (entering mapping) (.ofEvent .null), .ok granted⟩] rest r := by
  have resolves : ({} : Resolver).resolve (portal.forAction .apiCall) {}
      ((Context.ofEvent .null).scope .null) none = .ok loginRequest :=
    ok_of_toOption (by decide +kernel)
  have plain : (Action.Situation.mk guarded door (entering mapping) (.ofEvent .null)).perform =
      (Action.Situation.mk guarded door (entering mapping) (.ofEvent .null)).send none := rfl
  have performs := Action.Situation.ends_of_resolve plain portal rfl rfl resolves
    { status := 200, body := .json granted }
  refine received_at_once rfl rfl decode_granted performs ?_ runs
  iterate 3 apply Process.Ends.asked
  exact .done _

theorem received_unmapped :
    Received guarded door (.ofEvent .null) 1 (.node (entering none) [] [] [] [])
      (replying grantedText)
      [⟨.cancelled, false⟩, ⟨.act (entering none) (.ofEvent .null), .ok granted⟩]
      [⟨.logIn tokens, true⟩] ⟨[.idle, .executing, .success, .finally_, .done], .ok granted⟩ := by
  refine received_entering ?_
  iterate 3 apply Process.Ends.asked
  exact .done _

/-- Nobody is logged in. -/
def vacant : SessionPart where
  auth := { storage := { key := "session" } }
  slot := .session
  epoch := 0
  moves := false

/-- The session of the token, from a time of nought on. -/
def tokenSession : StoredAuth := Auth.record {} 0 "t" none none

/-- Somebody has logged in. -/
def occupied : SessionPart :=
  { vacant with
    current := some tokenSession
    events := vacant.events.send (.loggedIn tokenSession.expiresAt) }

theorem vacant_login : Auth.surroundings.Leads (vacant.auth.login "t" none none) vacant
    (.ok tokenSession) occupied := by
  refine Surroundings.leads_ask_iff.mpr ⟨(0 : Int), vacant, rfl, ?_⟩
  refine Surroundings.leads_ask_iff.mpr ⟨(), { vacant with current := some tokenSession }, rfl, ?_⟩
  refine Surroundings.leads_ask_iff.mpr ⟨(0 : Int), _, rfl, ?_⟩
  refine Surroundings.leads_ask_iff.mpr ⟨.ok (), _, rfl, ?_⟩
  refine Surroundings.leads_ask_iff.mpr ⟨(), _, rfl, ?_⟩
  refine Surroundings.leads_ask_iff.mpr ⟨(), _, rfl, ?_⟩
  exact Surroundings.leads_done_iff.mpr ⟨rfl, rfl⟩

theorem login_starts_iff_unmapped : Starts vacant occupied
    [⟨.cancelled, false⟩, ⟨.act (entering none) (.ofEvent .null), .ok granted⟩,
      ⟨.logIn tokens, true⟩] tokens := by
  have allows : sessionSurroundings.Allows vacant
      [⟨.cancelled, false⟩, ⟨.act (entering none) (.ofEvent .null), .ok granted⟩,
        ⟨.logIn tokens, true⟩] occupied := by
    refine .cons rfl (Surroundings.allows_cons_iff.mpr ⟨vacant, rfl, .cons ?_ (.nil _)⟩)
    exact ⟨.ok tokenSession, vacant_login, rfl⟩
  refine (login_starts_iff guarded door (.ofEvent .null) 1 (entering none) rfl
    (shaped_entering none) _ _ _ _ received_unmapped granted decode_granted tokens (by decide)
    vacant occupied allows).mpr ⟨rfl, granted, granted, ?_, ?_, rfl, rfl⟩
  · exact ⟨"login", portal, rfl, rfl, rfl⟩
  · exact .inr ⟨_, rfl, .none granted⟩

/-- A reply with a token begins the session of the token. -/
def StartsSession : Prop :=
  ∀ (d : Dispatcher) (i : Invocation) (c : Context) (depth : Nat) (spec : ActionSpec)
    (reply : Reply) (first rest : List (Happening interface)) (r : Run) (body : Json)
    (tokens : LoginTokens) (s s' : SessionPart),
    d.hasSession = true → LoginShaped spec (d.sourceName i spec) →
    Received d i c depth (.node spec [] [] [] []) reply first rest r →
    reply.decode spec.wanted = .json body → LoginTokens.ofResult? body = some tokens →
    sessionSurroundings.Allows s (first ++ rest) s' → Records s s' tokens

/-- A login whose handler keeps only the name of the user leaves the user logged out. -/
theorem not_startsSession : ¬ StartsSession := by
  intro starts
  have received : Received guarded door (.ofEvent .null) 1
      (.node (entering (some (.paths [("user", "user")]))) [] [] [] [])
      (replying grantedText)
      [⟨.cancelled, false⟩,
        ⟨.act (entering (some (.paths [("user", "user")]))) (.ofEvent .null), .ok granted⟩]
      [] ⟨[.idle, .executing, .success, .finally_, .done],
        .ok (Result.pick [("user", "user")] granted)⟩ := by
    refine received_entering ?_
    iterate 2 apply Process.Ends.asked
    exact .done _
  have allows : sessionSurroundings.Allows vacant
      ([⟨.cancelled, false⟩,
        ⟨.act (entering (some (.paths [("user", "user")]))) (.ofEvent .null), .ok granted⟩] ++ [])
      vacant :=
    .cons rfl (Surroundings.allows_cons_iff.mpr ⟨vacant, rfl, .nil _⟩)
  obtain ⟨now, session⟩ := starts guarded door (.ofEvent .null) 1 _ _ _ _ _ granted tokens vacant
    vacant rfl (shaped_entering _) received decode_granted (by decide) allows
  cases session

end Dispatch

end ScreenFlow
