import ScreenFlow.Proofs.Auth.Renewals

/-!
# Renewals at the same time

While the request of one renewal is on its way, more callers ask for a renewal of the same session.
They wait for their turns, and then each of them decides by itself what to do.

* `InFlight`: the callers, when the first one's request has been sent;
* `InFlight.line`: the others stand in line behind it;
* `refreshes_share_iff`: all of them make do with one exchange exactly if each one that waited finds a
  token that is new and lives, or if the exchange fails and nobody is sent to the login page;
* `not_sharesExchanges`: where it fails, each of them sends the user to the login page.
-/

namespace ScreenFlow.Auth

open Simulation (SessionPart)

/-! ### Callers -/

abbrev Renewing := Callers (Except AuthError String)

/-- So many callers renew the session: the request of the first has been sent, and the others have
come since. -/
inductive InFlight (auth : Auth) (s₀ : SessionPart) : Nat → Renewing → Prop
  | first {s s₁ s₂ ticket next past r next' past'}
      (calls : surroundings.Runs s₀ auth.refresh [] s (.ask (.turn ticket) next) past)
      (turn : surroundings.answers s (.turn ticket) () s₁)
      (sends : surroundings.Runs s₁ (next ()) (past ++ [⟨.turn ticket, ()⟩]) s₂
        (.ask (.send r) next') past') :
      InFlight auth s₀ 1 ⟨s₂, [⟨(), .ask (.send r) next', past', false⟩]⟩
  | joins {n p s r past} (flight : InFlight auth s₀ n p)
      (calls : surroundings.Runs p.state auth.refresh [] s r past) :
      InFlight auth s₀ (n + 1) ⟨s, p.threads ++ [⟨(), r, past, false⟩]⟩

/-- Everything that callers have been told. -/
def pasts (ts : List (Caller (Except AuthError String))) : List (Happening interface) :=
  ts.flatMap (·.past)

/-- The callers have shared an exchange that brought `x`: one request was sent, and all of them have
the new token, or else all of them have failed; that was told once, and the user was sent to the login
page once if the settings say so. -/
structure Shared (auth : Auth) (ts : List (Caller (Except AuthError String)))
    (x : Option StoredAuth) : Prop where
  once : (requests (pasts ts)).map (some ·.url) = [auth.settings.tokenEndpoint]
  succeeds : ∀ a, x = some a →
    (∀ t ∈ ts, t.process = .done (.ok a.token)) ∧ emitted (pasts ts) = [.refreshed a.expiresAt]
  fails : x = none →
    (∀ t ∈ ts, ∃ e, t.process = .done (.error e)) ∧ emitted (pasts ts) = [.loggedOut] ∧
      (auth.settings.requiresAuth = true → redirects (pasts ts) = [auth.settings.loginPath])

/-- The token of `a` is new to a caller, and lives whenever it looks at the clock. -/
def Finds (auth : Auth) (own a : StoredAuth) (t : Caller (Except AuthError String)) : Prop :=
  own.token ≠ a.token ∧ ∀ now ∈ times t.past, isLive auth.settings now (some a) = true

/-- The others can do with what the first one's exchange brought: a session that the store took, whose
token is new and lives when they look at it. A failure they can do with if nobody is sent away. -/
def Settles (auth : Auth) (own : StoredAuth) (first : Caller (Except AuthError String))
    (others : List (Caller (Except AuthError String))) : Option StoredAuth → Prop
  | some a => refused first.past = false ∧ ∀ t ∈ others, Finds auth own a t
  | none => others = [] ∨ auth.settings.requiresAuth = false

variable {auth : Auth} {s s' s₀ : SessionPart} {own a : StoredAuth} {endpoint refreshToken : String}
  {n ticket : Nat} {p p₁ p₂ : Renewing} {past past' : List (Happening interface)}
  {process : Operation (Except AuthError String)}

/-! ### In flight -/

/-- A caller that waits for its turn. -/
def waiting (auth : Auth) (own : StoredAuth) (ticket : Nat) : Place (Except AuthError String) where
  ticket := ticket
  work := .ask (.turn ticket) fun _ => auth.renewal auth.settings.requiresAuth (some own.token)
  past := [⟨.session, some own⟩, ⟨.takeTicket, ticket⟩]

/-- A caller whose request is on its way. -/
def sending (auth : Auth) (own : StoredAuth) (endpoint refreshToken : String) (ticket : Nat)
    (now : Int) : Place (Except AuthError String) where
  ticket := ticket
  work := (auth.redeem endpoint refreshToken).bind (auth.concludeRefresh auth.settings.requiresAuth)
  past := [⟨.session, some own⟩, ⟨.takeTicket, ticket⟩, ⟨.turn ticket, ()⟩, ⟨.session, some own⟩,
    ⟨.now, now⟩, ⟨.session, some own⟩]

theorem runs_session {next : Option StoredAuth → Operation (Except AuthError String)} :
    surroundings.Runs s (.ask .session next) past s' process past' ↔
      surroundings.Runs s (next s.current) (past ++ [⟨.session, s.current⟩]) s' process past' :=
  Surroundings.runs_determined (S := surroundings) (q := Ask.session) rfl fun _ _ => .rfl

theorem runs_now {next : Int → Operation (Except AuthError String)} :
    surroundings.Runs s (.ask .now next) past s' process past' ↔
      ∃ now : Int, surroundings.Runs s (next now) (past ++ [⟨.now, now⟩]) s' process past' :=
  Surroundings.runs_unaltered (S := surroundings) (q := Ask.now) rfl fun _ _ => .rfl

theorem runs_takeTicket {next : Nat → Operation (Except AuthError String)} :
    surroundings.Runs s (.ask .takeTicket next) past s' process past' ↔
      surroundings.Runs { s with lock := s.lock.take.2 } (next s.lock.take.1)
        (past ++ [⟨.takeTicket, s.lock.take.1⟩]) s' process past' := by
  refine Surroundings.runs_determined (S := surroundings) (q := Ask.takeTicket) rfl fun ticket s₁ => ?_
  constructor
  · rintro ⟨taken, same⟩
    rw [show s₁.lock = _ from congrArg Prod.snd taken] at same
    exact ⟨congrArg Prod.fst taken, same⟩
  · rintro ⟨rfl, rfl⟩
    exact ⟨rfl, rfl⟩

/-- A caller that comes takes a ticket, and waits. -/
theorem refresh_runs (hs : s.current = some own) :
    surroundings.Runs s auth.refresh [] s' process past ↔
      s' = { s with lock := s.lock.take.2 } ∧
        process = (waiting auth own s.lock.take.1).caller.process ∧
        past = (waiting auth own s.lock.take.1).past := by
  refine runs_session.trans ?_
  conv => lhs; rw [hs]
  exact runs_takeTicket.trans (Surroundings.runs_suspended_iff rfl)

/-- What a caller comes to that has the turn and finds the session that it has seen. -/
theorem renewal_runs_iff (hs : s.current = some own) (ho : own.refreshToken = some refreshToken) :
    surroundings.Runs s
        ((auth.renewal auth.settings.requiresAuth (some own.token)).bind (leave n)) past s' process past' ↔
      ∃ now, surroundings.Runs s
        ((match auth.settings.tokenEndpoint.filter fun _ => auth.connected with
          | none => auth.concludeRefresh auth.settings.requiresAuth (.error .noTokenEndpoint)
          | some endpoint => (auth.redeem endpoint refreshToken).bind
            (auth.concludeRefresh auth.settings.requiresAuth)).bind (leave n))
        (past ++ [⟨.session, some own⟩] ++ [⟨.now, now⟩] ++ [⟨.session, some own⟩]) s' process past' := by
  refine runs_session.trans (runs_now.trans (exists_congr fun now => ?_))
  simp only [Process.done_bind, hs, bne_self_eq_false, Bool.false_and, Bool.false_eq_true, if_false]
  refine runs_session.trans ?_
  simp only [Process.done_bind, hs, Option.bind_some, ho]
  cases auth.settings.tokenEndpoint.filter fun _ => auth.connected <;> rfl

/-- If it sends a request, then that one. -/
theorem sends_of_runs (hs : s.current = some own) (ho : own.refreshToken = some refreshToken)
    {r : Request} {next : Except Fault Reply → Operation (Except AuthError String)}
    (runs : surroundings.Runs s
      ((auth.renewal auth.settings.requiresAuth (some own.token)).bind (leave n)) past s'
      (.ask (.send r) next) past') :
    s' = s ∧ ∃ endpoint now,
      auth.settings.tokenEndpoint.filter (fun _ => auth.connected) = some endpoint ∧
      past' = past ++ [⟨.session, some own⟩] ++ [⟨.now, now⟩] ++ [⟨.session, some own⟩] ∧
      .ask (.send r) next = (sending auth own endpoint refreshToken n now).caller.process := by
  obtain ⟨now, runs⟩ := (renewal_runs_iff hs ho).mp runs
  cases he : auth.settings.tokenEndpoint.filter fun _ => auth.connected with
  | none =>
    -- Without an endpoint the session ends, and the store is asked first.
    rw [he] at runs
    obtain ⟨_, _, -, runs⟩ := (Surroundings.runs_answered_iff rfl).mp (runs_session.mp runs)
    obtain ⟨_, _, -, runs⟩ := (Surroundings.runs_answered_iff rfl).mp runs
    cases ((Surroundings.runs_suspended_iff rfl).mp runs).2.1
  | some endpoint =>
    rw [he] at runs
    obtain ⟨rfl, sends, rfl⟩ := (Surroundings.runs_suspended_iff rfl).mp runs
    exact ⟨rfl, endpoint, now, rfl, rfl, sends⟩

/-- One caller waits for its reply, and the others wait behind it. -/
structure Lined (auth : Auth) (own : StoredAuth) (endpoint refreshToken : String) (ticket : Nat)
    (now : Int) (tickets : List Nat) (p : Renewing) : Prop where
  reaches : auth.settings.tokenEndpoint.filter (fun _ => auth.connected) = some endpoint
  current : p.state.current = some own
  threads : p.threads = Place.caller (sending auth own endpoint refreshToken ticket now) ::
    (tickets.map (waiting auth own)).map Place.caller
  lock : p.state.lock.waiting = ticket :: tickets
  serves : ∃ held, p.state.lock.Serves held []

theorem InFlight.lined (free : s₀.lock.waiting = []) (hs : s₀.current = some own)
    (ho : own.refreshToken = some refreshToken) (flight : InFlight auth s₀ n p) :
    ∃ endpoint ticket now tickets,
      Lined auth own endpoint refreshToken ticket now tickets p ∧ tickets.length + 1 = n := by
  induction flight with
  | @first s s₁ s₂ ticket next past r next' past' calls turn sends =>
    obtain ⟨rfl, process, rfl⟩ := (refresh_runs hs).mp calls
    cases process
    obtain ⟨-, rfl⟩ := turn
    obtain ⟨rfl, endpoint, now, he, rfl, process⟩ := sends_of_runs (by exact hs) ho sends
    refine ⟨endpoint, s₀.lock.take.1, now, [], ⟨he, hs, ?_, ?_, ?_⟩, rfl⟩
    · rw [process]
      rfl
    · simp [Turnstile.take, free]
    · exact ⟨_, (Turnstile.Serves.of_fresh free).take⟩
  | @joins n p s r past flight calls ih =>
    obtain ⟨endpoint, ticket, now, tickets, lined, rfl⟩ := ih
    obtain ⟨rfl, rfl, rfl⟩ := (refresh_runs lined.current).mp calls
    obtain ⟨held, serves⟩ := lined.serves
    refine ⟨endpoint, ticket, now, tickets ++ [p.state.lock.take.1],
      ⟨lined.reaches, lined.current, ?_, ?_, _, serves.take⟩, by simp⟩
    · simp [lined.threads, Place.caller]
    · simp [Turnstile.take, lined.lock]

/-! ### In line -/

theorem inside_save (a : StoredAuth) (now : Int) : (auth.save a now).Asks (Inside n) := by
  rw [save]
  split <;> exact ⟨trivial, fun _ => trivial⟩

theorem inside_conclude (toLogin : Bool) (r : Except AuthError StoredAuth) :
    (auth.concludeRefresh toLogin r).Asks (Inside n) := by
  cases r with
  | ok a =>
    refine ⟨trivial, fun _ => ⟨trivial, fun now => (inside_save a now).bind fun r => ?_⟩⟩
    cases r with
    | ok _ => exact ⟨trivial, fun _ => trivial⟩
    | error _ => trivial
  | error e =>
    refine Process.Asks.bind ⟨trivial, fun before => ⟨trivial, fun _ => ⟨trivial, fun _ =>
      ⟨trivial, fun deleted => ?_⟩⟩⟩⟩ fun _ => trivial
    cases before <;> cases toLogin <;>
      simp [redirect, ask, Process.call, Process.bind_def, Process.pure_def, Process.Asks, Inside]

theorem inside_redeem (toLogin : Bool) :
    ((auth.redeem endpoint refreshToken).bind (auth.concludeRefresh toLogin)).Asks (Inside n) := by
  refine Process.Asks.bind ⟨trivial, fun reply => ?_⟩ fun r => inside_conclude toLogin r
  cases reply with
  | error _ => trivial
  | ok _ => exact ⟨trivial, fun _ => trivial⟩

theorem inside_renewal (toLogin : Bool) (seen : Option String) :
    (auth.renewal toLogin seen).Asks (Inside n) := by
  have exchanges : (auth.exchange.bind (auth.concludeRefresh toLogin)).Asks (Inside n) := by
    refine ⟨trivial, fun a => ?_⟩
    simp only [Process.done_bind]
    split
    · exact inside_conclude toLogin _
    · split
      · exact inside_conclude toLogin _
      · exact inside_redeem toLogin
  refine ⟨trivial, fun a => ⟨trivial, fun now => ?_⟩⟩
  simp only [Process.done_bind]
  cases a with
  | none => exact exchanges
  | some current =>
    dsimp only
    split
    · trivial
    · exact exchanges

/-- They stand in line. -/
theorem Lined.line {now : Int} {tickets : List Nat}
    (lined : Lined auth own endpoint refreshToken ticket now tickets p) :
    Line p.state (sending auth own endpoint refreshToken ticket now :: tickets.map (waiting auth own)) where
  tickets := by simp [lined.lock, sending, waiting, Function.comp_def]
  nodup := by
    obtain ⟨held, serves⟩ := lined.serves
    simpa [sending, waiting, Function.comp_def, lined.lock] using serves.nodup
  inside := by
    refine List.forall_mem_cons.mpr ⟨inside_redeem _, fun l hl => ?_⟩
    obtain ⟨k, -, rfl⟩ := List.mem_map.mp hl
    exact ⟨rfl, fun _ => inside_renewal _ _⟩
  first := by
    rintro _ ⟨⟩
    exact ⟨_, _, rfl, rfl⟩
  waits l hl := by
    obtain ⟨k, -, rfl⟩ := List.mem_map.mp hl
    exact ⟨_, rfl⟩

/-! ### Those who waited -/

variable {tickets : List Nat} {ts : List (Caller (Except AuthError String))}

theorem pasts_cons (t : Caller (Except AuthError String)) : pasts (t :: ts) = t.past ++ pasts ts := rfl

theorem InTurn.length {ls : List (Place (Except AuthError String))} (turns : InTurn s ls s' ts) :
    ts.length = ls.length := by
  induction turns with
  | nil => rfl
  | cons _ _ _ ih => simp [ih]

/-- Whoever waited looks at the session as soon as it has the turn. -/
theorem ensures_waiting {Q : List (Happening interface) → Except AuthError String → SessionPart → Prop}
    (renews : surroundings.Ensures (auth.renewal auth.settings.requiresAuth (some own.token)) s Q) :
    surroundings.Ensures (waiting auth own n).work s fun h r s' =>
      ∃ rest, h = ⟨.turn n, ()⟩ :: rest ∧ Q rest r s' := by
  refine Surroundings.ensures_ask_iff.mpr ?_
  rintro _ s₁ ⟨-, rfl⟩
  exact renews.mono fun h r s' q => ⟨h, rfl, q⟩

/-- Waiting and leaving show nothing. -/
theorem served_trail (auth : Auth) (own : StoredAuth) (n : Nat) (r : Except AuthError String)
    {rest : List (Happening interface)} {rs : List Request} {es : List AuthEvent}
    {paths : List String} {as : List (Option StoredAuth)}
    (trail : Trail rest rs es paths as) :
    Trail ((waiting auth own n).served (⟨.turn n, ()⟩ :: rest) r).past rs es paths as := by
  have waited : Trail [⟨.session, some own⟩, ⟨.takeTicket, n⟩, ⟨.turn n, ()⟩] [] [] [] [] :=
    ⟨rfl, rfl, rfl, rfl⟩
  have left : Trail [⟨.handBack n, ()⟩] [] [] [] [] := ⟨rfl, rfl, rfl, rfl⟩
  simpa [Place.served, waiting] using (waited.append trail).append left

/-- Where the session has ended, all of them fail, and each one sends the user to the login page. -/
theorem waited_absent (hs : s.current = none)
    (turns : InTurn s (tickets.map (waiting auth own)) s' ts) :
    (∀ t ∈ ts, ∃ e, t.process = .done (.error e)) ∧ requests (pasts ts) = [] ∧
      emitted (pasts ts) = [] ∧ redirects (pasts ts) = tickets.flatMap fun _ =>
        if auth.settings.requiresAuth then [auth.settings.loginPath] else [] := by
  induction tickets generalizing s ts with
  | nil =>
    cases turns
    exact ⟨nofun, rfl, rfl, rfl⟩
  | cons k tickets ih =>
    cases turns with
    | @cons _ s₁ _ _ _ ts history r ends allows later =>
      obtain ⟨rest, rfl, ended, ⟨e, rfl⟩, trail⟩ :=
        ensures_waiting (ensures_renewal_absent _ hs) _ _ _ ends allows
      have ended : (handedBack s₁ k).current = none := ended
      obtain ⟨failed, sent, told, sentAway⟩ := ih ended later
      have trail := served_trail auth own k (.error e) trail
      refine ⟨List.forall_mem_cons.mpr ⟨⟨e, rfl⟩, failed⟩, ?_, ?_, ?_⟩
      · rw [pasts_cons, requests_append, trail.requests, sent, List.append_nil]
      · rw [pasts_cons, emitted_append, trail.emitted, told, List.append_nil]
      · rw [pasts_cons, redirects_append, trail.redirects, sentAway, List.flatMap_cons]

/-- Where there is a session, all of them take its token, or some request is sent again. -/
theorem waited_present (hs : s.current = some a) (can : auth.canRefresh (some a) = true)
    (turns : InTurn s (tickets.map (waiting auth own)) s' ts) :
    ((∀ t ∈ ts, t.process = .done (.ok a.token) ∧ Finds auth own a t) ∧
        requests (pasts ts) = [] ∧ emitted (pasts ts) = []) ∨
      requests (pasts ts) ≠ [] ∧ ∃ t ∈ ts, ¬ Finds auth own a t := by
  induction tickets generalizing s ts with
  | nil =>
    cases turns
    exact .inl ⟨nofun, rfl, rfl⟩
  | cons k tickets ih =>
    cases turns with
    | @cons _ s₁ _ _ _ ts history r ends allows later =>
      obtain ⟨rest, rfl, outcome⟩ :=
        ensures_waiting (ensures_renewal_present _ hs) _ _ _ ends allows
      rcases outcome with ⟨now, new, live, rfl, rfl, rfl⟩ | ⟨⟨now, seen, stale⟩, sends⟩
      · have looks : Trail [⟨.session, some a⟩, ⟨.now, now⟩] [] [] [] [] := ⟨rfl, rfl, rfl, rfl⟩
        have trail := served_trail auth own k (.ok a.token) looks
        rcases ih (show (handedBack s₁ k).current = some a from hs) later with
          ⟨taken, sent, told⟩ | ⟨sent, t, ht, stale⟩
        · refine .inl ⟨List.forall_mem_cons.mpr ⟨⟨rfl, fun same => new (congrArg some same), ?_⟩, taken⟩,
            ?_, ?_⟩
          · simpa [Place.served, waiting, times] using live
          · rw [pasts_cons, requests_append, trail.requests, sent, List.append_nil]
          · rw [pasts_cons, emitted_append, trail.emitted, told, List.append_nil]
        · refine .inr ⟨?_, t, List.mem_cons_of_mem _ ht, stale⟩
          rw [pasts_cons, requests_append, trail.requests]
          exact sent
      · refine .inr ⟨?_, _, List.mem_cons_self, fun finds => stale ⟨?_, finds.2 now ?_⟩⟩
        · intro none
          rw [pasts_cons, requests_append, List.append_eq_nil_iff] at none
          refine sends can ?_
          simpa [Place.served, waiting, requests] using none.1
        · exact fun same => finds.1 (Option.some.inj same)
        · simpa [Place.served, waiting, times] using seen

/-! ### All of them -/

/-- What the first caller shows is what its request has led to. -/
theorem sending_past (auth : Auth) (own : StoredAuth) (endpoint refreshToken : String) (ticket : Nat)
    (now : Int) (h : List (Happening interface)) (r : Except AuthError String) :
    let past := ((sending auth own endpoint refreshToken ticket now).served h r).past
    requests past = requests h ∧ emitted past = emitted h ∧ redirects past = redirects h ∧
      sessions past = sessions h ∧ replies past = replies h ∧ refused past = refused h := by
  simp [Place.served, sending, requests, emitted, redirects, sessions, replies, refused]

/-- Where the first caller has failed, so do the others. -/
theorem shared_none_iff {first : Caller (Except AuthError String)} {e : AuthError}
    (url : auth.settings.tokenEndpoint = some endpoint)
    (sent : requests first.past = [refreshRequest endpoint refreshToken])
    (process : first.process = .done (.error e)) (told : emitted first.past = [.loggedOut])
    (away : redirects first.past =
      if auth.settings.requiresAuth then [auth.settings.loginPath] else [])
    (hs : s.current = none) (turns : InTurn s (tickets.map (waiting auth own)) s' ts) :
    Shared auth (first :: ts) none ↔ Settles auth own first ts none := by
  obtain ⟨failed, unsent, quiet, allAway⟩ := waited_absent hs turns
  have length : ts.length = tickets.length := by simpa using turns.length
  constructor
  · intro shared
    cases required : auth.settings.requiresAuth with
    | false => exact .inr required
    | true =>
      have once := (shared.fails rfl).2.2 required
      rw [pasts_cons, redirects_append, away, allAway, if_pos required,
        List.singleton_append, List.cons.injEq] at once
      cases tickets with
      | nil => exact .inl (List.length_eq_zero_iff.mp length)
      | cons k tickets => simp at once
  · intro settles
    refine ⟨?_, nofun, fun _ => ⟨?_, ?_, fun required => ?_⟩⟩
    · rw [pasts_cons, requests_append, sent, unsent, url]
      rfl
    · exact List.forall_mem_cons.mpr ⟨⟨e, process⟩, failed⟩
    · rw [pasts_cons, emitted_append, told, quiet, List.append_nil]
    · rcases settles with rfl | free
      · obtain rfl := List.length_eq_zero_iff.mp length.symm
        rw [pasts_cons, redirects_append, away, allAway, if_pos required]
        rfl
      · simp [free] at required

/-- Where the first caller has renewed the session, the others take the new token or renew it again. -/
theorem shared_some_iff {first : Caller (Except AuthError String)} {r : Except AuthError String}
    (url : auth.settings.tokenEndpoint = some endpoint)
    (sent : requests first.past = [refreshRequest endpoint refreshToken])
    (process : first.process = .done r)
    (outcome : refused first.past = false ∧ r = .ok a.token ∧
        emitted first.past = [.refreshed a.expiresAt] ∨
      refused first.past = true ∧ ∃ e, r = .error e)
    (hs : s.current = some a) (can : auth.canRefresh (some a) = true)
    (turns : InTurn s (tickets.map (waiting auth own)) s' ts) :
    Shared auth (first :: ts) (some a) ↔ Settles auth own first ts (some a) := by
  have waited := waited_present hs can turns
  constructor
  · intro shared
    refine ⟨?_, ?_⟩
    · rcases outcome with ⟨taken, -, -⟩ | ⟨-, e, rfl⟩
      · exact taken
      · have done := (shared.succeeds a rfl).1 first List.mem_cons_self
        rw [process] at done
        cases done
    · rcases waited with ⟨taken, -, -⟩ | ⟨again, -⟩
      · exact fun t ht => (taken t ht).2
      · have once := shared.once
        rw [pasts_cons, requests_append, sent, List.singleton_append, List.map_cons] at once
        exact absurd (List.map_eq_nil_iff.mp (List.cons.inj once).2) again
  · rintro ⟨taken, finds⟩
    rcases outcome with ⟨-, rfl, told⟩ | ⟨refused', -⟩
    · rcases waited with ⟨have', unsent, quiet⟩ | ⟨-, t, ht, stale⟩
      · refine ⟨?_, ?_, nofun⟩
        · rw [pasts_cons, requests_append, sent, unsent, url]
          rfl
        · rintro _ ⟨⟩
          refine ⟨List.forall_mem_cons.mpr ⟨process, fun t ht => (have' t ht).1⟩, ?_⟩
          rw [pasts_cons, emitted_append, told, quiet, List.append_nil]
      · exact absurd (finds t ht) stale
    · rw [taken] at refused'
      cases refused'

/-- The first caller with what it got, and the others behind it. -/
theorem shared_iff {now : Int} {h : List (Happening interface)} {r : Except AuthError String}
    {s₁ : SessionPart} (he : auth.settings.tokenEndpoint.filter (fun _ => auth.connected) = some endpoint)
    (sent : Sent auth own endpoint refreshToken h r s₁.current)
    (turns : InTurn (handedBack s₁ ticket) (tickets.map (waiting auth own)) s' ts) :
    Shared auth ((sending auth own endpoint refreshToken ticket now).served h r :: ts) s₁.current ↔
      Settles auth own ((sending auth own endpoint refreshToken ticket now).served h r) ts
        s₁.current := by
  obtain ⟨⟨reply, time, -, verdict⟩, requested, -, succeeds, fails⟩ := sent
  obtain ⟨requests', emitted', redirects', -, -, refused'⟩ :=
    sending_past auth own endpoint refreshToken ticket now h r
  have url : auth.settings.tokenEndpoint = some endpoint := (Option.filter_eq_some_iff.mp he).1
  cases hx : s₁.current with
  | none =>
    obtain ⟨⟨e, rfl⟩, told, away⟩ := fails hx
    exact shared_none_iff url (requests'.trans requested) rfl (emitted'.trans told)
      (redirects'.trans away) (show (handedBack s₁ _).current = none from hx) turns
  | some a =>
    rw [hx] at verdict
    refine shared_some_iff url (requests'.trans requested) rfl ?_
      (show (handedBack s₁ _).current = some a from hx) (canRefresh_of_verdict verdict he) turns
    rw [refused', emitted']
    exact (succeeds a hx).2

/-! ### What can happen -/

/-- So many callers can be in flight. -/
theorem exists_inFlight (auth : Auth) (free : s₀.lock.waiting = []) (hs : s₀.current = some own)
    (ho : own.refreshToken = some refreshToken)
    (he : auth.settings.tokenEndpoint.filter (fun _ => auth.connected) = some endpoint) (n : Nat) :
    ∃ p, InFlight auth s₀ (n + 1) p := by
  induction n with
  | zero =>
    let s : SessionPart := { s₀ with lock := s₀.lock.take.2 }
    let ticket := s₀.lock.take.1
    have calls : surroundings.Runs s₀ auth.refresh [] s (waiting auth own ticket).caller.process
        (waiting auth own ticket).past := (refresh_runs hs).mpr ⟨rfl, rfl, rfl⟩
    have turn : surroundings.answers s (.turn ticket) () s :=
      ⟨Turnstile.hasTurn_take_of_free free, rfl⟩
    have sends : ∃ past, surroundings.Runs s
        ((auth.renewal auth.settings.requiresAuth (some own.token)).bind (leave ticket))
        ((waiting auth own ticket).past ++ [⟨.turn ticket, ()⟩]) s
        (sending auth own endpoint refreshToken ticket 0).caller.process past :=
      ⟨_, (renewal_runs_iff (by exact hs) ho).mpr ⟨0, by rw [he]; exact .suspended rfl _ _ _⟩⟩
    obtain ⟨past, sends⟩ := sends
    exact ⟨_, .first calls turn sends⟩
  | succ n ih =>
    obtain ⟨p, flight⟩ := ih
    obtain ⟨s', process, past, calls⟩ := exists_runs auth.refresh p.state []
    exact ⟨_, flight.joins calls⟩

/-- Any reply can come. -/
theorem Lined.exists_reply {now : Int} (reply : Except Fault Reply)
    (lined : Lined auth own endpoint refreshToken ticket now tickets p) :
    ∃ p', surroundings.Resumes 0 (.send (refreshRequest endpoint refreshToken)) reply p p' := by
  obtain ⟨s', process, past, runs⟩ := exists_runs _ p.state _
  have here : p.threads[0]? = some (sending auth own endpoint refreshToken ticket now).caller := by
    rw [lined.threads, List.getElem?_cons_zero]
  exact ⟨_, (Surroundings.resumes_iff here rfl rfl).mpr ⟨_, _, _, _, rfl, runs, rfl⟩⟩

/-! ### One exchange for all -/

theorem Lined.queue {now : Int} (lined : Lined auth own endpoint refreshToken ticket now tickets p) :
    Queue p :=
  ⟨[], _ :: _, lined.threads, lined.line, nofun⟩

/-- When all of them have been served, the exchange was enough for all of them, or it was not. -/
theorem Lined.outcome {now : Int} {r : Request} {reply : Except Fault Reply}
    (ho : own.refreshToken = some refreshToken)
    (lined : Lined auth own endpoint refreshToken ticket now tickets p₁)
    (answered : surroundings.Resumes 0 (.send r) reply p₁ p₂)
    (steps : Relation.ReflTransGen Resumed p₂ p) (all : Served p.threads) :
    ∃ first others now x, p.threads = first :: others ∧ others.length = tickets.length ∧
      Call.refresh.verdict auth own reply now = some x ∧ sessions first.past = [x] ∧
      (Shared auth p.threads x ↔ Settles auth own first others x) := by
  have threads := lined.threads
  have line := lined.line
  obtain ⟨s₁, threads₁⟩ := p₁
  obtain rfl : threads₁ = _ := threads
  obtain ⟨s', ts, turns, rfl⟩ :=
    serves_in_turn line (show Served [] from nofun) (.head ⟨_, _, _, answered⟩ steps) all
  cases turns with
  | @cons _ s₂ _ _ _ ts history result ends allows later =>
    have sent := ensures_sent endpoint ho (by rw [lined.current]; rfl) _ _ _ ends allows
    obtain ⟨reply', now', replied, verdict⟩ := sent.replied
    obtain ⟨-, -, -, sessions', replies', -⟩ :=
      sending_past auth own endpoint refreshToken ticket now history result
    -- The reply that the caller has got is the only one that it ever gets.
    obtain ⟨t, here, told⟩ := mem_past_of_resumes answered
    obtain ⟨t', here', sub⟩ := past_of_resumed steps here
    obtain rfl := Option.some.inj here'
    have got : reply ∈ replies _ := List.mem_filterMap.mpr ⟨_, sub told, rfl⟩
    rw [replies', replied, List.mem_singleton] at got
    subst got
    exact ⟨_, ts, now', s₂.current, rfl, by simpa using later.length, verdict,
      sessions'.trans sent.sessions, shared_iff lined.reaches sent later⟩

/-- Everybody who waits while a reply is still to come is served, and all of them share the exchange
exactly if the others can do with what it brings. -/
theorem refreshes_share_iff {r : Request} {reply : Except Fault Reply} (free : s₀.lock.waiting = [])
    (hs : s₀.current = some own) (ho : own.refreshToken = some refreshToken)
    (flight : InFlight auth s₀ n p₁) (answered : surroundings.Resumes 0 (.send r) reply p₁ p₂)
    (steps : Relation.ReflTransGen Resumed p₂ p) :
    (∃ p', Relation.ReflTransGen Resumed p p' ∧ Served p'.threads) ∧
      (Served p.threads → ∃ first others now x, p.threads = first :: others ∧
        others.length + 1 = n ∧ Call.refresh.verdict auth own reply now = some x ∧
        sessions first.past = [x] ∧
        (Shared auth p.threads x ↔ Settles auth own first others x)) := by
  obtain ⟨endpoint, ticket, time, tickets, lined, rfl⟩ := flight.lined free hs ho
  refine ⟨(lined.queue.steps (.head ⟨_, _, _, answered⟩ steps)).served, fun all => ?_⟩
  obtain ⟨first, others, now, x, threads, length, rest⟩ := lined.outcome ho answered steps all
  exact ⟨first, others, now, x, threads, congrArg (· + 1) length, rest⟩

/-- Two callers share an exchange that fails, where nobody is sent to the login page. -/
theorem refreshes_share_iff_refused :
    let auth : Auth := {
      settings := { tokenEndpoint := some "https://a/token" }, storage := { key := "weft:auth" } }
    ∃ (s₀ : SessionPart) (own : StoredAuth) (p₁ p₂ p : Renewing) (r : Request) (reply : Reply),
      s₀.lock.waiting = [] ∧ s₀.current = some own ∧ own.refreshToken = some "r" ∧
      InFlight auth s₀ 2 p₁ ∧ surroundings.Resumes 0 (.send r) (.ok reply) p₁ p₂ ∧
      Relation.ReflTransGen Resumed p₂ p ∧ Served p.threads ∧ Shared auth p.threads none := by
  intro auth
  let own : StoredAuth := { token := "A", refreshToken := some "r", expiresAt := none }
  let s₀ : SessionPart := { auth, slot := .shared, epoch := 0, moves := false, current := some own }
  have free : s₀.lock.waiting = [] := rfl
  have hs : s₀.current = some own := rfl
  obtain ⟨p₁, flight⟩ := exists_inFlight auth free hs rfl rfl 1
  obtain ⟨endpoint, ticket, now, tickets, lined, -⟩ := flight.lined rfl rfl rfl
  obtain ⟨p₂, answered⟩ := lined.exists_reply (.ok { status := 400 })
  obtain ⟨⟨p, steps, all⟩, -⟩ := refreshes_share_iff rfl rfl rfl flight answered .refl
  obtain ⟨-, result⟩ := refreshes_share_iff rfl rfl rfl flight answered steps
  obtain ⟨first, others, now, x, threads, -, verdict, -, shared⟩ := result all
  obtain rfl : x = none := (Option.some.inj verdict).symm
  exact ⟨s₀, own, p₁, p₂, p, _, _, rfl, rfl, rfl, flight, answered, steps, all, shared.mpr (.inr rfl)⟩

/-- Whoever comes while a reply is still to come shares the exchange. -/
def SharesExchanges (auth : Auth) : Prop :=
  ∀ s₀ own refreshToken n p₁ p₂ p r reply, s₀.lock.waiting = [] → s₀.current = some own →
    own.refreshToken = some refreshToken → InFlight auth s₀ n p₁ →
    surroundings.Resumes 0 (.send r) reply p₁ p₂ → Relation.ReflTransGen Resumed p₂ p →
    Served p.threads → ∃ now x, Call.refresh.verdict auth own reply now = some x ∧
      Shared auth p.threads x

/-- Where the exchange fails, each of two callers sends the user to the login page. -/
theorem not_sharesExchanges : ¬ SharesExchanges {
    settings := { tokenEndpoint := some "https://a/token", requiresAuth := true },
    storage := { key := "weft:auth" } } := by
  intro shares
  let auth : Auth := {
    settings := { tokenEndpoint := some "https://a/token", requiresAuth := true },
    storage := { key := "weft:auth" } }
  let own : StoredAuth := { token := "A", refreshToken := some "r", expiresAt := none }
  let s₀ : SessionPart := { auth, slot := .shared, epoch := 0, moves := false, current := some own }
  have free : s₀.lock.waiting = [] := rfl
  have hs : s₀.current = some own := rfl
  obtain ⟨p₁, flight⟩ := exists_inFlight auth free hs rfl rfl 1
  obtain ⟨endpoint, ticket, now, tickets, lined, length⟩ := flight.lined rfl rfl rfl
  obtain ⟨p₂, answered⟩ := lined.exists_reply (.ok { status := 400 })
  obtain ⟨p, steps, all⟩ := (lined.queue.steps (.single ⟨_, _, _, answered⟩)).served
  obtain ⟨first, others, now', x, threads, two, verdict, -, shared⟩ :=
    lined.outcome rfl answered steps all
  obtain rfl : x = none := (Option.some.inj verdict).symm
  obtain ⟨_, x', verdict', both⟩ := shares s₀ own "r" 2 p₁ p₂ p _ _ rfl rfl rfl flight answered steps all
  obtain rfl : x' = none := (Option.some.inj verdict').symm
  rcases shared.mp both with alone | free
  · rw [alone, List.length_nil] at two
    omega
  · cases free

end ScreenFlow.Auth
