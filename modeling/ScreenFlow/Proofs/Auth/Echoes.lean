import ScreenFlow.Proofs.Auth.Following

/-!
# A follower that hears its own session

A session that nobody else changes is followed by its own follower. Calls are carried through one
after the other, and the follower has its rounds between them, sooner or later. It tells its own
writes from those of others by comparing what it hears with the session of the moment.

* `rounds_silent_iff`: no round shows exactly if each message is still true when it is heard;
* `not_neverEchoes`: after two logins in a row the follower goes back to the first.
-/

namespace ScreenFlow.Auth

open Simulation (SessionPart StoreState memoryAnswer Writes Passes)

/-- A session, the store that it has to itself, and how far its follower has read. -/
structure Solo where
  part : SessionPart
  store : StoreState
  position : Nat

/-- What a round of the follower received, what was stored then, and what it asked. -/
structure Round where
  received : Broadcast.Received StoreChange
  store : StoreState
  history : List (Happening interface)

namespace Round

/-- Whether others can see a question of a follower. -/
def Shows : Ask → Prop
  | .setSession _ | .setProfile _ | .emit _ | .toLogin _ => True
  | _ => False

/-- The round changes neither session nor profile, tells nobody, and sends nobody anywhere. -/
def Silent (r : Round) : Prop := ∀ e ∈ r.history, ¬ Shows e.question

/-- What the message says of the session is still what is stored. -/
def Fresh (storage : AuthStorage) (r : Round) : Prop :=
  match r.received with
  | .message c => c.key = storage.key → ∃ x, storage.Means c.value x ∧ storage.Records r.store x
  | .lagged _ | .nothing => True

end Round

/-- Calls, each carried through, and rounds of the follower between them. -/
inductive Run (s₀ : Solo) : List Round → Solo → Prop
  | start : Run s₀ [] s₀
  | call {rounds s part store} (run : Run s₀ rounds s) (c : Call)
      (leads : storeSurroundings.Leads (s.part.auth.perform c) (s.part, s.store) () (part, store)) :
      Run s₀ rounds { s with part, store }
  | round {rounds s received position history part store} (run : Run s₀ rounds s)
      (news : s.store.changes.hasNews s.position = true)
      (hr : s.store.changes.receive s.position = (received, position))
      (ends : (s.part.auth.onReceived received).Ends history ())
      (allows : storeSurroundings.Allows (s.part, s.store) history (part, store)) :
      Run s₀ (rounds ++ [⟨received, s.store, history⟩]) ⟨part, store, position⟩

/-- The session is the stored one, or the one that is still owed to the store, and every message
about it can be understood. -/
structure Solo.Keeps (storage : AuthStorage) (owed : Option (Option StoredAuth)) (s : Solo) : Prop where
  same : s.part.auth.storage = storage
  counts : s.store.changes.Counts
  within : s.position ≤ s.store.changes.sent
  recorded : ∃ x, storage.Records s.store x ∧ s.part.current = owed.getD x
  understood : ∀ c ∈ s.store.changes.pending s.position, c.key = storage.key →
    ∃ x, storage.Means c.value x

variable {storage : AuthStorage} {owed : Option (Option StoredAuth)} {part part' : SessionPart}
  {store store' : StoreState} {position : Nat} {x : Option StoredAuth}

/-! ### Calls -/

theorem understood_send {b : Broadcast StoreChange} {c : StoreChange} (counts : b.Counts)
    (within : position ≤ b.sent)
    (old : ∀ d ∈ b.pending position, d.key = storage.key → ∃ x, storage.Means d.value x)
    (new : c.key = storage.key → ∃ x, storage.Means c.value x) :
    ∀ d ∈ (b.send c).pending position, d.key = storage.key → ∃ x, storage.Means d.value x := by
  intro d hd
  obtain ⟨n, pending, -⟩ := b.pending_send (a := c) counts within
  rw [pending] at hd
  rcases List.mem_append.mp (List.mem_of_mem_drop hd) with there | here
  · exact old d there
  · rw [List.mem_singleton.mp here]
    exact new

theorem understood_passes (counts : store.changes.Counts) (within : position ≤ store.changes.sent)
    (passes : Passes storage.key store store')
    (h : ∀ c ∈ store.changes.pending position, c.key = storage.key → ∃ x, storage.Means c.value x) :
    ∀ c ∈ store'.changes.pending position, c.key = storage.key → ∃ x, storage.Means c.value x := by
  rcases passes.changes with same | ⟨c, apart, sent⟩
  · rwa [same]
  · rw [sent]
    exact understood_send counts within h fun about => absurd about apart

/-- What a call owes is paid when it is done. -/
theorem Solo.Keeps.leads {p : Operation Unit} (pays : Pays storage (fun _ => True) owed p)
    (leads : storeSurroundings.Leads p (part, store) () (part', store'))
    (h : Keeps storage owed ⟨part, store, position⟩) : Keeps storage none ⟨part', store', position⟩ := by
  induction p generalizing part store owed with
  | done a =>
    obtain ⟨-, same⟩ := Surroundings.leads_done_iff.mp leads
    cases same
    obtain ⟨rfl, -⟩ := pays
    exact h
  | ask q next ih =>
    obtain ⟨a, ⟨part₁, store₁⟩, ha, leads⟩ := Surroundings.leads_ask_iff.mp leads
    obtain ⟨same, counts, within, ⟨x, recorded, current⟩, understood⟩ := h
    obtain ⟨paid, auth⟩ := pays.answered recorded ha
    have same₁ : part₁.auth.storage = storage := auth ▸ same
    generalize hc : part₁.current = current₁ at paid
    cases paid with
    | changed _ free rest =>
      exact ih a rest leads ⟨same₁, counts, within, ⟨x, recorded, hc⟩, understood⟩
    | passed passes rest =>
      exact ih a rest leads ⟨same₁, passes.counts counts, Nat.le_trans within passes.sent,
        ⟨x, recorded.passes passes, hc.trans current⟩,
        understood_passes counts within passes understood⟩
    | stored y due writes means rest =>
      refine ih a rest leads ⟨same₁, ?_, ?_, ⟨y, ⟨_, writes.holds, means⟩, ?_⟩, ?_⟩
      · exact writes.changes ▸ counts.send
      · rw [writes.changes]
        exact Nat.le_succ_of_le within
      · rw [hc, current, due]
        rfl
      · rw [writes.changes]
        exact understood_send counts within understood fun _ => ⟨y, means⟩
    | absent due passes none' rest =>
      refine ih a rest leads ⟨same₁, passes.counts counts, Nat.le_trans within passes.sent,
        ⟨none, none'.passes passes, ?_⟩, understood_passes counts within passes understood⟩
      rw [hc, current, due]
      rfl

/-! ### Rounds -/

variable {history : List (Happening interface)} {s' : SessionPart × StoreState}

/-- The round looks at the session, and does nothing if it is `x` already. -/
def Compares (x : Option StoredAuth) (p : Operation Unit) : Prop :=
  ∃ next : Option StoredAuth → Operation Unit, p = .ask .session next ∧ next x = .done () ∧
    ∀ y, y ≠ x → ∃ rest, next y = .ask (.setSession x) rest

theorem compares_adopt (a : StoredAuth) : Compares (some a) (adopt a) := by
  refine ⟨_, rfl, by simp [Process.pure_def], fun y other => ?_⟩
  simp only [Process.done_bind, beq_eq_false_iff_ne.mpr other, Bool.false_eq_true, if_false]
  exact ⟨_, rfl⟩

theorem compares_endElsewhere (auth : Auth) : Compares none auth.endElsewhere := by
  refine ⟨_, rfl, by simp [Process.pure_def], fun y other => ?_⟩
  cases y with
  | none => exact absurd rfl other
  | some b => exact ⟨_, rfl⟩

theorem compares_applyStored {auth : Auth} {text : Option String} (means : auth.storage.Means text x) :
    Compares x (auth.applyStored text) := by
  cases text with
  | none =>
    rw [show x = none from means]
    exact compares_endElsewhere auth
  | some t =>
    obtain ⟨a, decoded, rfl⟩ := means
    simp only [applyStored, decoded]
    exact compares_adopt a

/-- The round shows unless the session is `x` already. -/
theorem Compares.silent {p : Operation Unit} (compares : Compares x p) (ends : p.Ends history ())
    (allows : storeSurroundings.Allows (part, store) history s') :
    ((∀ e ∈ history, ¬ Round.Shows e.question) ↔ part.current = x) ∧
      (part.current = x → s' = (part, store)) := by
  obtain ⟨next, rfl, stops, goes⟩ := compares
  obtain ⟨before, rest, rfl, after⟩ := Process.ends_ask_iff.mp ends
  obtain ⟨⟨part₁, store₁⟩, ⟨⟨rfl, same⟩, still⟩, going⟩ := Surroundings.allows_cons_iff.mp allows
  obtain rfl : part₁ = part := same
  obtain rfl : store₁ = store := still
  by_cases h : part₁.current = x
  · rw [h, stops, Process.ends_done_iff] at after
    obtain ⟨rfl, -⟩ := after
    refine ⟨iff_of_true ?_ h, fun _ => Surroundings.allows_nil_iff.mp going⟩
    simp [Round.Shows]
  · obtain ⟨next', sets⟩ := goes _ h
    rw [sets] at after
    obtain ⟨_, rest', rfl, -⟩ := Process.ends_ask_iff.mp after
    refine ⟨iff_of_false (fun silent => ?_) h, fun same => absurd same h⟩
    exact silent _ (List.mem_cons_of_mem _ List.mem_cons_self) trivial

/-- What is true of a round: it is silent exactly if it is told of what is stored still, and then
nothing changes. -/
theorem Solo.Keeps.round {s : Solo} {received : Broadcast.Received StoreChange}
    (h : s.Keeps storage none)
    (hr : s.store.changes.receive s.position = (received, position))
    (ends : (s.part.auth.onReceived received).Ends history ())
    (allows : storeSurroundings.Allows (s.part, s.store) history (part, store)) :
    (Round.Silent ⟨received, s.store, history⟩ ↔ Round.Fresh storage ⟨received, s.store, history⟩) ∧
      (Round.Silent ⟨received, s.store, history⟩ → Keeps storage none ⟨part, store, position⟩) := by
  obtain ⟨same, counts, within, ⟨x, recorded, current⟩, understood⟩ := h
  obtain rfl := same
  rcases s.store.changes.receive_cases counts within with
    ⟨-, missed, got, rest⟩ | ⟨-, c, got, rest, within'⟩ | ⟨-, got⟩
  · -- What is read again is the session.
    cases hr.symm.trans got
    obtain ⟨text, holds, means⟩ := recorded
    obtain ⟨next, reads, applies⟩ := s.part.auth.onLag_eq
    rw [show s.part.auth.onReceived (.lagged missed) = _ from reads] at ends
    obtain ⟨r, tail, rfl, after⟩ := Process.ends_ask_iff.mp ends
    obtain ⟨⟨part₁, store₁⟩, ⟨still, now, answered⟩, going⟩ := Surroundings.allows_cons_iff.mp allows
    obtain rfl : part₁ = s.part := still
    rw [Simulation.memoryAnswer_get holds answered, applies] at after
    have passes : Passes s.part.auth.storage.key s.store store₁ :=
      Simulation.memoryAnswer_apart (by simp [Store.Ask.written?]) answered
    obtain ⟨silent, stays⟩ := (compares_applyStored means).silent after going
    cases stays current
    refine ⟨iff_of_true ?_ trivial, fun _ => ⟨rfl, passes.counts counts,
      Nat.le_trans (Broadcast.oldest_le_sent _) passes.sent,
      ⟨x, ⟨text, passes.holds _ holds, means⟩, current⟩, ?_⟩⟩
    · exact List.forall_mem_cons.mpr ⟨id, silent.mpr current⟩
    · exact understood_passes counts (Broadcast.oldest_le_sent _) passes (rest ▸ understood)
  · cases hr.symm.trans got
    have later : ∀ d ∈ s.store.changes.pending (s.position + 1), d.key = s.part.auth.storage.key →
        ∃ x, s.part.auth.storage.Means d.value x := fun d hd =>
      understood d (rest ▸ List.mem_cons_of_mem c hd)
    by_cases about : c.key = s.part.auth.storage.key
    · obtain ⟨y, means⟩ := understood c (by simp [rest]) about
      rw [show s.part.auth.onReceived (.message c) = s.part.auth.applyStored c.value from
        if_pos about] at ends
      obtain ⟨silent, stays⟩ := (compares_applyStored means).silent ends allows
      have fresh : Round.Fresh s.part.auth.storage ⟨.message c, s.store, history⟩ ↔
          s.part.current = y := by
        constructor
        · intro h
          obtain ⟨z, means', recorded'⟩ := h about
          obtain rfl := means.unique means'
          exact current.trans (recorded'.unique recorded)
        · rintro rfl
          exact fun _ => ⟨_, means, current ▸ recorded⟩
      refine ⟨silent.trans fresh.symm, fun quiet => ?_⟩
      cases stays (silent.mp quiet)
      exact ⟨rfl, counts, within', ⟨x, recorded, current⟩, later⟩
    · rw [show s.part.auth.onReceived (.message c) = .done () from if_neg about] at ends
      obtain ⟨rfl, -⟩ := Process.ends_done_iff.mp ends
      cases Surroundings.allows_nil_iff.mp allows
      refine ⟨iff_of_true (by simp [Round.Silent]) fun h => absurd h about, fun _ => ?_⟩
      exact ⟨rfl, counts, within', ⟨x, recorded, current⟩, later⟩
  · cases hr.symm.trans got
    obtain ⟨rfl, -⟩ := Process.ends_done_iff.mp ends
    cases Surroundings.allows_nil_iff.mp allows
    refine ⟨iff_of_true (by simp [Round.Silent]) trivial, fun _ => ?_⟩
    exact ⟨rfl, counts, within, ⟨x, recorded, current⟩, understood⟩

/-! ### Runs -/

/-- The follower has just begun to listen, and the session is the stored one. -/
structure Solo.Begins (storage : AuthStorage) (s : Solo) : Prop where
  same : s.part.auth.storage = storage
  counts : s.store.changes.Counts
  listening : s.position = s.store.changes.sent
  agrees : storage.Records s.store s.part.current

theorem Solo.Begins.keeps {s : Solo} (h : s.Begins storage) : s.Keeps storage none where
  same := h.same
  counts := h.counts
  within := Nat.le_of_eq h.listening
  recorded := ⟨_, h.agrees, rfl⟩
  understood := by simp [h.listening, Broadcast.pending_sent h.counts]

/-- Up to a round that shows, the session is the stored one. -/
theorem Run.keeps (plain : storage.backend ≠ .cookie) {s₀ s : Solo} {rounds : List Round}
    (begins : s₀.Begins storage) (run : Run s₀ rounds s) :
    ((∀ r ∈ rounds, r.Silent) ↔ ∀ r ∈ rounds, r.Fresh storage) ∧
      ((∀ r ∈ rounds, r.Silent) → s.Keeps storage none) := by
  induction run with
  | start => exact ⟨by simp, fun _ => begins.keeps⟩
  | @call rounds s part store _ c leads ih =>
    refine ⟨ih.1, fun silent => ?_⟩
    have keeps := ih.2 silent
    have pays : Pays s.part.auth.storage (fun _ => True) none (s.part.auth.perform c) :=
      pays_perform (keeps.same ▸ plain) c
    exact keeps.leads (keeps.same ▸ pays) leads
  | round _ news hr ends allows ih =>
    simp only [List.forall_mem_append, List.forall_mem_singleton]
    constructor
    · constructor
      · rintro ⟨silent, last⟩
        exact ⟨ih.1.mp silent, ((ih.2 silent).round hr ends allows).1.mp last⟩
      · rintro ⟨fresh, last⟩
        have silent := ih.1.mpr fresh
        exact ⟨silent, ((ih.2 silent).round hr ends allows).1.mpr last⟩
    · rintro ⟨silent, last⟩
      exact ((ih.2 silent).round hr ends allows).2 last

/-- A login is one more call of a run. -/
theorem Run.login {s₀ s : Solo} {rounds : List Round} (run : Run s₀ rounds s)
    (plain : s.part.auth.storage.backend ≠ .cookie) (token : String) :
    ∃ a part store, Run s₀ rounds { s with part, store } ∧ part.auth = s.part.auth ∧
      a.token = token ∧ a.Fits ∧ part.current = some a ∧
      store.changes = s.store.changes.send
        ⟨s.part.auth.storage.key, some (s.part.auth.storage.encode a)⟩ := by
  obtain ⟨store, leads, writes⟩ := login_leads plain s.store token rfl
  exact ⟨_, _, store, run.call _ leads, rfl, rfl, record_fits _ _ _ _ _, rfl, writes.changes⟩

/-- A round in which the follower hears of a session that was stored. -/
theorem Run.adopt {s₀ s : Solo} {rounds : List Round} (run : Run s₀ rounds s) (position : Nat)
    {a : StoredAuth} (fits : a.Fits)
    (news : s.store.changes.hasNews s.position = true)
    (hr : s.store.changes.receive s.position =
      (.message ⟨s.part.auth.storage.key, some (s.part.auth.storage.encode a)⟩, position)) :
    ∃ r s', Run s₀ (rounds ++ [r]) s' ∧ (r.Silent ↔ s.part.current = some a) := by
  obtain ⟨part', ⟨history, ends, allows⟩, -⟩ := adopt_leads s.part s.store a
  have silent := ((compares_adopt a).silent ends allows).1
  rw [← onReceived_encode fits] at ends
  exact ⟨_, _, run.round news hr ends allows, silent⟩

theorem rounds_silent_iff (plain : storage.backend ≠ .cookie) {s₀ s : Solo} {rounds : List Round}
    (begins : s₀.Begins storage) (run : Run s₀ rounds s) :
    (∀ r ∈ rounds, r.Silent) ↔ ∀ r ∈ rounds, r.Fresh storage :=
  (run.keeps plain begins).1

/-- A follower that hears of a login at once. -/
theorem rounds_silent_iff_login : ∃ (storage : AuthStorage) (s₀ s : Solo) (r : Round),
    storage.backend ≠ .cookie ∧ s₀.Begins storage ∧ Run s₀ [r] s ∧ r.Silent ∧
    ((∀ r' ∈ [r], r'.Silent) ↔ ∀ r' ∈ [r], r'.Fresh storage) := by
  let storage : AuthStorage := { key := "weft:auth" }
  let part : SessionPart := { auth := { storage }, slot := .shared, epoch := 0, moves := false }
  have plain : storage.backend ≠ .cookie := by decide
  have begins : Solo.Begins storage ⟨part, {}, 0⟩ :=
    ⟨rfl, Nat.le_refl 0, rfl, ⟨none, rfl, rfl⟩⟩
  obtain ⟨a, part₁, store, run, auth, -, fits, current, told⟩ :=
    (show Run ⟨part, {}, 0⟩ [] ⟨part, {}, 0⟩ from .start).login plain "t"
  obtain ⟨r, s, run, silent⟩ := run.adopt 1 fits
    (by rw [told]; rfl) (by rw [told, auth]; rfl)
  exact ⟨storage, _, s, r, plain, begins, run, silent.mpr current, rounds_silent_iff plain begins run⟩

/-- What is stored by one's own calls never comes back as if it were news. -/
def NeverEchoes (storage : AuthStorage) : Prop :=
  ∀ s₀ rounds s, Solo.Begins storage s₀ → Run s₀ rounds s → ∀ r ∈ rounds, r.Silent

/-- Where a second login comes before the follower has heard of the first, it goes back to the first. -/
theorem not_neverEchoes : ¬ NeverEchoes { key := "weft:auth" } := by
  intro never
  let storage : AuthStorage := { key := "weft:auth" }
  let part : SessionPart := { auth := { storage }, slot := .shared, epoch := 0, moves := false }
  have plain : storage.backend ≠ .cookie := by decide
  have begins : Solo.Begins storage ⟨part, {}, 0⟩ :=
    ⟨rfl, Nat.le_refl 0, rfl, ⟨none, rfl, rfl⟩⟩
  obtain ⟨a, part₁, store₁, run, auth₁, first, fits, -, told₁⟩ :=
    (show Run ⟨part, {}, 0⟩ [] ⟨part, {}, 0⟩ from .start).login plain "first"
  obtain ⟨b, part₂, store₂, run, auth₂, second, -, current, told₂⟩ :=
    run.login (show part₁.auth.storage.backend ≠ .cookie from auth₁ ▸ plain) "second"
  have auth : part₂.auth = part.auth := auth₂.trans auth₁
  have told : store₂.changes = (Broadcast.send {capacity := Store.changeCapacity}
      ⟨storage.key, some (storage.encode a)⟩).send
        ⟨part₁.auth.storage.key, some (part₁.auth.storage.encode b)⟩ :=
    told₂.trans (congrArg (Broadcast.send · _) told₁)
  have next (c d : StoreChange) :
      ((Broadcast.send {capacity := Store.changeCapacity} c).send d).receive 0 = (.message c, 1) := by
    simp [Broadcast.send, Broadcast.receive, Broadcast.oldest, Store.changeCapacity]
  obtain ⟨r, s, run, silent⟩ := run.adopt 1 fits
    (by rw [told]; rfl) (by rw [told, auth]; exact next _ _)
  have back := silent.mp (never _ _ _ begins run r (by simp))
  obtain rfl := Option.some.inj (current.symm.trans back)
  simp [first] at second

end ScreenFlow.Auth
