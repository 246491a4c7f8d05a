import ScreenFlow.Proofs.Auth.Debts
import ScreenFlow.Proofs.Process.Histories
import ScreenFlow.Proofs.Store.Changes

/-!
# A session and its store

What an answer to a call does to the session and to the stored record, and what the follower of the
store makes of what it hears. A follower takes no notice of the session that it finds: whatever it
was told of last is the session in the end.

* `Pays.answered`: the store is left alone, or gets what is owed to it;
* `decides_applyStored`: a message about what is stored decides the session;
* `InRound.answered`: a follower leaves the store alone, and goes on to where it was headed.
-/

namespace ScreenFlow

open Simulation (SessionPart StoreState memoryAnswer Writes Passes)

/-! ### The stored record -/

namespace AuthStorage

/-- What a stored text, or its absence, says of the session. -/
def Means (storage : AuthStorage) : Option String → Option StoredAuth → Prop
  | none, x => x = none
  | some text, x => ∃ a, storage.decode text = .ok a ∧ x = some a

/-- The store has this session, or has none. -/
def Records (storage : AuthStorage) (s : StoreState) (x : Option StoredAuth) : Prop :=
  ∃ text, s.Holds storage.key text ∧ storage.Means text x

variable {storage : AuthStorage} {s s' : StoreState} {text : Option String} {x y : Option StoredAuth}

theorem Means.unique (h : storage.Means text x) (h' : storage.Means text y) : y = x := by
  cases text with
  | none => exact h'.trans h.symm
  | some t =>
    obtain ⟨a, decoded, rfl⟩ := h
    obtain ⟨b, decoded', rfl⟩ := h'
    rw [decoded] at decoded'
    cases decoded'
    rfl

theorem Records.passes (h : storage.Records s x) (p : Passes storage.key s s') :
    storage.Records s' x := by
  obtain ⟨text, holds, means⟩ := h
  exact ⟨text, p.holds _ holds, means⟩

theorem Records.unique (h : storage.Records s x) (h' : storage.Records s y) : y = x := by
  obtain ⟨text, holds, means⟩ := h
  obtain ⟨text', holds', means'⟩ := h'
  obtain rfl := holds.unique holds'
  exact means.unique means'

end AuthStorage

namespace Auth

/-- What the store, which does not fail, makes of a question. -/
def StoreAnswers : StoreState → (q : Ask) → Answer q → StoreState → Prop
  | s, .store q, a, s' => ∃ now, memoryAnswer s s.entries now q = (a, s')
  | s, _, _, s' => s' = s

/-- A session together with its store. -/
def storeSurroundings : Surroundings interface (SessionPart × StoreState) where
  suspends := surroundings.suspends
  answers s q a s' := Answers s.1 q a s'.1 ∧ StoreAnswers s.2 q a s'.2

variable {storage : AuthStorage} {s s' : StoreState} {x y : Option StoredAuth}

/-! ### What an answer to a call does -/

/-- What an answer does to the session, to the store, and to what the call owes. -/
inductive Paid (storage : AuthStorage) (owed : Option (Option StoredAuth)) (current : Option StoredAuth)
    (before : StoreState) (rest : Operation Unit) : Option StoredAuth → StoreState → Prop
  | changed (x : Option StoredAuth) (free : owed = none)
      (pays : Pays storage (fun _ => True) (some x) rest) :
      Paid storage owed current before rest x before
  | passed {after : StoreState} (passes : Passes storage.key before after)
      (pays : Pays storage (fun _ => True) owed rest) :
      Paid storage owed current before rest current after
  | stored (x : Option StoredAuth) {after : StoreState} {text : Option String} (due : owed = some x)
      (writes : Writes storage.key text before after) (means : storage.Means text x)
      (pays : Pays storage (fun _ => True) none rest) :
      Paid storage owed current before rest current after
  | absent {after : StoreState} (due : owed = some none) (passes : Passes storage.key before after)
      (records : storage.Records before none) (pays : Pays storage (fun _ => True) none rest) :
      Paid storage owed current before rest current after

theorem Pays.answered {owed : Option (Option StoredAuth)} {q : Ask} {next : Answer q → Operation Unit}
    {a : Answer q} {part part' : SessionPart} (pays : Pays storage (fun _ => True) owed (.ask q next))
    (recorded : storage.Records s x)
    (ha : storeSurroundings.answers (part, s) q a (part', s')) :
    Paid storage owed part.current s (next a) part'.current s' ∧ part'.auth = part.auth := by
  obtain ⟨session, store⟩ := ha
  cases q with
  | setSession y =>
    obtain ⟨free, pays⟩ := pays
    rw [show part' = _ from session, show s' = s from store]
    exact ⟨.changed y free pays, rfl⟩
  | store q =>
    obtain ⟨now, ha⟩ := store
    rw [show part' = part from session]
    refine ⟨?_, rfl⟩
    cases q with
    | set key text ttl =>
      obtain ⟨rfl, rfl, ⟨a, due, decoded⟩, pays⟩ := pays
      have writes := Simulation.memoryAnswer_set ha
      exact .stored (some a) due writes ⟨a, decoded, rfl⟩ (pays _)
    | delete key =>
      obtain ⟨rfl, due, pays⟩ := pays
      obtain ⟨text, holds, -⟩ := recorded
      rcases Simulation.memoryAnswer_delete holds ha with writes | ⟨absent, passes⟩
      · exact .stored none due writes rfl (pays _)
      · exact .absent due passes ⟨none, absent, rfl⟩ (pays _)
    | get | keys | isAvailable =>
      exact .passed (Simulation.memoryAnswer_apart (by simp [Store.Ask.written?]) ha) (pays _)
  | takeTicket =>
    have same : part'.current = part.current := congrArg (·.current) session.2
    rw [same, show s' = s from store]
    exact ⟨.passed (.refl _ _) (pays a), congrArg (·.auth) session.2⟩
  | session | profile | turn =>
    rw [show part' = _ from session.2, show s' = s from store]
    exact ⟨.passed (.refl _ _) (pays a), rfl⟩
  | setProfile | handBack | emit | now | send | toLogin =>
    rw [show part' = _ from session, show s' = s from store]
    exact ⟨.passed (.refl _ _) (pays a), rfl⟩

/-! ### What a follower does -/

/-- What a round still asks once the session has been looked after. -/
def Aftermath : Ask → Prop
  | .setProfile _ | .emit _ | .toLogin _ => True
  | _ => False

def Still (p : Operation Unit) : Prop := p.Asks Aftermath

/-- The round is going to make `x` the session, whatever the session is. -/
def Decides (x : Option StoredAuth) : Operation Unit → Prop
  | .ask .session next => ∀ a, if a = x then Still (next a) else Decides x (next a)
  | .ask (.setSession a) next => a = x ∧ Still (next ())
  | _ => False

/-- What the session is going to be if nothing else happens. -/
def Heads (current : Option StoredAuth) (round : Operation Unit) (x : Option StoredAuth) : Prop :=
  Still round ∧ x = current ∨ Decides x round

theorem decides_adopt (a : StoredAuth) : Decides (some a) (adopt a) := by
  intro before
  by_cases h : before = some a
  · simp [h, Process.pure_def, Still, Process.Asks]
  · rw [if_neg h]
    simp only [beq_eq_false_iff_ne.mpr h, Process.done_bind, Bool.false_eq_true, if_false]
    exact ⟨rfl, trivial, fun _ => ⟨trivial, fun _ => trivial⟩⟩

theorem decides_endElsewhere (auth : Auth) : Decides none auth.endElsewhere := by
  intro before
  cases before with
  | none => simp [Process.pure_def, Still, Process.Asks]
  | some a =>
    simp only [Process.done_bind, reduceCtorEq, if_false, Option.isNone_some, Bool.false_eq_true]
    refine ⟨rfl, trivial, fun _ => ⟨trivial, fun _ => ?_⟩⟩
    dsimp only
    split
    · exact ⟨trivial, fun _ => trivial⟩
    · trivial

/-- A round makes the session what it was told. -/
theorem decides_applyStored {auth : Auth} {text : Option String} (means : auth.storage.Means text x) :
    Decides x (auth.applyStored text) := by
  cases text with
  | none =>
    rw [show x = none from means]
    exact decides_endElsewhere auth
  | some t =>
    obtain ⟨a, decoded, rfl⟩ := means
    simp only [applyStored, decoded]
    exact decides_adopt a

/-- A round in the middle. -/
def InRound (auth : Auth) (round : Operation Unit) : Prop :=
  Still round ∨ round = auth.onLag ∨ ∃ x, Decides x round

theorem inRound_applyStored (auth : Auth) (text : Option String) :
    auth.InRound (auth.applyStored text) := by
  cases text with
  | none => exact .inr (.inr ⟨none, decides_endElsewhere auth⟩)
  | some t =>
    simp only [applyStored]
    split
    · exact .inr (.inr ⟨_, decides_adopt _⟩)
    · exact .inl trivial

theorem inRound_onReceived (auth : Auth) (received : Broadcast.Received StoreChange) :
    auth.InRound (auth.onReceived received) := by
  cases received with
  | message c =>
    simp only [onReceived, onChange]
    split
    · exact inRound_applyStored auth _
    · exact .inl trivial
  | lagged missed => exact .inr (.inl rfl)
  | nothing => exact .inl trivial

/-- The first question of a round that reads the store again. -/
theorem onLag_eq (auth : Auth) : ∃ next : Except StoreError (Option String) → Operation Unit,
    auth.onLag = .ask (.store (.get auth.storage.key)) next ∧
      ∀ text, next (.ok text) = auth.applyStored text := by
  refine ⟨_, rfl, fun text => ?_⟩
  cases text with
  | none => rfl
  | some t =>
    simp only [Process.pure_def, Process.done_bind, applyStored]
    cases auth.storage.decode t <;> rfl

/-- What an answer to a follower does: the store stays as it is, and the round goes on to where it
was headed. A round that reads the store again then heads for what is stored. -/
theorem InRound.answered {auth : Auth} {q : Ask} {next : Answer q → Operation Unit} {a : Answer q}
    {part part' : SessionPart} (round : auth.InRound (.ask q next))
    (recorded : auth.storage.Records s x)
    (ha : storeSurroundings.answers (part, s) q a (part', s')) :
    Passes auth.storage.key s s' ∧ part'.auth = part.auth ∧ auth.InRound (next a) ∧
      (.ask q next = auth.onLag → Heads part'.current (next a) x) ∧
      ∀ y, Heads part.current (.ask q next) y → Heads part'.current (next a) y := by
  obtain ⟨session, store⟩ := ha
  obtain ⟨next', reads, got⟩ := auth.onLag_eq
  rw [reads]
  rcases round with ⟨after, still⟩ | lag | ⟨y, decides⟩
  · have goes (same : part'.current = part.current) (y) (h : Heads part.current (.ask q next) y) :
        Heads part'.current (next a) y := by
      rcases h with ⟨-, rfl⟩ | decides
      · exact .inl ⟨still a, same.symm⟩
      · cases q <;> first | exact after.elim | exact decides.elim
    cases q with
    | setProfile | emit | toLogin =>
      rw [show s' = s from store]
      have hs : part' = _ := session
      exact ⟨.refl _ _, by rw [hs], .inl (still a), nofun, goes (by rw [hs])⟩
    | _ => exact after.elim
  · obtain ⟨text, holds, means⟩ := recorded
    rw [reads] at lag
    cases lag
    obtain ⟨now, ha⟩ := store
    rw [Simulation.memoryAnswer_get holds ha, got]
    refine ⟨Simulation.memoryAnswer_apart (by simp [Store.Ask.written?]) ha,
      congrArg (·.auth) session, inRound_applyStored auth text,
      fun _ => .inr (decides_applyStored means), fun z h => ?_⟩
    rcases h with ⟨⟨after, -⟩, -⟩ | decides
    · exact after.elim
    · exact decides.elim
  · cases q with
    | session =>
      obtain ⟨rfl, hs⟩ := session
      rw [show s' = s from store, show part' = part from hs]
      have next := decides part.current
      refine ⟨.refl _ _, rfl, ?_, nofun, fun z h => ?_⟩
      · split at next
        · exact .inl next
        · exact .inr (.inr ⟨y, next⟩)
      · rcases h with ⟨⟨after, -⟩, -⟩ | decides
        · exact after.elim
        · have next := decides part.current
          split at next
          · rename_i same
            exact .inl ⟨next, same.symm⟩
          · exact .inr next
    | setSession b =>
      obtain ⟨rfl, still⟩ := decides
      rw [show s' = s from store]
      have hs : part' = _ := session
      refine ⟨.refl _ _, by rw [hs], .inl still, nofun, fun z h => ?_⟩
      rcases h with ⟨⟨after, -⟩, -⟩ | ⟨rfl, still⟩
      · exact after.elim
      · exact .inl ⟨still, by rw [hs]⟩
    | _ => exact decides.elim

/-! ### Calls and rounds by themselves -/

/-- A login by itself: the session is there, and the store has it and announces it. -/
theorem login_leads {part : SessionPart} (plain : part.auth.storage.backend ≠ .cookie)
    (store : StoreState) (token : String) {a : StoredAuth}
    (ha : record part.auth.settings 0 token none none = a) :
    ∃ store', storeSurroundings.Leads (part.auth.perform (.login token none none)) (part, store) ()
        ({ part with
          current := some a, profile := none,
          events := part.events.send (.loggedIn a.expiresAt) }, store') ∧
      Writes part.auth.storage.key (some (part.auth.storage.encode a)) store store' := by
  obtain ⟨k, begins, ends⟩ := login_bind part.auth token (k := fun _ => .done ())
  have saves : part.auth.save a 0 =
      (ask (.store (.set part.auth.storage.key (part.auth.storage.encode a) none))).bind
        fun r => .done (Except.mapError .store r) := by
    rw [save, AuthStorage.write_plain plain]
    rfl
  obtain ⟨store', kept⟩ : ∃ store', memoryAnswer store store.entries 0
      (.set part.auth.storage.key (part.auth.storage.encode a) none) = (.ok (), store') := ⟨_, rfl⟩
  refine ⟨store', ?_, Simulation.memoryAnswer_set kept⟩
  rw [show part.auth.perform (.login token none none) = _ from begins]
  refine Surroundings.leads_ask_iff.mpr ⟨(0 : Int), (part, store), ⟨rfl, rfl⟩, ?_⟩
  rw [ha]
  refine Surroundings.leads_ask_iff.mpr ⟨(), ({ part with current := some a }, store), ⟨rfl, rfl⟩, ?_⟩
  refine Surroundings.leads_ask_iff.mpr ⟨(0 : Int), _, ⟨rfl, rfl⟩, ?_⟩
  rw [saves]
  refine Surroundings.leads_ask_iff.mpr ⟨.ok (), (_, store'), ⟨rfl, (0 : Int), kept⟩, ?_⟩
  refine (show storeSurroundings.Leads (k a (.ok ())) _ _ _ from ?_)
  rw [ends]
  refine Surroundings.leads_ask_iff.mpr ⟨(), (_, _), ⟨rfl, rfl⟩, ?_⟩
  refine Surroundings.leads_ask_iff.mpr ⟨(), (_, _), ⟨rfl, rfl⟩, ?_⟩
  exact Surroundings.leads_done_iff.mpr ⟨rfl, rfl⟩

/-- What is stored comes back in a message. -/
theorem onReceived_encode {auth : Auth} {a : StoredAuth} (fits : a.Fits) :
    auth.onReceived (.message ⟨auth.storage.key, some (auth.storage.encode a)⟩) = adopt a := by
  simp only [onReceived, onChange, if_pos, applyStored, AuthStorage.decode_encode fits]

theorem adopt_leads (part : SessionPart) (store : StoreState) (a : StoredAuth) :
    ∃ part', storeSurroundings.Leads (adopt a) (part, store) () (part', store) ∧
      part'.current = some a := by
  by_cases same : part.current = some a
  · refine ⟨part, Surroundings.leads_ask_iff.mpr ⟨part.current, _, ⟨⟨rfl, rfl⟩, rfl⟩, ?_⟩, same⟩
    simp [same, Process.pure_def]
  · refine ⟨{ part with
        current := some a, profile := none,
        events := part.events.send
          (if part.current.isSome then .refreshed a.expiresAt else .loggedIn a.expiresAt) },
      Surroundings.leads_ask_iff.mpr ⟨part.current, (part, store), ⟨⟨rfl, rfl⟩, rfl⟩, ?_⟩, rfl⟩
    simp only [beq_eq_false_iff_ne.mpr same, Process.done_bind, Bool.false_eq_true, if_false]
    refine Surroundings.leads_ask_iff.mpr ⟨(), (_, store), ⟨rfl, rfl⟩, ?_⟩
    refine Surroundings.leads_ask_iff.mpr ⟨(), (_, store), ⟨rfl, rfl⟩, ?_⟩
    refine Surroundings.leads_ask_iff.mpr ⟨(), (_, store), ⟨rfl, rfl⟩, ?_⟩
    exact Surroundings.leads_done_iff.mpr ⟨rfl, rfl⟩

end Auth

end ScreenFlow
