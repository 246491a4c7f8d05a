import ScreenFlow.Auth.Session
import ScreenFlow.Proofs.Auth.Ownership
import ScreenFlow.Proofs.Json.Decoding
import ScreenFlow.Proofs.Text.FormFields

/-!
# What a session owes to its store

A session is read back as it was stored, as plain text or in a cookie, for its expiry fits its field.
The session in memory changes first. From then on the operation owes the store the same change, and
it pays before it changes the session again and before it ends.

* `AuthStorage.decode_encode`: the round trip of a record;
* `Auth.record_fits`: every session that is made has an expiry that fits;
* `Repays`: the operations that pay what they owe, whatever the answers are; a session is kept with
  the time that was read just before;
* `repays_perform`: every call is one of them;
* `Pays`: the same where records are stored as plain text, for which the time does not matter;
* `Pays.unique`: what an operation owes is determined.
-/

/-! ## The stored form -/

namespace ScreenFlow

open RecordReader (present)

namespace Bits

theorem inInt64_capInt64 (i : Int) : inInt64 (capInt64 i) = true := by
  have : minInt64 ≤ maxInt64 := by decide
  refine Bool.and_eq_true_iff.mpr ⟨decide_eq_true ?_, decide_eq_true ?_⟩ <;>
    simp only [capInt64] <;> omega

end Bits

namespace StoredAuth

/-- The expiry can be written down. -/
def Fits (a : StoredAuth) : Prop := ∀ e ∈ a.expiresAt, Bits.inInt64 e = true

/-- The fields of a session as they are read. -/
def sourceFields (a : StoredAuth) : List (String × Option Source) :=
  [("token", some (.str a.token)), ("refreshToken", a.refreshToken.map .str),
    ("expiresAt", a.expiresAt.map fun e => (Number.int e).reread)]

theorem toJson_reread (a : StoredAuth) (depth : Nat) :
    a.toJson.reread (depth + 1) = .obj .json (present a.sourceFields) := by
  rw [toJson, Json.reread_obj]
  cases h : a.refreshToken <;> cases h' : a.expiresAt <;>
    simp [present, sourceFields, h, h', Json.int]

theorem decode_reread {a : StoredAuth} (fits : a.Fits) (depth : Nat) :
    decode (a.toJson.reread (depth + 1)) = some a := by
  have nodup : (a.sourceFields.map (·.1)).Nodup := by simp [sourceFields]
  rw [toJson_reread]
  simp only [decode, Decoder.record, RecordReader.bind_required nodup,
    RecordReader.bind_optional nodup]
  simp only [sourceFields, List.lookup_cons, String.reduceBEq, BEq.rfl, Option.join_some,
    Option.bind_eq_bind, Option.bind_some, Decoder.string, Decoder.field_string,
    Decoder.field_int64 fits, StateT.run_pure, Option.pure_def, Option.map_some]

end StoredAuth

namespace AuthStorage

variable {s : AuthStorage} {a : StoredAuth} {now left : Int}

theorem plainText?_encode (s : AuthStorage) (a : StoredAuth) :
    s.plainText? (s.encode a) = .ok a.toJson.render := by
  unfold plainText? encode
  cases s.backend with
  | cookie =>
    dsimp only
    rw [Percent.decode_encode]
    rfl
  | memory | localStore => rfl

/-- A session is read back as it was stored. -/
theorem decode_encode (fits : a.Fits) : s.decode (s.encode a) = .ok a := by
  have decoded : Json.decodeText StoredAuth.decode a.toJson.render = .ok a :=
    (Json.decodeText_render _ _).mpr (StoredAuth.decode_reread fits _)
  rw [decode, plainText?_encode]
  simp only [bind, Except.bind, decoded]
  rfl

/-- Everywhere but in a cookie, a session is stored for good. -/
theorem write_plain (plain : s.backend ≠ .cookie) (a : StoredAuth) (now : Int) :
    s.write a now = .set (s.encode a) none := by
  cases h : s.backend <;> cases h' : a.remaining? now <;> simp_all [write, lifetime?]

/-- Only in a cookie does the time matter at which a session is stored. -/
theorem write_congr (s : AuthStorage) (a : StoredAuth) {now now' : Int}
    (same : s.backend = .cookie → now = now') : s.write a now = s.write a now' := by
  by_cases cookie : s.backend = .cookie
  · rw [same cookie]
  · rw [s.write_plain cookie, s.write_plain cookie]

/-- A session without an end is stored for good. -/
theorem write_endless (endless : a.remaining? now = none) :
    s.write a now = .set (s.encode a) none := by
  cases h : s.backend <;> rw [write, lifetime?, h, endless]

theorem lifetime?_cookie (cookie : s.backend = .cookie) (remains : a.remaining? now = some left) :
    s.lifetime? a now = if left ≤ 0 then none else some (some left.toNat) := by
  rw [lifetime?, cookie, remains]

/-- A cookie is kept as long as its session lasts. -/
theorem write_cookie (cookie : s.backend = .cookie) (remains : a.remaining? now = some left)
    (lasts : 0 < left) : s.write a now = .set (s.encode a) (some left.toNat) := by
  rw [write, lifetime?_cookie cookie remains, if_neg (Int.not_le.mpr lasts)]

theorem write_expired (cookie : s.backend = .cookie) (remains : a.remaining? now = some left)
    (expired : left ≤ 0) : s.write a now = .clear := by
  rw [write, lifetime?_cookie cookie remains, if_pos expired]

end AuthStorage

namespace Auth

theorem addMillis_fits (a b : Int) : Bits.inInt64 (addMillis a b) = true :=
  Bits.inInt64_capInt64 (a + b)

theorem expiry_fits {token : String} {e : Int} (h : Jwt.expiry? token = some e) :
    Bits.inInt64 e = true := by
  simp only [Jwt.expiry?, Option.bind_eq_bind, Option.bind_eq_some_iff] at h
  obtain ⟨parts, -, -, -, seconds, -, h⟩ := h
  cases h
  exact Bits.inInt64_capInt64 _

/-- Every session that is made can be written down. -/
theorem record_fits (s : AuthSettings) (now : Int) (token : String) (refreshToken : Option String)
    (expiresIn : Option Duration) : (record s now token refreshToken expiresIn).Fits := by
  intro e he
  cases h : Jwt.expiry? token with
  | none =>
    rw [record, h] at he
    cases he
    exact addMillis_fits _ _
  | some e' =>
    rw [record, h] at he
    cases he
    exact expiry_fits h

/-- So can the session that a reply of the token endpoint stands for. -/
theorem ofTokenReply_fits {s : AuthSettings} {now : Int} {refreshToken : String} {reply : Reply}
    {a : StoredAuth} (h : ofTokenReply s now refreshToken reply = .ok a) : a.Fits := by
  simp only [ofTokenReply] at h
  split at h
  · cases h
  · split at h
    · cases h
    · split at h
      · cases h
      · cases h
        exact record_fits _ _ _ _ _

end Auth

end ScreenFlow

/-! ## Debts -/

namespace ScreenFlow

/-- How the store is asked to do this. -/
def AuthStorage.Write.ask (key : String) : AuthStorage.Write → Store.Ask
  | .set text ttl => .set key text ttl
  | .clear => .delete key

namespace Auth

/-! ### With the time -/

/-- What is still to be stored: nothing, what has just become of the session, or the same with the
time that was read just before. -/
inductive Debt where
  | none
  | owed (x : Option StoredAuth)
  | dated (x : Option StoredAuth) (now : Int)

namespace Debt

def read (now : Int) : Debt → Debt
  | none => none
  | owed x | dated x _ => dated x now

/-- Something else is asked, and time may pass. -/
def later : Debt → Debt
  | dated x _ => owed x
  | debt => debt

def session? : Debt → Option (Option StoredAuth)
  | none => .none
  | owed x | dated x _ => some x

end Debt

/-- The question settles the debt. -/
inductive Debt.PaidBy (storage : AuthStorage) : Debt → Store.Ask → Prop
  | kept {a : StoredAuth} (fits : a.Fits) (now : Int) :
      PaidBy storage (.dated (some a) now) ((storage.write a now).ask storage.key)
  | cleared {debt : Debt} (ended : debt.session? = some Option.none) :
      PaidBy storage debt (.delete storage.key)

/-- Each change of the session is made in the store before the session changes again and before the
operation ends with a result of which `Q` holds. -/
def Repays (storage : AuthStorage) {α : Type} (Q : α → Prop) : Debt → Operation α → Prop
  | debt, .done a => debt = .none ∧ Q a
  | debt, .ask (.setSession x) next => debt = .none ∧ Repays storage Q (.owed x) (next ())
  | debt, .ask .now next => ∀ now, Repays storage Q (debt.read now) (next now)
  | debt, .ask (.store q) next => debt.PaidBy storage q ∧ ∀ x, Repays storage Q .none (next x)
  | debt, .ask _ next => ∀ x, Repays storage Q debt.later (next x)

variable {storage : AuthStorage} {auth : Auth} {α β : Type} {debt : Debt}

theorem Repays.bind {R : α → Prop} {Q : β → Prop} {p : Operation α} {k : α → Operation β}
    (h : Repays storage R debt p) (hk : ∀ a, R a → Repays storage Q .none (k a)) :
    Repays storage Q debt (p.bind k) := by
  induction p generalizing debt with
  | done a =>
    obtain ⟨rfl, ha⟩ := h
    exact hk a ha
  | ask q next ih =>
    cases q with
    | setSession x => exact ⟨h.1, ih () h.2⟩
    | store q => exact ⟨h.1, fun x => ih x (h.2 x)⟩
    | _ => exact fun x => ih x (h x)

/-! ### The parts of calls -/

theorem repays_save {a : StoredAuth} (fits : a.Fits) (now : Int) :
    Repays auth.storage (fun _ => True) (.dated (some a) now) (auth.save a now) := by
  have paid : Debt.PaidBy auth.storage (.dated (some a) now)
      ((auth.storage.write a now).ask auth.storage.key) := .kept fits now
  rw [save]
  cases written : auth.storage.write a now with
  | set text ttl =>
    rw [written] at paid
    exact ⟨paid, fun _ => ⟨rfl, trivial⟩⟩
  | clear =>
    rw [written] at paid
    exact ⟨paid, fun _ => ⟨rfl, trivial⟩⟩

theorem repays_establish {a : StoredAuth} (fits : a.Fits) :
    Repays auth.storage (fun _ => True) .none (auth.establish a) :=
  ⟨rfl, fun now => repays_save fits now⟩

theorem repays_login (auth : Auth) (token : String) (refreshToken : Option String)
    (expiresIn : Option Duration) :
    Repays auth.storage (fun _ => True) .none (auth.login token refreshToken expiresIn) := by
  intro now
  refine (repays_establish (record_fits _ now token refreshToken expiresIn)).bind fun r _ => ?_
  cases r with
  | error e => exact ⟨rfl, trivial⟩
  | ok _ => exact fun _ _ => ⟨rfl, trivial⟩

theorem repays_logout (auth : Auth) (toLogin : Bool) :
    Repays auth.storage (fun _ => True) .none (auth.logout toLogin) := by
  intro before
  refine ⟨rfl, fun _ => ⟨.cleared rfl, fun deleted => ?_⟩⟩
  cases before <;> cases toLogin <;>
    simp [redirect, ask, Process.call, Process.bind_def, Process.pure_def, Repays, Debt.later]

/-- What an exchange brings can be written down. -/
theorem repays_exchange (auth : Auth) :
    Repays auth.storage (fun r => ∀ a, r = .ok a → a.Fits) .none auth.exchange := by
  intro a
  simp only [Process.done_bind, Process.pure_def]
  split
  · exact ⟨rfl, nofun⟩
  · split
    · exact ⟨rfl, nofun⟩
    · intro reply
      cases reply with
      | error f => exact ⟨rfl, nofun⟩
      | ok reply => exact fun now => ⟨rfl, fun a ha => ofTokenReply_fits ha⟩

theorem repays_concludeRefresh (auth : Auth) (toLogin : Bool) {r : Except AuthError StoredAuth}
    (fits : ∀ a, r = .ok a → a.Fits) :
    Repays auth.storage (fun _ => True) .none (auth.concludeRefresh toLogin r) := by
  cases r with
  | ok a =>
    refine (repays_establish (fits a rfl)).bind fun r _ => ?_
    cases r with
    | error e => exact ⟨rfl, trivial⟩
    | ok _ => exact fun _ => ⟨rfl, trivial⟩
  | error e => exact (repays_logout auth toLogin).bind fun _ _ => ⟨rfl, trivial⟩

theorem repays_refreshWith (auth : Auth) (toLogin : Bool) :
    Repays auth.storage (fun _ => True) .none (auth.refreshWith toLogin) := by
  intro seen ticket _ a now
  have renewed : Repays auth.storage (fun _ => True) .none
      (auth.exchange.bind fun r => auth.concludeRefresh toLogin r) :=
    (repays_exchange auth).bind fun r fits => repays_concludeRefresh auth toLogin fits
  have handedBack (r : Except AuthError String) : Repays auth.storage (fun _ => True) .none
      ((ask (.handBack ticket)).bind fun _ => .done r) := fun _ => ⟨rfl, trivial⟩
  simp only [Process.done_bind, Process.pure_def]
  cases a with
  | none => exact renewed.bind fun r _ => handedBack r
  | some current =>
    dsimp only
    split
    · exact handedBack _
    · exact renewed.bind fun r _ => handedBack r

theorem repays_fetchProfile (auth : Auth) (endpoint token : String) :
    Repays auth.storage (fun _ => True) .none (auth.fetchProfile endpoint token) := by
  intro reply
  simp only [Process.done_bind, Process.pure_def]
  cases reply with
  | error f => exact ⟨rfl, trivial⟩
  | ok reply =>
    dsimp only
    split
    · refine (repays_logout auth _).bind fun r _ => ?_
      cases r <;> exact ⟨rfl, trivial⟩
    · split
      · exact ⟨rfl, trivial⟩
      · split
        · exact ⟨rfl, trivial⟩
        · exact fun _ => ⟨rfl, trivial⟩

theorem repays_loadProfile (auth : Auth) (force : Bool) :
    Repays auth.storage (fun _ => True) .none (auth.loadProfile force) := by
  simp only [loadProfile]
  split
  · exact ⟨rfl, trivial⟩
  · intro a
    cases a with
    | none => exact ⟨rfl, trivial⟩
    | some a =>
      intro kept
      simp only [Process.done_bind, Process.pure_def]
      split
      · exact ⟨rfl, trivial⟩
      · exact repays_fetchProfile auth _ _

theorem repays_perform (auth : Auth) (c : Call) :
    Repays auth.storage (fun _ => True) .none (auth.perform c) := by
  have dropped {α : Type} {p : Operation α} (h : Repays auth.storage (fun _ => True) .none p) :
      Repays auth.storage (fun _ => True) .none (p.bind fun _ => .done ()) :=
    h.bind fun _ _ => ⟨rfl, trivial⟩
  cases c with
  | login token refreshToken expiresIn =>
    exact dropped (repays_login auth token refreshToken expiresIn)
  | logout toLogin => exact dropped (repays_logout auth toLogin)
  | refresh => exact dropped (repays_refreshWith auth _)
  | refreshForRequest =>
    exact dropped ((repays_refreshWith auth false).bind fun _ _ => ⟨rfl, trivial⟩)
  | loadProfile force => exact dropped (repays_loadProfile auth force)

/-! ### As plain text -/

/-- Each change of the session is made in the store before the session changes again and before the
operation ends with a result of which `Q` holds. At first `owed` has still to be stored. -/
def Pays (storage : AuthStorage) {α : Type} (Q : α → Prop) :
    Option (Option StoredAuth) → Operation α → Prop
  | owed, .done a => owed = none ∧ Q a
  | owed, .ask (.setSession a) next => owed = none ∧ Pays storage Q (some a) (next ())
  | owed, .ask (.store (.set key text ttl)) next =>
    key = storage.key ∧ ttl = none ∧ (∃ a, owed = some (some a) ∧ storage.decode text = .ok a) ∧
      ∀ x, Pays storage Q none (next x)
  | owed, .ask (.store (.delete key)) next =>
    key = storage.key ∧ owed = some none ∧ ∀ x, Pays storage Q none (next x)
  | owed, .ask _ next => ∀ x, Pays storage Q owed (next x)

variable {owed : Option (Option StoredAuth)}

/-- What an operation owes is determined by what it is going to do. -/
theorem Pays.unique {Q : α → Prop} {owed' : Option (Option StoredAuth)} {p : Operation α}
    (h : Pays storage Q owed p) (h' : Pays storage Q owed' p) : owed' = owed := by
  induction p with
  | done a => exact h'.1.trans h.1.symm
  | ask q next ih =>
    obtain ⟨x⟩ := nonempty_answer q
    cases q with
    | setSession a => exact h'.1.trans h.1.symm
    | store q =>
      cases q with
      | set key text ttl =>
        obtain ⟨-, -, ⟨a, rfl, decoded⟩, -⟩ := h
        obtain ⟨-, -, ⟨a', rfl, decoded'⟩, -⟩ := h'
        rw [decoded] at decoded'
        cases decoded'
        rfl
      | delete key => exact h'.2.1.trans h.2.1.symm
      | _ => exact ih x (h x) (h' x)
    | _ => exact ih x (h x) (h' x)

/-- A plain record does not depend on the time. -/
theorem Repays.pays (plain : storage.backend ≠ .cookie) {Q : α → Prop} {p : Operation α}
    (h : Repays storage Q debt p) : Pays storage Q debt.session? p := by
  induction p generalizing debt with
  | done a =>
    obtain ⟨rfl, ha⟩ := h
    exact ⟨rfl, ha⟩
  | ask q next ih =>
    cases q with
    | setSession x =>
      obtain ⟨rfl, h⟩ := h
      exact ⟨rfl, ih () h⟩
    | now =>
      intro now
      have same : (debt.read now).session? = debt.session? := by cases debt <;> rfl
      exact same ▸ ih now (h now)
    | store q =>
      obtain ⟨paid, h⟩ := h
      cases paid with
      | @kept a fits now =>
        have written := storage.write_plain plain a now
        generalize storage.write a now = w at next h ih written ⊢
        subst written
        exact ⟨rfl, rfl, ⟨a, rfl, AuthStorage.decode_encode fits⟩, fun x => ih x (h x)⟩
      | cleared ended => exact ⟨rfl, ended, fun x => ih x (h x)⟩
    | _ =>
      have same : debt.later.session? = debt.session? := by cases debt <;> rfl
      exact fun x => same ▸ ih x (h x)

theorem pays_perform (plain : auth.storage.backend ≠ .cookie) (c : Call) :
    Pays auth.storage (fun _ => True) none (auth.perform c) :=
  (repays_perform auth c).pays plain

end Auth

end ScreenFlow
