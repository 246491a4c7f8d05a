import ScreenFlow.Proofs.Auth.Debts
import ScreenFlow.Proofs.Process.Histories
import ScreenFlow.Proofs.Store.Refinement

/-!
# The session and its stored record

A session, its store and the clock that both of them read. Time may pass with every question. Where
the session is kept in a cookie, it stands still after a look at the clock, so what is asked next is
asked at the time that was read.

* `Store.Medium`, `Medium.Has.step`: a store in memory or in a file, and the map that it is;
* `Repays.answered`, `Repays.leads`: one answer, and a whole operation, keep the record in step;
* `load_agrees`: after any operations, and at any time later, loading brings the session, unless it
  is kept in a cookie and has expired.
-/

namespace ScreenFlow

open Simulation (SessionPart StoreState)

/-! ### The store -/

namespace Store

namespace Contents

variable {m m' : Contents} {now : Int} {key value : String} {ttl : Option Duration} {v : Visit}

theorem Step.get (step : Step (now, .get key) m v m') :
    v.reply = .ok (.found (m.live? now key)) ∧ m' = m := by
  obtain ⟨reply, news⟩ := v
  obtain ⟨_, replied, answers⟩ := step
  cases answers
  exact ⟨replied, rfl⟩

theorem Step.set (step : Step (now, .set key value ttl) m v m') :
    m' = m.update key (some ⟨value, ttl.map fun (d : Duration) => now + d⟩) := by
  obtain ⟨reply, news⟩ := v
  obtain ⟨_, replied, answers⟩ := step
  cases answers
  cases ttl <;> rfl

theorem Step.delete (step : Step (now, .delete key) m v m') : m' = m.update key none := by
  obtain ⟨reply, news⟩ := v
  obtain ⟨_, replied, answers⟩ := step
  cases answers <;> rfl

end Contents

/-- A store in memory or in a file. -/
inductive Medium where
  | memory (s : StoreState)
  | file (s : FileStore.Shelf)

namespace Medium

/-- A call on a store that does not fail. -/
inductive Step (c : TimedCommand) : Medium → Visit → Medium → Prop
  | memory {s v s'} (here : MemoryStore.Step c s v s') : Step c (.memory s) v (.memory s')
  | file {s v s'} (here : FileStore.Shelf.Step c s v s') : Step c (.file s) v (.file s')

def Keeps (es : Entries) : Medium → Prop
  | memory s => MemoryStore.Keeps es s
  | file s => FileStore.Shelf.Keeps es s

theorem tracks : Tracks Step fun _ => Keeps where
  answered {since es s} c h later := by
    cases s with
    | memory s =>
      obtain ⟨s', here⟩ := MemoryStore.tracks.answered c h later
      exact ⟨_, .memory here⟩
    | file s =>
      obtain ⟨s', here⟩ := FileStore.Shelf.tracks.answered c h later
      exact ⟨_, .file here⟩
  only c h later here := by
    cases here with
    | memory here => exact MemoryStore.tracks.only c h later here
    | file here => exact FileStore.Shelf.tracks.only c h later here

/-- From this time on the store shows what the map does. -/
def Has (since : Int) (m : Contents) (s : Medium) : Prop :=
  ∃ es, s.Keeps es ∧ Contents.Shows since es m

variable {since now : Int} {m : Contents} {s s' : Medium} {c : TimedCommand} {v : Visit}

theorem Has.later (h : s.Has since m) (le : since ≤ now) : s.Has now m := by
  obtain ⟨es, keeps, shows⟩ := h
  exact ⟨es, keeps, shows.later le⟩

theorem Has.exists_step (h : s.Has c.1 m) : ∃ v s', Step c s v s' := by
  obtain ⟨es, keeps, -⟩ := h
  obtain ⟨s', here⟩ := tracks.answered c keeps (Int.le_refl _)
  exact ⟨_, s', here⟩

theorem Has.step (h : s.Has c.1 m) (here : Step c s v s') :
    ∃ m', Contents.Step c m v m' ∧ s'.Has c.1 m' := by
  obtain ⟨es, keeps, shows⟩ := h
  obtain ⟨rfl, keeps'⟩ := tracks.only c keeps (Int.le_refl _) here
  obtain ⟨m', step⟩ := Contents.tracks.answered c shows (Int.le_refl _)
  obtain ⟨-, shows'⟩ := Contents.tracks.only c shows (Int.le_refl _) step
  exact ⟨m', step, _, keeps', shows'⟩

/-- The answer to a command at a time. -/
def Serves (now : Int) (s : Medium) (r : Command) (a : Answer r.ask) (s' : Medium) : Prop :=
  ∃ news, Step (now, r) s ⟨r.reply a, news⟩ s'

def Answers (now : Int) (s : Medium) : (q : Ask) → Answer q → Medium → Prop
  | .get key, a, s' => s.Serves now (.get key) a s'
  | .set key value ttl, a, s' => s.Serves now (.set key value ttl) a s'
  | .delete key, a, s' => s.Serves now (.delete key) a s'
  | .keys start, a, s' => s.Serves now (.keys start) a s'
  | .isAvailable, a, s' => a = true ∧ s' = s

end Medium

end Store

open Store (Medium Contents)

/-! ### The record -/

namespace AuthStorage

/-- What of a session is to be found at a time: in a cookie it goes when its token expires. -/
def lasting (s : AuthStorage) (x : Option StoredAuth) (now : Int) : Option StoredAuth :=
  match s.backend with
  | .cookie => x.filter fun a => a.expiresAt.all (now < ·)
  | _ => x

@[simp] theorem lasting_none (s : AuthStorage) (now : Int) : s.lasting none now = none := by
  unfold lasting
  split <;> rfl

theorem lasting_of_lasts {s : AuthStorage} {a : StoredAuth} {t : Int}
    (lasts : s.backend = .cookie → ∀ e ∈ a.expiresAt, t < e) : s.lasting (some a) t = some a := by
  unfold lasting
  split
  · rename_i cookie
    have counts : (a.expiresAt.all fun e => decide (t < e)) = true := by
      cases expires : a.expiresAt with
      | none => rfl
      | some e => exact decide_eq_true (lasts cookie e expires)
    rw [Option.filter, if_pos counts]
  · rfl

theorem lasting_of_elapsed {s : AuthStorage} {a : StoredAuth} {e t : Int}
    (cookie : s.backend = .cookie) (expires : a.expiresAt = some e) (elapsed : e ≤ t) :
    s.lasting (some a) t = none := by
  unfold lasting
  rw [cookie]
  simp [Option.filter, expires, elapsed]

theorem eq_of_lasting {s : AuthStorage} {x : Option StoredAuth} {a : StoredAuth} {t : Int}
    (h : s.lasting x t = some a) : x = some a := by
  unfold lasting at h
  split at h
  · exact (Option.filter_eq_some_iff.mp h).1
  · exact h

/-- What is put into the store. -/
def Write.item? (now : Int) : Write → Option Store.Item
  | .set text ttl => some ⟨text, ttl.map fun (d : Duration) => now + d⟩
  | .clear => none

theorem live_item (i : Store.Item) (t : Int) :
    ((some i).filter fun i => i.Counts t).map (·.value) =
      if i.Counts t then some i.value else none := by
  by_cases counts : i.Counts t <;> simp [Option.filter, counts]

/-- What is put into the store counts as long as the session lasts. -/
theorem live_write (s : AuthStorage) (a : StoredAuth) {now t : Int} (le : now ≤ t) :
    (((s.write a now).item? now).filter fun i => i.Counts t).map (·.value) =
      (s.lasting (some a) t).map s.encode := by
  by_cases cookie : s.backend = .cookie
  · cases expires : a.expiresAt with
    | none =>
      have endless : a.remaining? now = none := by rw [StoredAuth.remaining?, expires]; rfl
      rw [write_endless endless, Write.item?, live_item, if_pos nofun,
        lasting_of_lasts (by simp [expires])]
      rfl
    | some e =>
      have remains : a.remaining? now = some (e - now) := by
        rw [StoredAuth.remaining?, expires]; rfl
      by_cases elapsed : e - now ≤ 0
      · rw [write_expired cookie remains elapsed, lasting_of_elapsed cookie expires (by omega)]
        rfl
      · have ends : now + ((e - now).toNat : Int) = e := by omega
        have counts : Store.Item.Counts ⟨s.encode a, some e⟩ t ↔ t < e := by
          simp [Store.Item.Counts]
        rw [write_cookie cookie remains (Int.not_le.mp elapsed), Write.item?, Option.map_some,
          ends, live_item]
        by_cases lasts : t < e
        · rw [if_pos (counts.mpr lasts), lasting_of_lasts (by simpa [expires] using fun _ => lasts)]
          rfl
        · rw [if_neg (mt counts.mp lasts), lasting_of_elapsed cookie expires (by omega)]
          rfl
  · rw [s.write_plain cookie, Write.item?, live_item, if_pos nofun,
      lasting_of_lasts fun same => absurd same cookie]
    rfl

end AuthStorage

namespace Auth

/-! ### In step -/

/-- A session with its store, and the time that the clock of both shows. -/
structure Timed where
  part : SessionPart
  store : Medium
  now : Int

/-- If time passed between the look at the clock and the question with which a record is kept, a
cookie would last longer than its token. -/
def Timed.Answers (backend : StorageBackend) : Timed → (q : Ask) → Answer q → Timed → Prop
  | s, .now, a, s' => a = s.now ∧ s'.part = s.part ∧ s'.store = s.store ∧ s.now ≤ s'.now ∧
    (backend = .cookie → s'.now = s.now)
  | s, .store q, a, s' => s'.part = s.part ∧ s.store.Answers s.now q a s'.store ∧ s.now ≤ s'.now
  | s, q, a, s' => Auth.Answers s.part q a s'.part ∧ s'.store = s.store ∧ s.now ≤ s'.now

def timedSurroundings (backend : StorageBackend) : Surroundings interface Timed where
  suspends := surroundings.suspends
  answers := Timed.Answers backend

/-- While time passes, an operation comes to this result and leaves things like this. -/
abbrev Leads (auth : Auth) {α : Type} (p : Operation α) (s : Timed) (a : α) (s' : Timed) : Prop :=
  (timedSurroundings auth.storage.backend).Leads p s a s'

/-- From this time on the map has the record of this session, and nothing where there is none. -/
structure Recorded (storage : AuthStorage) (x : Option StoredAuth) (m : Contents) (now : Int) :
    Prop where
  live : ∀ t, now ≤ t → m.live? t storage.key = (storage.lasting x t).map storage.encode
  fits : ∀ a, x = some a → a.Fits

/-- The record is as the debt says. -/
def Debt.Stands (storage : AuthStorage) (s : Timed) (m : Contents) : Debt → Prop
  | .none => Recorded storage s.part.current m s.now
  | .owed x => s.part.current = x
  | .dated x now => s.part.current = x ∧ (storage.backend = .cookie → s.now = now)

/-- The session and its store are in step, apart from what is owed. -/
def InStep (storage : AuthStorage) (debt : Debt) (s : Timed) : Prop :=
  ∃ m, s.store.Has s.now m ∧ debt.Stands storage s m

variable {storage : AuthStorage} {s s' : Timed} {m : Contents} {debt : Debt} {α : Type}
  {Q : α → Prop} {x : Option StoredAuth} {now t : Int}

theorem Recorded.later (h : Recorded storage x m now) (le : now ≤ t) : Recorded storage x m t :=
  ⟨fun u later => h.live u (Int.le_trans le later), h.fits⟩

/-- A question that leaves the session and the store alone takes time. -/
theorem InStep.later (h : InStep storage debt s) (current : s'.part.current = s.part.current)
    (store : s'.store = s.store) (le : s.now ≤ s'.now) : InStep storage debt.later s' := by
  obtain ⟨m, has, stands⟩ := h
  refine ⟨m, store ▸ has.later le, ?_⟩
  cases debt with
  | none =>
    have recorded : Recorded storage s.part.current m s.now := stands
    rw [← current] at recorded
    exact recorded.later le
  | owed x => exact current.trans stands
  | dated x now => exact current.trans stands.1

theorem has_write {key : String} {w : AuthStorage.Write} {medium medium' : Medium}
    {a : Store.Answer (w.ask key)} (has : medium.Has now m)
    (ha : medium.Answers now (w.ask key) a medium') :
    medium'.Has now (m.update key (w.item? now)) := by
  cases w with
  | set text ttl =>
    obtain ⟨news, step⟩ := ha
    obtain ⟨m', here, has'⟩ := has.step step
    exact here.set ▸ has'
  | clear =>
    obtain ⟨news, step⟩ := ha
    obtain ⟨m', here, has'⟩ := has.step step
    exact here.delete ▸ has'

/-- What has been paid for is recorded. -/
theorem recorded_of_paid {q : Store.Ask} {a : Store.Answer q} {medium : Medium}
    (paid : debt.PaidBy storage q) (has : s.store.Has s.now m) (stands : debt.Stands storage s m)
    (ha : s.store.Answers s.now q a medium) :
    ∃ m', medium.Has s.now m' ∧ Recorded storage s.part.current m' s.now := by
  cases paid with
  | @kept b fits now =>
    obtain ⟨current, still⟩ := stands
    have same := storage.write_congr b still
    generalize storage.write b now = w at a ha same
    subst same
    refine ⟨_, has_write has ha, fun t le => ?_, fun c hc => ?_⟩
    · rw [Contents.live?_update, if_pos rfl, current]
      exact storage.live_write b le
    · rw [current] at hc
      exact Option.some.inj hc ▸ fits
  | cleared ended =>
    have current : s.part.current = none := by
      cases debt with
      | none => cases ended
      | owed x => exact stands.trans (Option.some.inj ended)
      | dated x now => exact stands.1.trans (Option.some.inj ended)
    refine ⟨_, has_write (w := .clear) has ha, fun t _ => ?_, fun b hb => ?_⟩
    · rw [Contents.live?_update, if_pos rfl, current, storage.lasting_none]
      rfl
    · rw [current] at hb
      cases hb

theorem Repays.answered {q : Ask} {next : Answer q → Operation α} {a : Answer q}
    (repays : Repays storage Q debt (.ask q next)) (inStep : InStep storage debt s)
    (ha : (timedSurroundings storage.backend).answers s q a s') :
    ∃ debt', Repays storage Q debt' (next a) ∧ InStep storage debt' s' := by
  cases q with
  | setSession x =>
    obtain ⟨rfl, repays⟩ := repays
    obtain ⟨part, store, le⟩ := ha
    obtain ⟨m, has, -⟩ := inStep
    refine ⟨.owed x, repays, m, store ▸ has.later le, ?_⟩
    exact congrArg (·.current) part
  | now =>
    obtain ⟨rfl, part, store, le, still⟩ := ha
    obtain ⟨m, has, stands⟩ := inStep.later (congrArg (·.current) part) store le
    refine ⟨_, repays _, m, has, ?_⟩
    cases debt with
    | none => exact stands
    | owed x | dated x now => exact ⟨stands, still⟩
  | store q =>
    obtain ⟨paid, repays⟩ := repays
    obtain ⟨part, answers, le⟩ := ha
    obtain ⟨m, has, stands⟩ := inStep
    obtain ⟨m', has', recorded⟩ := recorded_of_paid paid has stands answers
    rw [← part] at recorded
    exact ⟨.none, repays a, m', has'.later le, recorded.later le⟩
  | takeTicket =>
    obtain ⟨session, store, le⟩ := ha
    exact ⟨_, repays a, inStep.later (congrArg (·.current) session.2) store le⟩
  | session | profile | turn =>
    obtain ⟨session, store, le⟩ := ha
    exact ⟨_, repays a, inStep.later (congrArg (·.current) session.2) store le⟩
  | setProfile | handBack | emit | send | toLogin =>
    obtain ⟨session, store, le⟩ := ha
    have same : s'.part = _ := session
    exact ⟨_, repays a, inStep.later (by rw [same]) store le⟩

/-- The debt goes from answer to answer, and there is none in the end. -/
theorem Repays.leads {p : Operation α} (repays : Repays storage Q debt p)
    (inStep : InStep storage debt s) {a : α}
    (leads : (timedSurroundings storage.backend).Leads p s a s') :
    Q a ∧ InStep storage .none s' := by
  induction p generalizing debt s with
  | done b =>
    obtain ⟨rfl, hb⟩ := repays
    obtain ⟨rfl, rfl⟩ := Surroundings.leads_done_iff.mp leads
    exact ⟨hb, inStep⟩
  | ask q next ih =>
    obtain ⟨x, s₁, here, rest⟩ := Surroundings.leads_ask_iff.mp leads
    obtain ⟨debt', repays', inStep'⟩ := repays.answered inStep here
    exact ih x repays' inStep' rest

/-! ### Loading -/

variable {auth : Auth}

/-- What is loaded of what the store has replied. -/
theorem load_eq (auth : Auth) : ∃ next, auth.load = .ask (.store (.get auth.storage.key)) next ∧
    ∀ x : Option StoredAuth, (∀ a, x = some a → a.Fits) →
      next (.ok (x.map auth.storage.encode)) = .done (.ok x) := by
  refine ⟨_, rfl, fun x fits => ?_⟩
  cases x with
  | none => rfl
  | some a =>
    rw [Option.map_some]
    simp only [AuthStorage.decode_encode (fits a rfl), Process.done_bind]
    rfl

/-- Looking into the store finds the record of the session as long as that lasts. -/
theorem InStep.finds (inStep : InStep storage .none s)
    {a : Except StoreError (Option String)} {medium : Medium}
    (ha : s.store.Answers s.now (.get storage.key) a medium) :
    a = .ok ((storage.lasting s.part.current s.now).map storage.encode) ∧
      ∃ m, medium.Has s.now m ∧ Recorded storage s.part.current m s.now := by
  obtain ⟨m, has, recorded⟩ := inStep
  obtain ⟨news, step⟩ := ha
  obtain ⟨m', here, has'⟩ := has.step step
  obtain ⟨replied, rfl⟩ := here.get
  refine ⟨?_, m', has', recorded⟩
  rw [← recorded.live s.now (Int.le_refl _)]
  cases a with
  | error e => cases replied
  | ok found => exact congrArg Except.ok (Store.Command.Reply.found.inj (Except.ok.inj replied))

theorem InStep.exists_found (inStep : InStep storage .none s) :
    ∃ (a : Except StoreError (Option String)) (medium : Medium),
      s.store.Answers s.now (.get storage.key) a medium := by
  obtain ⟨m, has, -⟩ := inStep
  obtain ⟨⟨reply, news⟩, medium, step⟩ :=
    Medium.Has.exists_step (c := (s.now, .get storage.key)) has
  obtain ⟨m', here, -⟩ := has.step step
  obtain ⟨rfl, -⟩ := here.get
  exact ⟨.ok _, medium, news, step⟩

theorem InStep.load (inStep : InStep auth.storage .none s) :
    (∃ r s', auth.Leads auth.load s r s') ∧
      ∀ r s', auth.Leads auth.load s r s' →
        r = .ok (auth.storage.lasting s.part.current s.now) ∧ InStep auth.storage .none s' := by
  obtain ⟨next, load, read⟩ := load_eq auth
  have fits (a : StoredAuth) (h : auth.storage.lasting s.part.current s.now = some a) : a.Fits := by
    obtain ⟨m, -, recorded⟩ := inStep
    exact recorded.fits a (AuthStorage.eq_of_lasting h)
  rw [load]
  constructor
  · obtain ⟨a, medium, found⟩ := inStep.exists_found
    obtain ⟨rfl, -⟩ := inStep.finds found
    refine ⟨.ok (auth.storage.lasting s.part.current s.now), { s with store := medium },
      Surroundings.leads_ask_iff.mpr
        ⟨_, { s with store := medium }, ⟨rfl, found, Int.le_refl _⟩, ?_⟩⟩
    rw [read _ fits]
    exact Surroundings.leads_done_iff.mpr ⟨rfl, rfl⟩
  · intro r s' leads
    obtain ⟨a, s₁, ⟨part, found, le⟩, rest⟩ := Surroundings.leads_ask_iff.mp leads
    obtain ⟨rfl, m, has, recorded⟩ := inStep.finds found
    rw [read _ fits] at rest
    obtain ⟨rfl, rfl⟩ := Surroundings.leads_done_iff.mp rest
    rw [← part] at recorded
    exact ⟨rfl, m, has.later le, recorded.later le⟩

/-! ### Operation after operation -/

/-- What comes about by operations that are completed one after the other, and by looks at the store
in between, while the clock advances. At first there is neither a session nor a record. -/
inductive Reached (auth : Auth) : Timed → Prop
  | start {s : Timed} {m : Contents} (noSession : s.part.current = none) (has : s.store.Has s.now m)
      (noRecord : ∀ t, s.now ≤ t → m.live? t auth.storage.key = none) : Reached auth s
  | called {s s' : Timed} (before : Reached auth s) (c : Call)
      (leads : auth.Leads (auth.perform c) s () s') : Reached auth s'
  | loaded {s s' : Timed} {r : Except AuthError (Option StoredAuth)} (before : Reached auth s)
      (leads : auth.Leads auth.load s r s') : Reached auth s'
  | waited {s : Timed} (before : Reached auth s) {now : Int} (le : s.now ≤ now) :
      Reached auth { s with now }

theorem Reached.inStep (reached : Reached auth s) : InStep auth.storage .none s := by
  induction reached with
  | @start s m noSession has noRecord =>
    refine ⟨m, has, fun t le => ?_, fun a ha => ?_⟩
    · rw [noRecord t le, noSession, auth.storage.lasting_none]
      rfl
    · rw [noSession] at ha
      cases ha
  | called before c leads ih => exact ((repays_perform auth c).leads ih leads).2
  | loaded before leads ih => exact (ih.load.2 _ _ leads).2
  | waited before le ih => exact ih.later rfl rfl le

end Auth

end ScreenFlow
