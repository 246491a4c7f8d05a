import Mathlib.Logic.Function.Basic
import ScreenFlow.Proofs.Auth.Following

/-!
# Sessions that share a store

Several holders of a session keep it under the same key of one store, and each of them follows the
changes of the store. Their calls and their followers go on in any order, one question at a time, and
others use the store under other keys.

* `Sharing.Step`: what can happen next;
* `Follows`: what each step keeps of every holder: it is told of the stored record, or it has it, or
  someone still owes the store a change;
* `sessions_agree_at_rest`: when nothing is under way, every session is the stored one.
-/

namespace ScreenFlow

open Simulation (SessionPart StoreState memoryAnswer Writes Passes Informed Latest)

namespace Auth

/-- One of those who share a store. -/
structure Holder where
  part : SessionPart
  /-- How many changes the follower has read. -/
  position : Nat
  /-- What is left of the follower's round. -/
  round : Operation Unit := .done ()
  /-- What is left of each call. -/
  calls : List (Operation Unit) := []

end Auth

structure Sharing (ι : Type) where
  store : StoreState
  holders : ι → Auth.Holder

namespace Sharing

open Auth

variable {ι : Type}

/-- One holder changes, and the store with it. -/
def put [DecidableEq ι] (w : Sharing ι) (i : ι) (h : Holder) (store : StoreState) : Sharing ι :=
  ⟨store, Function.update w.holders i h⟩

/-- What can happen next; others use the store, but not under the key. -/
inductive Step [DecidableEq ι] (key : String) : Sharing ι → Sharing ι → Prop
  | call (w : Sharing ι) (i : ι) (c : Call) :
      Step key w (w.put i { w.holders i with
        calls := (w.holders i).calls ++ [(w.holders i).part.auth.perform c] } w.store)
  | answer {w : Sharing ι} {i : ι} {n : Nat} {q next a part store}
      (here : (w.holders i).calls[n]? = some (.ask q next))
      (ha : storeSurroundings.answers ((w.holders i).part, w.store) q a (part, store)) :
      Step key w
        (w.put i { w.holders i with part, calls := (w.holders i).calls.set n (next a) } store)
  | receive {w : Sharing ι} {i : ι} {received position} (idle : (w.holders i).round = .done ())
      (news : w.store.changes.hasNews (w.holders i).position = true)
      (hr : w.store.changes.receive (w.holders i).position = (received, position)) :
      Step key w (w.put i { w.holders i with
        position, round := (w.holders i).part.auth.onReceived received } w.store)
  | follow {w : Sharing ι} {i : ι} {q next a part store} (here : (w.holders i).round = .ask q next)
      (ha : storeSurroundings.answers ((w.holders i).part, w.store) q a (part, store)) :
      Step key w (w.put i { w.holders i with part, round := next a } store)
  | others {w : Sharing ι} {q : Store.Ask} {now a store} (apart : ∀ k ∈ q.written?, k ≠ key)
      (ha : memoryAnswer w.store w.store.entries now q = (a, store)) :
      Step key w { w with store }

/-- No call is under way, and every follower has read and done everything. -/
def Rests (w : Sharing ι) : Prop :=
  ∀ i, (∀ p ∈ (w.holders i).calls, p = .done ()) ∧ (w.holders i).round = .done () ∧
    w.store.changes.hasNews (w.holders i).position = false

/-- Every session is the stored one; all are absent if none is stored. -/
def Agrees (storage : AuthStorage) (w : Sharing ι) : Prop :=
  ∃ a, storage.Records w.store a ∧ ∀ i, (w.holders i).part.current = a

/-- Everybody agrees, and the followers have just begun to listen. -/
structure Begins (storage : AuthStorage) (w : Sharing ι) : Prop where
  counts : w.store.changes.Counts
  same : ∀ i, (w.holders i).part.auth.storage = storage
  agree : w.Agrees storage
  listening : ∀ i, (w.holders i).position = w.store.changes.sent
  idle : ∀ i, (w.holders i).round = .done () ∧ (w.holders i).calls = []

/-! ### What holds of all holders -/

variable {storage : AuthStorage} {w w' : Sharing ι} {x y : Option StoredAuth}

/-- Some call has still to store this. -/
def Owes (storage : AuthStorage) (w : Sharing ι) (y : Option StoredAuth) : Prop :=
  ∃ (i : ι) (n : Nat) (p : Auth.Operation Unit),
    (w.holders i).calls[n]? = some p ∧ Pays storage (fun _ => True) (some y) p

/-- While `x` is stored, a session `y` is right already, or a change of the store is still to come. -/
def Awaits (storage : AuthStorage) (w : Sharing ι) (x y : Option StoredAuth) : Prop :=
  y = x ∨ (∃ a, w.Owes storage (some a)) ∨ y = none ∧ w.Owes storage none

/-- What is true of a holder while `x` is stored. -/
structure Follows (storage : AuthStorage) (w : Sharing ι) (x : Option StoredAuth) (i : ι) : Prop where
  same : (w.holders i).part.auth.storage = storage
  within : (w.holders i).position ≤ w.store.changes.sent
  latest : ∀ text, w.store.Holds storage.key text →
    Latest storage.key w.store.changes (w.holders i).position text
  inRound : (w.holders i).part.auth.InRound (w.holders i).round
  pays : ∀ p ∈ (w.holders i).calls, ∃ owed, Pays storage (fun _ => True) owed p
  /-- The follower will hear of the record, or will read it, or heads for the right session. -/
  told : Informed storage.key w.store.changes (w.holders i).position ∨
    (w.holders i).round = (w.holders i).part.auth.onLag ∨
    ∃ y, Heads (w.holders i).part.current (w.holders i).round y ∧ w.Awaits storage x y

/-- What is true in every reachable state. -/
structure Orderly (storage : AuthStorage) (w : Sharing ι) : Prop where
  counts : w.store.changes.Counts
  follows : ∃ x, storage.Records w.store x ∧ ∀ i, w.Follows storage x i

theorem Owes.mono (h : w.Owes storage y)
    (calls : ∀ (i : ι) (n : Nat) (p : Auth.Operation Unit), (w.holders i).calls[n]? = some p →
      (w'.holders i).calls[n]? = some p) :
    w'.Owes storage y := by
  obtain ⟨i, n, p, here, pays⟩ := h
  exact ⟨i, n, p, calls i n p here, pays⟩

/-- When one call goes on, the others owe what they owed. -/
theorem Owes.answer [DecidableEq ι] {i : ι} {n : Nat} {p p' : Auth.Operation Unit} {h' : Holder}
    {store : StoreState}
    (here : (w.holders i).calls[n]? = some p) (calls : h'.calls = (w.holders i).calls.set n p')
    (goes : Pays storage (fun _ => True) (some y) p → Pays storage (fun _ => True) (some y) p')
    (h : w.Owes storage y) : (w.put i h' store).Owes storage y := by
  obtain ⟨j, m, p₁, there, pays⟩ := h
  by_cases hj : j = i
  · subst hj
    rcases getElem?_of_set p' there here with other | ⟨-, rfl, set⟩
    · exact ⟨j, m, p₁, by simpa [put, calls] using other, pays⟩
    · exact ⟨j, m, p', by simpa [put, calls] using set, goes pays⟩
  · exact ⟨j, m, p₁, by simpa [put, hj] using there, pays⟩

/-- Where the record passes, a holder stays told if its round goes on to where it should. -/
theorem Follows.passes {i : ι} (h : w.Follows storage x i) (counts : w.store.changes.Counts)
    (passes : Passes storage.key w.store w'.store)
    (recorded : storage.Records w.store x)
    (auth : (w'.holders i).part.auth = (w.holders i).part.auth)
    (position : (w'.holders i).position = (w.holders i).position)
    (inRound : (w'.holders i).part.auth.InRound (w'.holders i).round)
    (pays : ∀ p ∈ (w'.holders i).calls, ∃ owed, Pays storage (fun _ => True) owed p)
    (told : ((w.holders i).round = (w.holders i).part.auth.onLag ∨
        ∃ y, Heads (w.holders i).part.current (w.holders i).round y ∧ w.Awaits storage x y) →
      (w'.holders i).round = (w'.holders i).part.auth.onLag ∨
        ∃ y, Heads (w'.holders i).part.current (w'.holders i).round y ∧ w'.Awaits storage x y) :
    w'.Follows storage x i where
  same := auth ▸ h.same
  within := by
    rw [position]
    exact Nat.le_trans h.within passes.sent
  latest text holds := by
    obtain ⟨text', holds', -⟩ := recorded
    obtain rfl := (passes.holds _ holds').unique holds
    rw [position]
    exact passes.latest counts h.within (h.latest _ holds')
  inRound := inRound
  pays := pays
  told := by
    rcases h.told with informed | later
    · refine .inl ?_
      rw [position]
      exact passes.informed counts h.within informed
    · exact .inr (told later)

/-- Where the record is written, everybody is told. -/
theorem Follows.writes {i : ι} {text : Option String} (h : w.Follows storage x i)
    (counts : w.store.changes.Counts) (writes : Writes storage.key text w.store w'.store)
    (part : (w'.holders i).part.auth = (w.holders i).part.auth)
    (position : (w'.holders i).position = (w.holders i).position)
    (round : (w'.holders i).round = (w.holders i).round)
    (pays : ∀ p ∈ (w'.holders i).calls, ∃ owed, Pays storage (fun _ => True) owed p) :
    w'.Follows storage y i where
  same := part ▸ h.same
  within := by
    rw [position, writes.changes]
    exact Nat.le_succ_of_le h.within
  latest text' holds := by
    obtain rfl := writes.holds.unique holds
    rw [position]
    exact writes.latest counts h.within
  inRound := by
    rw [part, round]
    exact h.inRound
  pays := pays
  told := by
    refine .inl ?_
    rw [position]
    exact writes.informed counts h.within

theorem Awaits.mono (h : w.Awaits storage x y)
    (owes : ∀ z, w.Owes storage z → w'.Owes storage z) : w'.Awaits storage x y := by
  rcases h with rfl | ⟨a, h⟩ | ⟨rfl, h⟩
  · exact .inl rfl
  · exact .inr (.inl ⟨a, owes _ h⟩)
  · exact .inr (.inr ⟨rfl, owes _ h⟩)

variable [DecidableEq ι]

/-- Where one holder goes on and the record passes, the others have nothing to do. -/
theorem Orderly.put {i : ι} {h' : Holder} {store : StoreState} (h : w.Orderly storage)
    (passes : Passes storage.key w.store store)
    (awaits : ∀ x y, storage.Records w.store x → w.Awaits storage x y →
      (w.put i h' store).Awaits storage x y)
    (follows : ∀ x, storage.Records w.store x → w.Follows storage x i →
      (w.put i h' store).Follows storage x i) : (w.put i h' store).Orderly storage := by
  obtain ⟨counts, x, recorded, all⟩ := h
  refine ⟨passes.counts counts, x, recorded.passes passes, fun j => ?_⟩
  by_cases hj : j = i
  · subst hj
    exact follows x recorded (all j)
  · have apart : (w.put i h' store).holders j = w.holders j := Function.update_of_ne hj _ _
    refine (all j).passes counts passes recorded (by rw [apart]) (by rw [apart])
      (by rw [apart]; exact (all j).inRound) (by rw [apart]; exact (all j).pays) ?_
    rw [apart]
    rintro (lag | ⟨y, heads, waits⟩)
    · exact .inl lag
    · exact .inr ⟨y, heads, awaits x y recorded waits⟩

theorem Orderly.call (plain : storage.backend ≠ .cookie) (h : w.Orderly storage) (i : ι) (c : Call) :
    (w.put i { w.holders i with
      calls := (w.holders i).calls ++ [(w.holders i).part.auth.perform c] } w.store).Orderly storage := by
  have owes (z) : w.Owes storage z → (w.put i { w.holders i with
      calls := (w.holders i).calls ++ [(w.holders i).part.auth.perform c] } w.store).Owes storage z :=
    fun h => h.mono fun j n p here => by
      by_cases hj : j = i
      · subst hj
        have bound := (List.getElem?_eq_some_iff.mp here).1
        simpa [Sharing.put, List.getElem?_append_left bound] using here
      · simpa [Sharing.put, hj] using here
  refine h.put (.refl _ _) (fun x y _ waits => waits.mono owes) fun x recorded follows => ?_
  have self (h' : Holder) : (w.put i h' w.store).holders i = h' := Function.update_self _ _ _
  refine follows.passes h.counts (.refl _ _) recorded (by rw [self]) (by rw [self])
    (by rw [self]; exact follows.inRound) ?_ ?_
  · rw [self]
    intro p hp
    rcases List.mem_append.mp hp with old | new
    · exact follows.pays p old
    · rw [List.mem_singleton.mp new]
      have same := follows.same
      exact ⟨none, same ▸ pays_perform (same ▸ plain) c⟩
  · rw [self]
    rintro (lag | ⟨y, heads, waits⟩)
    · exact .inl lag
    · exact .inr ⟨y, heads, waits.mono owes⟩

omit [DecidableEq ι] in
/-- Where the record is written, all are told. -/
theorem Orderly.written {text : Option String} (h : w.Orderly storage)
    (writes : Writes storage.key text w.store w'.store) (means : storage.Means text y)
    (same : ∀ i, (w'.holders i).part.auth = (w.holders i).part.auth ∧
      (w'.holders i).position = (w.holders i).position ∧
      (w'.holders i).round = (w.holders i).round)
    (pays : ∀ i, ∀ p ∈ (w'.holders i).calls, ∃ owed, Pays storage (fun _ => True) owed p) :
    w'.Orderly storage := by
  obtain ⟨counts, x, -, all⟩ := h
  refine ⟨?_, y, ⟨text, writes.holds, means⟩, fun j => ?_⟩
  · rw [writes.changes]
    exact counts.send
  · obtain ⟨auth, position, round⟩ := same j
    exact (all j).writes counts writes auth position round (pays j)

/-- The holder of a call that goes on, where the record passes. -/
theorem Follows.answer {i : ι} {n : Nat} {p' : Auth.Operation Unit} {part : SessionPart}
    {store : StoreState} (follows : w.Follows storage x i) (counts : w.store.changes.Counts)
    (passes : Passes storage.key w.store store) (recorded : storage.Records w.store x)
    (auth : part.auth = (w.holders i).part.auth)
    (pays : ∃ owed, Pays storage (fun _ => True) owed p')
    (told : ∀ y, Heads (w.holders i).part.current (w.holders i).round y → w.Awaits storage x y →
      ∃ y', Heads part.current (w.holders i).round y' ∧
        (w.put i { w.holders i with part, calls := (w.holders i).calls.set n p' } store).Awaits
          storage x y') :
    (w.put i { w.holders i with part, calls := (w.holders i).calls.set n p' } store).Follows
      storage x i := by
  have self (h' : Holder) : (w.put i h' store).holders i = h' := Function.update_self _ _ _
  refine follows.passes counts passes recorded (by rw [self]; exact auth) (by rw [self]) ?_ ?_ ?_
  · rw [self]
    exact auth ▸ follows.inRound
  · rw [self]
    intro p hp
    rcases List.mem_or_eq_of_mem_set hp with old | rfl
    · exact follows.pays p old
    · exact pays
  · rw [self]
    rintro (lag | ⟨y, heads, waits⟩)
    · exact .inl (auth ▸ lag)
    · exact .inr (told y heads waits)

/-- An answer to a call. -/
theorem Orderly.answer {i : ι} {n : Nat} {q : Ask} {next : Answer q → Auth.Operation Unit}
    {a : Answer q} {part : SessionPart} {store : StoreState} (h : w.Orderly storage)
    (here : (w.holders i).calls[n]? = some (.ask q next))
    (ha : storeSurroundings.answers ((w.holders i).part, w.store) q a (part, store)) :
    (w.put i { w.holders i with part, calls := (w.holders i).calls.set n (next a) } store).Orderly
      storage := by
  obtain ⟨x, recorded, all⟩ := h.follows
  obtain ⟨owed, due⟩ := (all i).pays _ (List.mem_of_getElem? here)
  obtain ⟨paid, auth⟩ := due.answered recorded ha
  -- What is owed by others, or by this call if it goes on owing it, is still owed.
  have owes (z : Option StoredAuth)
      (goes : owed = some z → Pays storage (fun _ => True) (some z) (next a)) :
      w.Owes storage z → (w.put i { w.holders i with
        part, calls := (w.holders i).calls.set n (next a) } store).Owes storage z :=
    Owes.answer here rfl fun h => goes (h.unique due)
  generalize hc : part.current = current at paid
  cases paid with
  | changed _ free rest =>
    have still (x y) (waits : w.Awaits storage x y) := waits.mono fun z => owes z (by simp [free])
    have due' : (w.put i { w.holders i with
        part, calls := (w.holders i).calls.set n (next a) } w.store).Owes storage current :=
      ⟨i, n, next a, by simp [Sharing.put, (List.getElem?_eq_some_iff.mp here).1], rest⟩
    refine h.put (.refl _ _) (fun x y _ => still x y) fun x recorded follows =>
      follows.answer h.counts (.refl _ _) recorded auth ⟨_, rest⟩ fun y heads waits => ?_
    rcases heads with ⟨idle, rfl⟩ | decides
    · refine ⟨current, .inl ⟨idle, hc.symm⟩, ?_⟩
      cases current with
      | none => exact .inr (.inr ⟨rfl, due'⟩)
      | some b => exact .inr (.inl ⟨b, due'⟩)
    · exact ⟨y, .inr decides, still x y waits⟩
  | passed passes rest =>
    have still (x y) (waits : w.Awaits storage x y) :=
      waits.mono fun z => owes z fun e => e ▸ rest
    exact h.put passes (fun x y _ => still x y) fun x recorded follows =>
      follows.answer h.counts passes recorded auth ⟨_, rest⟩ fun y heads waits =>
        ⟨y, hc ▸ heads, still x y waits⟩
  | stored y due' writes means rest =>
    refine h.written writes means (fun j => ?_) fun j => ?_
    · by_cases hj : j = i
      · subst hj
        simp [Sharing.put, auth]
      · simp [Sharing.put, hj]
    · by_cases hj : j = i
      · subst hj
        simp only [Sharing.put, Function.update_self]
        intro p hp
        rcases List.mem_or_eq_of_mem_set hp with old | rfl
        · exact (all j).pays p old
        · exact ⟨_, rest⟩
      · simpa [Sharing.put, hj] using (all j).pays
  | absent due' passes none' rest =>
    -- The removal that is no longer owed had nothing to remove.
    have still (x y) (recorded : storage.Records w.store x) (waits : w.Awaits storage x y) :
        (w.put i { w.holders i with
          part, calls := (w.holders i).calls.set n (next a) } store).Awaits storage x y := by
      rcases waits with rfl | ⟨b, h⟩ | ⟨rfl, -⟩
      · exact .inl rfl
      · exact .inr (.inl ⟨b, owes _ (by simp [due']) h⟩)
      · exact .inl (recorded.unique none')
    exact h.put passes (fun x y => still x y) fun x recorded follows =>
      follows.answer h.counts passes recorded auth ⟨_, rest⟩ fun y heads waits =>
        ⟨y, hc ▸ heads, still x y recorded waits⟩

/-- An answer to a follower. -/
theorem Orderly.follow {i : ι} {q : Ask} {next : Answer q → Auth.Operation Unit} {a : Answer q}
    {part : SessionPart} {store : StoreState} (h : w.Orderly storage)
    (here : (w.holders i).round = .ask q next)
    (ha : storeSurroundings.answers ((w.holders i).part, w.store) q a (part, store)) :
    (w.put i { w.holders i with part, round := next a } store).Orderly storage := by
  obtain ⟨x, recorded, all⟩ := h.follows
  obtain rfl := (all i).same
  have inRound := (all i).inRound
  rw [here] at inRound
  obtain ⟨passes, auth, inRound', reads, goes⟩ := inRound.answered recorded ha
  have owes (z) : w.Owes (w.holders i).part.auth.storage z → (w.put i { w.holders i with
      part, round := next a } store).Owes (w.holders i).part.auth.storage z :=
    fun h => h.mono fun j n p there => by
      by_cases hj : j = i
      · subst hj
        simpa [Sharing.put] using there
      · simpa [Sharing.put, hj] using there
  refine h.put passes (fun x y _ waits => waits.mono owes) fun y recorded' follows => ?_
  obtain rfl := recorded.unique recorded'
  have self (h' : Holder) : (w.put i h' store).holders i = h' := Function.update_self _ _ _
  refine follows.passes h.counts passes recorded (by rw [self]; exact auth) (by rw [self])
    (by rw [self]; exact auth ▸ inRound') (by rw [self]; exact follows.pays) ?_
  rw [self, here]
  rintro (lag | ⟨z, heads, waits⟩)
  · exact .inr ⟨_, reads lag, .inl rfl⟩
  · exact .inr ⟨z, goes z heads, waits.mono owes⟩

/-- A message is taken, or the follower learns that it has missed some. -/
theorem Orderly.receive {i : ι} {received : Broadcast.Received StoreChange} {position : Nat}
    (h : w.Orderly storage) (idle : (w.holders i).round = .done ())
    (news : w.store.changes.hasNews (w.holders i).position = true)
    (hr : w.store.changes.receive (w.holders i).position = (received, position)) :
    (w.put i { w.holders i with
      position, round := (w.holders i).part.auth.onReceived received } w.store).Orderly storage := by
  have owes (z) : w.Owes storage z → (w.put i { w.holders i with
      position, round := (w.holders i).part.auth.onReceived received } w.store).Owes storage z :=
    fun h => h.mono fun j n p there => by
      by_cases hj : j = i
      · subst hj
        simpa [Sharing.put] using there
      · simpa [Sharing.put, hj] using there
  refine h.put (.refl _ _) (fun x y _ waits => waits.mono owes) fun x recorded follows => ?_
  have self (h' : Holder) : (w.put i h' w.store).holders i = h' := Function.update_self _ _ _
  obtain ⟨same, within, latest, -, pays, told⟩ := follows
  rcases w.store.changes.receive_cases h.counts within with
    ⟨behind, missed, got, rest⟩ | ⟨behind, c, got, rest, within'⟩ | ⟨none, -⟩
  · cases hr.symm.trans got
    constructor <;> rw [self]
    · exact same
    · exact w.store.changes.oldest_le_sent
    · intro text holds c hc
      exact latest text holds c (rest ▸ hc)
    · exact .inr (.inl rfl)
    · exact pays
    · exact .inr (.inl rfl)
  · cases hr.symm.trans got
    constructor <;> rw [self]
    · exact same
    · exact within'
    · exact fun text holds => (latest text holds).read rest
    · exact inRound_onReceived (w.holders i).part.auth (.message c)
    · exact pays
    · by_cases later : ∃ d ∈ w.store.changes.pending ((w.holders i).position + 1), d.key = storage.key
      · exact .inl (.inr later)
      · refine .inr (.inr ?_)
        obtain ⟨y, heads, waits⟩ : ∃ y, Heads (w.holders i).part.current
            ((w.holders i).part.auth.onReceived (.message c)) y ∧ w.Awaits storage x y := by
          simp only [onReceived, onChange, same]
          obtain ⟨text, holds, means⟩ := recorded
          by_cases hc : c.key = storage.key
          · obtain rfl := (latest text holds).last rest hc later
            rw [if_pos hc]
            exact ⟨x, .inr (decides_applyStored (same ▸ means)), .inl rfl⟩
          · rw [if_neg hc]
            rcases told with (lagging | ⟨d, hd, about⟩) | lag | ⟨y, heads, waits⟩
            · exact absurd lagging behind
            · rw [rest] at hd
              rcases List.mem_cons.mp hd with rfl | there
              · exact absurd about hc
              · exact absurd ⟨d, there, about⟩ later
            · obtain ⟨next, reads, -⟩ := (w.holders i).part.auth.onLag_eq
              rw [idle, reads] at lag
              cases lag
            · rw [idle] at heads
              exact ⟨y, heads, waits⟩
        exact ⟨y, heads, waits.mono owes⟩
  · simp [none] at news

theorem Orderly.step (plain : storage.backend ≠ .cookie) (h : w.Orderly storage)
    (step : Step storage.key w w') : w'.Orderly storage := by
  cases step with
  | call i c => exact h.call plain i c
  | answer here ha => exact h.answer here ha
  | receive idle news hr => exact h.receive idle news hr
  | follow here ha => exact h.follow here ha
  | others apart ha =>
    obtain ⟨counts, x, recorded, all⟩ := h
    have passes := Simulation.memoryAnswer_apart apart ha
    refine ⟨passes.counts counts, x, recorded.passes passes, fun i => ?_⟩
    refine (all i).passes counts passes recorded rfl rfl (all i).inRound (all i).pays ?_
    rintro (lag | ⟨y, heads, waits⟩)
    · exact .inl lag
    · exact .inr ⟨y, heads, waits.mono fun z h => h.mono fun _ _ _ here => here⟩

omit [DecidableEq ι] in
/-- At the beginning there is nothing to follow. -/
theorem Begins.orderly (h : w.Begins storage) : w.Orderly storage := by
  obtain ⟨x, recorded, agree⟩ := h.agree
  refine ⟨h.counts, x, recorded, fun i => ?_⟩
  obtain ⟨round, calls⟩ := h.idle i
  have nothing : w.store.changes.pending (w.holders i).position = [] :=
    h.listening i ▸ Broadcast.pending_sent h.counts
  constructor
  · exact h.same i
  · exact Nat.le_of_eq (h.listening i)
  · intro text _ c hc
    simp [nothing] at hc
  · exact .inl (round ▸ trivial)
  · simp [calls]
  · exact .inr (.inr ⟨x, .inl ⟨round ▸ trivial, (agree i).symm⟩, .inl rfl⟩)

/-! ### Runs without interruption -/

variable {key : String} {i : ι} {part : SessionPart} {store : StoreState}

@[simp] theorem holders_put (w : Sharing ι) (i : ι) (h : Holder) (store : StoreState) :
    (w.put i h store).holders i = h := Function.update_self _ _ _

@[simp] theorem put_put (w : Sharing ι) (i : ι) (h h' : Holder) (store store' : StoreState) :
    (w.put i h store).put i h' store' = w.put i h' store' := by
  simp [put]

/-- A round that is carried through before anything else happens. -/
theorem steps_round (key : String) (w : Sharing ι) (i : ι)
    (leads : storeSurroundings.Leads (w.holders i).round
      ((w.holders i).part, w.store) () (part, store)) :
    Relation.ReflTransGen (Step key) w
      (w.put i { w.holders i with part, round := .done () } store) := by
  generalize hp : (w.holders i).round = p at leads
  induction p generalizing w with
  | done a =>
    obtain ⟨-, same⟩ := Surroundings.leads_done_iff.mp leads
    cases same
    rw [← hp]
    simp only [put, Function.update_eq_self]
    exact .refl
  | ask q next ih =>
    obtain ⟨a, ⟨part₁, store₁⟩, here, leads⟩ := Surroundings.leads_ask_iff.mp leads
    have rest := ih a (w.put i { w.holders i with part := part₁, round := next a } store₁)
      (by rw [holders_put]) (by rw [holders_put]; exact leads)
    rw [put_put, holders_put] at rest
    exact .head (.follow hp here) rest

/-- A call that is carried through before anything else happens. -/
theorem steps_answers (key : String) (w : Sharing ι) (i : ι) {calls : List (Auth.Operation Unit)}
    {p : Auth.Operation Unit}
    (last : (w.holders i).calls = calls ++ [p])
    (leads : storeSurroundings.Leads p ((w.holders i).part, w.store) () (part, store)) :
    Relation.ReflTransGen (Step key) w
      (w.put i { w.holders i with part, calls := calls ++ [.done ()] } store) := by
  induction p generalizing w with
  | done a =>
    obtain ⟨-, same⟩ := Surroundings.leads_done_iff.mp leads
    cases same
    rw [← last]
    simp only [put, Function.update_eq_self]
    exact .refl
  | ask q next ih =>
    obtain ⟨a, ⟨part₁, store₁⟩, here, leads⟩ := Surroundings.leads_ask_iff.mp leads
    have step : Step key w (w.put i
        { w.holders i with part := part₁, calls := calls ++ [next a] } store₁) := by
      have set : (w.holders i).calls.set calls.length (next a) = calls ++ [next a] := by
        simp [last]
      rw [← set]
      exact .answer (by simp [last]) here
    have rest := ih a (w.put i { w.holders i with part := part₁, calls := calls ++ [next a] } store₁)
      (by rw [holders_put]) (by rw [holders_put]; exact leads)
    rw [put_put, holders_put] at rest
    exact .head step rest

theorem steps_call (key : String) (w : Sharing ι) (i : ι) {c : Call}
    (leads : storeSurroundings.Leads ((w.holders i).part.auth.perform c)
      ((w.holders i).part, w.store) () (part, store)) :
    Relation.ReflTransGen (Step key) w (w.put i { w.holders i with
      part, calls := (w.holders i).calls ++ [.done ()] } store) := by
  have rest := steps_answers key (w.put i { w.holders i with
      calls := (w.holders i).calls ++ [(w.holders i).part.auth.perform c] } w.store) i
    (by rw [holders_put]) (by rw [holders_put]; exact leads)
  rw [put_put, holders_put] at rest
  exact .head (.call w i c) rest

/-- A follower hears of a session and does what it has to. -/
theorem steps_adopt (key : String) (w : Sharing ι) (i : ι) {a : StoredAuth} (fits : a.Fits)
    (idle : (w.holders i).round = .done ()) (position : Nat)
    (news : w.store.changes.hasNews (w.holders i).position = true)
    (hr : w.store.changes.receive (w.holders i).position =
      (.message ⟨(w.holders i).part.auth.storage.key,
        some ((w.holders i).part.auth.storage.encode a)⟩, position)) :
    ∃ part, part.current = some a ∧ Relation.ReflTransGen (Step key) w
      (w.put i { w.holders i with part, position, round := .done () } w.store) := by
  obtain ⟨part, leads, current⟩ := adopt_leads (w.holders i).part w.store a
  refine ⟨part, current, .head (.receive idle news hr) ?_⟩
  rw [onReceived_encode fits]
  have heard : storeSurroundings.Leads
      ((w.put i { w.holders i with position, round := adopt a } w.store).holders i).round
      (((w.put i { w.holders i with position, round := adopt a } w.store).holders i).part, w.store) ()
      (part, w.store) := by
    rw [holders_put]
    exact leads
  have rest := steps_round key _ i heard
  rwa [put_put, holders_put] at rest

/-! ### Agreement -/

/-- Whatever calls there were and however they were interleaved: when nothing is under way any more,
every session is the stored one. -/
theorem sessions_agree_at_rest {w₀ : Sharing ι} (plain : storage.backend ≠ .cookie)
    (begins : w₀.Begins storage) (reach : Relation.ReflTransGen (Step storage.key) w₀ w)
    (rest : w.Rests) :
    w.Agrees storage := by
  have orderly : w.Orderly storage := by
    clear rest
    induction reach with
    | refl => exact begins.orderly
    | tail _ step ih => exact ih.step plain step
  obtain ⟨counts, x, recorded, all⟩ := orderly
  have paid (z : Option StoredAuth) : ¬ w.Owes storage z := by
    rintro ⟨i, n, p, here, pays⟩
    rw [(rest i).1 p (List.mem_of_getElem? here)] at pays
    cases pays.1
  refine ⟨x, recorded, fun i => ?_⟩
  obtain ⟨-, round, read⟩ := rest i
  rcases (all i).told with informed | lag | ⟨y, heads, waits⟩
  · exact absurd informed (Simulation.not_informed counts read)
  · obtain ⟨next, reads, -⟩ := (w.holders i).part.auth.onLag_eq
    rw [round, reads] at lag
    cases lag
  · rw [round] at heads
    rcases heads with ⟨-, rfl⟩ | decides
    · rcases waits with same | ⟨b, owed⟩ | ⟨-, owed⟩
      · exact same
      · exact absurd owed (paid _)
      · exact absurd owed (paid _)
    · exact decides.elim

/-- Where one holder logs in, the other one has its session in the end. -/
theorem sessions_agree_at_rest_login : ∃ (storage : AuthStorage) (w₀ w : Sharing Bool) (a : StoredAuth),
    storage.backend ≠ .cookie ∧ w₀.Begins storage ∧
    Relation.ReflTransGen (Step storage.key) w₀ w ∧ w.Rests ∧
    (w₀.holders true).part.current = none ∧ (w.holders true).calls = [] ∧
    (w.holders true).part.current = some a ∧ w.Agrees storage := by
  let storage : AuthStorage := { key := "weft:auth" }
  let part : SessionPart := { auth := { storage }, slot := .shared, epoch := 0, moves := false }
  let w₀ : Sharing Bool := ⟨{}, fun _ => { part, position := 0 }⟩
  have plain : storage.backend ≠ .cookie := by decide
  have begins : w₀.Begins storage :=
    ⟨Nat.le_refl 0, fun _ => rfl, ⟨none, ⟨none, rfl, rfl⟩, fun _ => rfl⟩, fun _ => rfl,
      fun _ => ⟨rfl, rfl⟩⟩
  obtain ⟨store, leads, writes⟩ :=
    login_leads (show part.auth.storage.backend ≠ .cookie from plain) {} "t" rfl
  have fits := record_fits part.auth.settings 0 "t" none none
  generalize record part.auth.settings 0 "t" none none = a at leads writes fits
  have told : store.changes.hasNews 0 = true ∧ store.changes.hasNews 1 = false ∧
      store.changes.receive 0 = (.message ⟨storage.key, some (storage.encode a)⟩, 1) := by
    rw [writes.changes]
    exact ⟨rfl, rfl, rfl⟩
  have logsIn := steps_call storage.key w₀ false leads
  generalize hw₁ : w₀.put false _ store = w₁ at logsIn
  obtain ⟨first, -, hears⟩ := steps_adopt storage.key w₁ false
    fits (by rw [← hw₁]; rfl) 1 (by rw [← hw₁]; exact told.1)
    (by rw [← hw₁]; exact told.2.2)
  generalize hw₂ : w₁.put false _ _ = w₂ at hears
  have other : w₂.holders true = { part, position := 0 } := by
    rw [← hw₂, ← hw₁]
    rfl
  have store₂ : w₂.store = store := by
    rw [← hw₂, ← hw₁]
    rfl
  obtain ⟨second, current, hears'⟩ := steps_adopt storage.key w₂ true
    fits (by rw [other]) 1 (by rw [other, store₂]; exact told.1)
    (by rw [other, store₂]; exact told.2.2)
  have reach := (logsIn.trans hears).trans hears'
  generalize hw₃ : w₂.put true _ _ = w₃ at reach
  have rest : w₃.Rests := by
    subst hw₃ hw₂ hw₁
    rintro (_ | _)
    · exact ⟨by simp [put, w₀], rfl, told.2.1⟩
    · exact ⟨by simp [put, w₀], rfl, told.2.1⟩
  refine ⟨storage, w₀, w₃, a, plain, begins, reach, rest, rfl, ?_, ?_,
    sessions_agree_at_rest plain begins reach rest⟩
  · rw [← hw₃, holders_put, other]
  · rw [← hw₃, holders_put]
    exact current

end Sharing

end ScreenFlow
