import ScreenFlow.Proofs.Process.Shared
import ScreenFlow.Proofs.Store.Entries
import ScreenFlow.Simulation.Stores

/-!
# One key of a store in memory

What the answers of a store in memory make of one key, and what its receivers can still read about
it. Removing a key that is absent is not announced.

* `Writes`, `Passes`: the key is written and announced, or left alone;
* `memoryAnswer_set`, `memoryAnswer_delete`, `memoryAnswer_apart`: which operation does which;
* `Informed`, `Latest`: what a receiver that has not read everything is going to be told.
-/

namespace ScreenFlow

/-- The key that an operation may change. -/
def Store.Ask.written? : Store.Ask → Option String
  | .set key .. | .delete key => some key
  | .get _ | .keys _ | .isAvailable => none

namespace Simulation

variable {s s' : StoreState} {key : String} {text : Option String} {now : Int}

/-- Under the key the store holds this text for good, or nothing. -/
def StoreState.Holds (s : StoreState) (key : String) (text : Option String) : Prop :=
  s.entries.find? key = text.map fun t => { value := t }

theorem StoreState.Holds.unique {text' : Option String} (h : s.Holds key text)
    (h' : s.Holds key text') : text' = text := by
  have same := h'.symm.trans h
  cases text <;> cases text' <;> simp_all

/-- The key gets this text, or is removed, and that is announced. -/
structure Writes (key : String) (text : Option String) (s s' : StoreState) : Prop where
  holds : s'.Holds key text
  changes : s'.changes = s.changes.send ⟨key, text⟩

/-- The key stays as it is, and nothing is announced about it. -/
structure Passes (key : String) (s s' : StoreState) : Prop where
  holds : ∀ text, s.Holds key text → s'.Holds key text
  changes : s'.changes = s.changes ∨
    ∃ c : StoreChange, c.key ≠ key ∧ s'.changes = s.changes.send c

theorem Passes.refl (key : String) (s : StoreState) : Passes key s s := ⟨fun _ h => h, .inl rfl⟩

/-! ### Operations -/

theorem memoryAnswer_set {value : String} {a}
    (h : memoryAnswer s s.entries now (.set key value none) = (a, s')) :
    Writes key (some value) s s' := by
  cases h
  refine ⟨?_, rfl⟩
  simp [StoreState.Holds, StoreState.entries, StoreState.announce, MemoryStore.set,
    Entries.find?_insert]

/-- A key that is absent is not removed once more. -/
theorem memoryAnswer_delete (holds : s.Holds key text) {a}
    (h : memoryAnswer s s.entries now (.delete key) = (a, s')) :
    Writes key none s s' ∨ s.Holds key none ∧ Passes key s s' := by
  have live : s.entries.live? now key = text := Entries.live?_of_lasting holds
  have removed : (s.entries.erase key).find? key = none := Entries.find?_erase_self _ _
  cases h
  cases text with
  | some t =>
    simp only [live, Option.isSome_some, if_true]
    exact .inl ⟨removed, rfl⟩
  | none =>
    simp only [live, Option.isSome_none]
    refine .inr ⟨holds, fun text' h' => ?_, .inl rfl⟩
    rw [holds.unique h']
    exact removed

/-- Looking up any key drops no entry that lasts. -/
theorem find?_get {es : Entries} (holds : es.find? key = text.map fun t => { value := t })
    (k : String) : (MemoryStore.get es now k).2.find? key = es.find? key := by
  rw [MemoryStore.get]
  split
  · rename_i e found
    split
    · rename_i expired
      refine Entries.find?_erase_of_ne _ fun same => ?_
      rw [same, found] at holds
      cases text <;> simp_all [Entry.isExpired]
    · rfl
  · rfl

/-- Whatever is done to other keys. -/
theorem memoryAnswer_apart {q : Store.Ask} (apart : ∀ k ∈ q.written?, k ≠ key) {a}
    (h : memoryAnswer s s.entries now q = (a, s')) : Passes key s s' := by
  cases q with
  | get k =>
    cases h
    exact ⟨fun text holds => (find?_get holds k).trans holds, .inl rfl⟩
  | set k value ttl =>
    have hk : k ≠ key := apart k rfl
    cases h
    refine ⟨fun text holds => Eq.trans ?_ holds, .inr ⟨⟨k, some value⟩, hk, rfl⟩⟩
    simp [StoreState.entries, StoreState.announce, MemoryStore.set, Entries.find?_insert, Ne.symm hk]
  | delete k =>
    have hk : k ≠ key := apart k rfl
    have kept : (s.entries.erase k).find? key = s.entries.find? key :=
      Entries.find?_erase_of_ne _ (Ne.symm hk)
    cases h
    by_cases existed : (s.entries.live? now k).isSome = true
    · simp only [existed, if_true]
      exact ⟨fun text holds => kept.trans holds, .inr ⟨⟨k, none⟩, hk, rfl⟩⟩
    · simp only [existed]
      exact ⟨fun text holds => kept.trans holds, .inl rfl⟩
  | keys start =>
    cases h
    exact .refl key s
  | isAvailable =>
    cases h
    exact .refl key s

theorem memoryAnswer_get (holds : s.Holds key text) {a}
    (h : memoryAnswer s s.entries now (.get key) = (a, s')) : a = .ok text := by
  have found := holds
  rw [StoreState.Holds] at found
  cases h
  cases text <;> simp [found, Entry.isExpired]

/-! ### Receivers -/

/-- A receiver will hear of the key, or that it has missed something. -/
def Informed (key : String) (b : Broadcast StoreChange) (position : Nat) : Prop :=
  b.IsBehind position ∨ ∃ c ∈ b.pending position, c.key = key

/-- The last thing that a receiver will hear of the key is this text. -/
def Latest (key : String) (b : Broadcast StoreChange) (position : Nat) (text : Option String) :
    Prop :=
  ∀ c, ((b.pending position).filter (·.key = key)).getLast? = some c → c.value = text

variable {position : Nat}

theorem Writes.informed (w : Writes key text s s') (counts : s.changes.Counts)
    (within : position ≤ s.changes.sent) : Informed key s'.changes position := by
  obtain ⟨n, pending, lost⟩ := s.changes.pending_send (a := ⟨key, text⟩) counts within
  rw [w.changes]
  by_cases hn : n = 0
  · refine .inr ⟨⟨key, text⟩, ?_, rfl⟩
    rw [pending, hn]
    simp
  · exact .inl (lost hn)

theorem Passes.informed (p : Passes key s s') (counts : s.changes.Counts)
    (within : position ≤ s.changes.sent) (h : Informed key s.changes position) :
    Informed key s'.changes position := by
  rcases p.changes with same | ⟨c, -, sent⟩
  · rwa [same]
  · rw [sent]
    obtain ⟨n, pending, lost⟩ := s.changes.pending_send (a := c) counts within
    rcases h with behind | ⟨c', hc', hk⟩
    · exact .inl (behind.send counts)
    · by_cases hn : n = 0
      · refine .inr ⟨c', ?_, hk⟩
        rw [pending, hn]
        exact List.mem_append_left _ hc'
      · exact .inl (lost hn)

/-- The last of the rest of a list is the last of the list. -/
theorem getLast?_filter_drop {α : Type} {as : List α} {f : α → Bool} {n : Nat} {a : α}
    (h : ((as.drop n).filter f).getLast? = some a) : (as.filter f).getLast? = some a := by
  rw [← List.take_append_drop n as, List.filter_append, List.getLast?_append, h, Option.some_or]

theorem Writes.latest (w : Writes key text s s') (counts : s.changes.Counts)
    (within : position ≤ s.changes.sent) : Latest key s'.changes position text := by
  intro c hc
  obtain ⟨n, pending, -⟩ := s.changes.pending_send (a := ⟨key, text⟩) counts within
  rw [w.changes, pending] at hc
  have last := getLast?_filter_drop hc
  simp only [List.filter_append, List.filter_cons, decide_true, if_true, List.filter_nil,
    List.getLast?_append, List.getLast?_singleton, Option.some_or, Option.some.injEq] at last
  rw [← last]

theorem Passes.latest (p : Passes key s s') (counts : s.changes.Counts)
    (within : position ≤ s.changes.sent) (h : Latest key s.changes position text) :
    Latest key s'.changes position text := by
  rcases p.changes with same | ⟨c', apart, sent⟩
  · rwa [same]
  · intro c hc
    obtain ⟨n, pending, -⟩ := s.changes.pending_send (a := c') counts within
    rw [sent, pending] at hc
    have last := getLast?_filter_drop hc
    simp only [List.filter_append, List.filter_cons, apart, decide_false, List.filter_nil,
      Bool.false_eq_true, if_false, List.append_nil] at last
    exact h c last

/-- One message has been read. -/
theorem Latest.read {b : Broadcast StoreChange} {position' : Nat} {c : StoreChange}
    (h : Latest key b position text) (next : b.pending position = c :: b.pending position') :
    Latest key b position' text := by
  intro d hd
  refine h d (getLast?_filter_drop (n := 1) ?_)
  rwa [next, List.drop_succ_cons, List.drop_zero]

/-- The message that has been read was the last about the key. -/
theorem Latest.last {b : Broadcast StoreChange} {position' : Nat} {c : StoreChange}
    (h : Latest key b position text) (next : b.pending position = c :: b.pending position')
    (about : c.key = key) (none : ¬ ∃ d ∈ b.pending position', d.key = key) : c.value = text := by
  refine h c ?_
  have rest : (b.pending position').filter (·.key = key) = [] :=
    List.filter_eq_nil_iff.mpr fun d hd => by simpa using fun e => none ⟨d, hd, e⟩
  rw [next, List.filter_cons_of_pos (by simpa using about), rest]
  rfl

/-- Nothing about the key is left for a receiver that has read everything. -/
theorem not_informed (counts : s.changes.Counts) (read : s.changes.hasNews position = false) :
    ¬ Informed key s.changes position := by
  have none : ¬ (s.changes.IsBehind position ∨ s.changes.pending position ≠ []) := fun h => by
    simp [(s.changes.hasNews_iff counts).mpr h] at read
  rintro (behind | ⟨c, hc, -⟩)
  · exact none (.inl behind)
  · exact none (.inr (List.ne_nil_of_mem hc))

theorem Passes.counts (p : Passes key s s') (h : s.changes.Counts) : s'.changes.Counts := by
  rcases p.changes with same | ⟨c, -, sent⟩
  · rwa [same]
  · rw [sent]
    exact h.send

theorem Passes.sent (p : Passes key s s') : s.changes.sent ≤ s'.changes.sent := by
  rcases p.changes with same | ⟨c, -, sent⟩
  · exact Nat.le_of_eq (congrArg (·.sent) same.symm)
  · rw [sent]
    exact Nat.le_succ _

end Simulation

end ScreenFlow
