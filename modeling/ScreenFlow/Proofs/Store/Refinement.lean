import ScreenFlow.Proofs.Store.FileForm
import ScreenFlow.Proofs.Store.Serving
import ScreenFlow.Proofs.Text.Occurrences
import ScreenFlow.Proofs.Text.Utf8

/-!
# What every store does

Whatever keeps its contents, a store is a map from keys to texts that cease to count at a time. When
it drops what does not count any more, and whether it is dropped itself and opened anew on its file,
cannot be told from what it replies and announces.

* `Contents.Answers`: what a map of this kind replies, announces and turns into;
* `Tracks`: a store that goes on as its entries say;
* `backends_refine`: the map, the store in memory and the store in a file show the same.
-/

namespace ScreenFlow

/-! ### A map with expiry -/

namespace Store

/-- What a key holds, and the time from which on it does not count. -/
structure Item where
  value : String
  deadline : Option Int

def Item.Counts (i : Item) (now : Int) : Prop := ∀ d ∈ i.deadline, now < d

instance (i : Item) (now : Int) : Decidable (i.Counts now) :=
  inferInstanceAs (Decidable (∀ d ∈ i.deadline, now < d))

/-- What the keys hold. -/
abbrev Contents := String → Option Item

namespace Contents

/-- The value of a key, if it counts. -/
def live? (m : Contents) (now : Int) (key : String) : Option String :=
  ((m key).filter fun i => i.Counts now).map (·.value)

def update (m : Contents) (key : String) (i : Option Item) : Contents :=
  fun k => if k = key then i else m k

/-- What is replied to a command and announced, and the contents afterwards. -/
inductive Answers (m : Contents) (now : Int) :
    Command → Command.Reply → List StoreChange → Contents → Prop
  | get (key : String) : Answers m now (.get key) (.found (m.live? now key)) [] m
  | set (key value : String) (ttl : Option Duration) :
      Answers m now (.set key value ttl) .stored [⟨key, some value⟩]
        (m.update key (some ⟨value, ttl.map fun d => now + d⟩))
  | delete {key value : String} (live : m.live? now key = some value) :
      Answers m now (.delete key) (.removed true) [⟨key, none⟩] (m.update key none)
  | deleteAbsent {key : String} (dead : m.live? now key = none) :
      Answers m now (.delete key) (.removed false) [] (m.update key none)
  | keys {start : String} {names : List String}
      (ascending : names.Pairwise fun a b => Utf8.encode a < Utf8.encode b)
      (listed : ∀ k, k ∈ names ↔ (m.live? now k).isSome ∧ start.toList <+: k.toList) :
      Answers m now (.keys start) (.listed names) [] m

end Contents

/-- A command at its time. -/
abbrev TimedCommand := Int × Command

/-- What is seen of a call. -/
structure Visit where
  reply : Except StoreError Command.Reply
  news : List StoreChange

/-- A call on a map. -/
def Contents.Step (c : TimedCommand) (m : Contents) (v : Visit) (m' : Contents) : Prop :=
  ∃ reply, v.reply = .ok reply ∧ m.Answers c.1 c.2 reply v.news m'

end Store

open Store (Command TimedCommand Visit Contents Serves)

/-- A call on a store in memory. -/
def MemoryStore.Step (c : TimedCommand) (s : Simulation.StoreState) (v : Visit)
    (s' : Simulation.StoreState) : Prop :=
  ∃ a, Simulation.memoryAnswer s s.entries c.1 c.2.ask = (a, s') ∧
    v = ⟨c.2.reply a, s'.changes.pending s.changes.sent⟩

namespace FileStore.Shelf

/-- A call on a store in a file that can be written. -/
def Step (c : TimedCommand) (s : Shelf) (v : Visit) (s' : Shelf) : Prop :=
  ∃ a, (surroundings ⟨c.1, none⟩).Leads (FileStore.serve c.2) s a s' ∧
    v = ⟨a, s'.changes.pending s.changes.sent⟩

end FileStore.Shelf

/-! ### What the entries say -/

namespace Store

/-- What is seen of a call that finds these entries. -/
def TimedCommand.visit (c : TimedCommand) (es : Entries) : Visit :=
  ⟨.ok (c.2.work c.1 es).1, c.2.told (c.2.work c.1 es).1⟩

def visits : List TimedCommand → Entries → List Visit
  | [], _ => []
  | c :: calls, es => c.visit es :: visits calls (c.2.leaves c.1 es)

/-- The entries after the calls. -/
def left (calls : List TimedCommand) (es : Entries) : Entries :=
  calls.foldl (fun es c => c.2.leaves c.1 es) es

/-- Where the relation holds, the store goes on as the entries say, and it holds afterwards, from
the time on that it tells. -/
structure Tracks {σ : Type} (step : TimedCommand → σ → Visit → σ → Prop)
    (R : Int → Entries → σ → Prop) : Prop where
  answered {since es s} (c : TimedCommand) (h : R since es s) (later : since ≤ c.1) :
    ∃ s', step c s (c.visit es) s'
  only {since es s v s'} (c : TimedCommand) (h : R since es s) (later : since ≤ c.1)
    (here : step c s v s') : v = c.visit es ∧ R c.1 (c.2.leaves c.1 es) s'

section Tracks

variable {σ : Type} {step : TimedCommand → σ → Visit → σ → Prop} {R : Int → Entries → σ → Prop}

theorem Tracks.serves (tracks : Tracks step R) {calls : List TimedCommand} {since : Int}
    {es : Entries} {s : σ} (h : R since es s)
    (clock : (since :: calls.map (·.1)).Pairwise (· ≤ ·)) :
    (∃ s', Serves step calls s (visits calls es) s') ∧
      ∀ vs s', Serves step calls s vs s' →
        vs = visits calls es ∧ ∃ now, R now (left calls es) s' := by
  induction calls generalizing since es s with
  | nil =>
    refine ⟨⟨s, .nil s⟩, fun vs s' serves => ?_⟩
    obtain ⟨rfl, rfl⟩ := serves_nil_iff.mp serves
    exact ⟨rfl, since, h⟩
  | cons c calls ih =>
    rw [List.map_cons] at clock
    obtain ⟨above, rest⟩ := List.pairwise_cons.mp clock
    have later : since ≤ c.1 := above c.1 List.mem_cons_self
    constructor
    · obtain ⟨s₁, here⟩ := tracks.answered c h later
      obtain ⟨s', serves⟩ := (ih (tracks.only c h later here).2 rest).1
      exact ⟨s', .cons here serves⟩
    · intro vs s' serves
      obtain ⟨v, ws, s₁, rfl, here, going⟩ := serves_cons_iff.mp serves
      obtain ⟨rfl, h₁⟩ := tracks.only c h later here
      obtain ⟨rfl, h'⟩ := (ih h₁ rest).2 ws s' going
      exact ⟨rfl, h'⟩

end Tracks

end Store

open Store (visits left Tracks)

/-! ### The store in memory -/

namespace MemoryStore

open Simulation (StoreState memoryAnswer)

/-- The store keeps these entries, and its receivers can be told. -/
structure Keeps (es : Entries) (s : StoreState) : Prop where
  backing : s.backing = .memory es
  counts : s.changes.Counts
  room : 0 < s.changes.capacity

variable {es : Entries} {s : StoreState}

theorem erase_of_find?_none {key : String} (h : es.find? key = none) : es.erase key = es :=
  List.filter_eq_self.mpr fun e he => by simpa using Entries.find?_eq_none_iff.mp h e he

/-- Both stores look up a key alike. -/
theorem get_eq_look (es : Entries) (now : Int) (key : String) : MemoryStore.get es now key =
    ((FileStore.look now key es).1, (FileStore.look now key es).2.getD es) := by
  rw [MemoryStore.get, FileStore.look]
  split
  · rename_i e found
    rw [found]
    by_cases expired : e.isExpired now = true <;> simp [expired]
  · rename_i absent
    rw [absent]
    rfl

/-- Both stores remove a key alike. -/
theorem delete_eq_remove (es : Entries) (now : Int) (key : String) : MemoryStore.delete es now key =
    ((FileStore.remove now key es).1, (FileStore.remove now key es).2.getD es) := by
  rw [MemoryStore.delete, FileStore.remove, Entries.live?]
  split
  · rename_i absent
    rw [absent, erase_of_find?_none absent]
    rfl
  · rename_i e found
    rw [found]
    by_cases expired : e.isExpired now = true <;> simp [expired, Option.filter]

/-- A store in memory does with a command what a store in a file does with the same entries. -/
theorem memoryAnswer_work (h : s.backing = .memory es) (now : Int) (r : Command) :
    r.reply (memoryAnswer s es now r.ask).1 = .ok (r.work now es).1 ∧
      (memoryAnswer s es now r.ask).2.backing = .memory (r.leaves now es) ∧
      (memoryAnswer s es now r.ask).2.changes =
        (r.told (r.work now es).1).foldl Broadcast.send s.changes := by
  cases r with
  | get key =>
    simp only [Command.ask, Command.reply, memoryAnswer, get_eq_look]
    exact ⟨rfl, rfl, rfl⟩
  | set key value ttl => exact ⟨rfl, rfl, rfl⟩
  | delete key =>
    simp only [Command.ask, Command.reply, memoryAnswer, delete_eq_remove]
    refine ⟨rfl, ?_, ?_⟩
    · split <;> rfl
    · rw [Command.work]
      cases (FileStore.remove now key es).1 <;> rfl
  | keys start => exact ⟨rfl, h, rfl⟩

theorem Keeps.step_iff (h : Keeps es s) {c : TimedCommand} {v : Visit} {s' : StoreState} :
    Step c s v s' ↔ v = c.visit es ∧ s' = (memoryAnswer s es c.1 c.2.ask).2 := by
  obtain ⟨reply, -, changes⟩ := memoryAnswer_work h.backing c.1 c.2
  have same : s.entries = es := by rw [StoreState.entries, h.backing]
  have seen : c.visit es = ⟨c.2.reply (memoryAnswer s es c.1 c.2.ask).1,
      (memoryAnswer s es c.1 c.2.ask).2.changes.pending s.changes.sent⟩ := by
    rw [reply, changes, Command.pending_told h.counts h.room]
    rfl
  rw [Step, same, seen]
  constructor
  · rintro ⟨a, answered, rfl⟩
    rw [answered]
    exact ⟨rfl, rfl⟩
  · rintro ⟨rfl, rfl⟩
    exact ⟨_, rfl, rfl⟩

theorem Keeps.leaves (h : Keeps es s) (c : TimedCommand) :
    Keeps (c.2.leaves c.1 es) (memoryAnswer s es c.1 c.2.ask).2 := by
  obtain ⟨-, backing, changes⟩ := memoryAnswer_work h.backing c.1 c.2
  refine ⟨backing, ?_, ?_⟩
  · rw [changes]
    exact Command.counts_told h.counts _ _
  · rw [changes, Command.capacity_told]
    exact h.room

theorem tracks : Tracks Step fun _ es s => Keeps es s where
  answered c h _ := ⟨_, h.step_iff.mpr ⟨rfl, rfl⟩⟩
  only c h _ here := by
    obtain ⟨seen, rfl⟩ := h.step_iff.mp here
    exact ⟨seen, h.leaves c⟩

end MemoryStore

/-! ### The store in a file -/

namespace FileStore.Shelf

/-- The store has these entries, and so has its file as far as they can be written down. -/
structure Keeps (es : Entries) (s : Shelf) : Prop where
  free : s.Free
  entries : s.entries = .ok es
  ascending : es.Ascending
  file : es.Fits → s.file.bind ofBytes = .ok es
  counts : s.changes.Counts
  room : 0 < s.changes.capacity

variable {es : Entries} {s : Shelf}

theorem Keeps.step (h : Keeps es s) (c : TimedCommand) :
    ∃ s₁, Keeps (c.2.leaves c.1 es) s₁ ∧ ∀ v s', Step c s v s' ↔ v = c.visit es ∧ s' = s₁ := by
  obtain ⟨s₁, served, cached, changes, file⟩ := serve_eq h.entries c.1 c.2
  have news : s₁.changes.pending s.changes.sent = c.2.told (c.2.work c.1 es).1 := by
    rw [changes, Command.pending_told h.counts h.room]
  have ascending : (c.2.leaves c.1 es).Ascending := Command.ascending_leaves h.ascending
  refine ⟨s₁, ?_, fun v s' => ?_⟩
  · constructor
    · have free := free_serve (m := ⟨c.1, none⟩) h.free c.2
      rwa [served] at free
    · rw [Shelf.entries, cached]
    · exact ascending
    · intro fits
      rcases file with ⟨same, kept⟩ | written
      · rw [same] at fits ⊢
        rw [kept]
        exact h.file fits
      · rw [written]
        exact ofBytes_toBytes ascending fits
    · rw [changes]
      exact Command.counts_told h.counts _ _
    · rw [changes, Command.capacity_told]
      exact h.room
  · simp only [Step, leads_serve_iff h.free, served, Prod.mk.injEq]
    constructor
    · rintro ⟨a, ⟨rfl, rfl⟩, rfl⟩
      exact ⟨by rw [news]; rfl, rfl⟩
    · rintro ⟨rfl, rfl⟩
      exact ⟨_, ⟨rfl, rfl⟩, by rw [news]; rfl⟩

theorem tracks : Tracks Step fun _ es s => Keeps es s where
  answered c h _ := by
    obtain ⟨s₁, -, steps⟩ := h.step c
    exact ⟨s₁, (steps _ _).mpr ⟨rfl, rfl⟩⟩
  only c h _ here := by
    obtain ⟨s₁, keeps, steps⟩ := h.step c
    obtain ⟨seen, rfl⟩ := (steps _ _).mp here
    exact ⟨seen, keeps⟩

end FileStore.Shelf

/-! ### Reopening -/

/-- An expiry that the command sets can be written down. -/
def Store.Command.Dated (r : Command) (now : Int) : Prop :=
  match r with
  | .set _ _ (some d) => Bits.inInt64 (now + d) = true
  | _ => True

namespace Entries

theorem mem_insert {es : Entries} {key : String} {e : Entry} {f : String × Entry}
    (h : f ∈ es.insert key e) : f ∈ es ∨ f = (key, e) := by
  have rest {f} (h : f ∈ es.erase key) : f ∈ es := (List.mem_filter.mp h).1
  rcases List.mem_append.mp h with before | after
  · exact .inl (rest ((List.takeWhile_sublist _).subset before))
  · rcases List.mem_cons.mp after with rfl | after
    · exact .inr rfl
    · exact .inl (rest ((List.dropWhile_sublist _).subset after))

theorem Fits.leaves {es : Entries} {r : Command} {now : Int} (h : es.Fits) (dated : r.Dated now) :
    (r.leaves now es).Fits := by
  have erase (key : String) : (es.erase key).Fits := fun e he => h e (List.mem_filter.mp he).1
  cases r with
  | get key =>
    simp only [Command.leaves, Command.work, FileStore.look]
    split
    · exact h
    · split
      · exact erase key
      · exact h
  | set key value ttl =>
    intro e he
    rcases mem_insert he with old | rfl
    · exact h e old
    · intro t ht
      cases ttl with
      | none => cases ht
      | some d =>
        obtain rfl : now + d = t := Option.some.inj ht
        exact dated
  | delete key =>
    simp only [Command.leaves, Command.work, FileStore.remove]
    split
    · exact h
    · exact erase key
  | keys start => exact h

theorem Fits.left {es : Entries} {calls : List TimedCommand} (h : es.Fits)
    (dated : ∀ c ∈ calls, c.2.Dated c.1) : (left calls es).Fits := by
  induction calls generalizing es with
  | nil => exact h
  | cons c calls ih =>
    obtain ⟨here, later⟩ := List.forall_mem_cons.mp dated
    exact ih (h.leaves here) later

end Entries

namespace FileStore.Shelf

variable {es : Entries} {s : Shelf}

end FileStore.Shelf

/-! ### The map -/

namespace Entries

variable {es : Entries} {now : Int} {key k : String} {e : Entry}

theorem live?_erase (es : Entries) (now : Int) (key k : String) :
    (es.erase key).live? now k = if k = key then none else es.live? now k := by
  rw [live?, find?_erase]
  split <;> rfl

theorem live?_insert (es : Entries) (now : Int) (key k : String) (e : Entry) :
    (es.insert key e).live? now k =
      if k = key then (if e.isExpired now then none else some e.value) else es.live? now k := by
  rw [live?, find?_insert]
  split
  · cases h : e.isExpired now <;> simp [Option.filter, h]
  · rfl

/-- An entry that has expired is not live later. -/
theorem live?_of_expired (found : es.find? key = some e) (expired : e.isExpired now = true)
    {later : Int} (h : now ≤ later) : es.live? later key = none := by
  have still : e.isExpired later = true := by
    cases ht : e.expiresAt with
    | none => simp [Entry.isExpired, ht] at expired
    | some t =>
      simp only [Entry.isExpired, ht, Option.any_some, decide_eq_true_eq] at expired ⊢
      exact Int.le_trans expired h
  simp [live?, found, Option.filter, still]

theorem live?_isSome_iff :
    (es.live? now key).isSome ↔ ∃ e, es.find? key = some e ∧ e.isExpired now = false := by
  cases found : es.find? key with
  | none => simp [live?, found]
  | some e => cases expired : e.isExpired now <;> simp [live?, found, Option.filter, expired]

theorem mem_liveKeys (ascending : es.Ascending) {start : String} :
    k ∈ es.liveKeys now start ↔ (es.live? now k).isSome ∧ start.toList <+: k.toList := by
  rw [live?_isSome_iff, ← Text.startsWith_iff, liveKeys]
  simp only [List.mem_map, List.mem_filter, Bool.and_eq_true, Bool.not_eq_true']
  constructor
  · rintro ⟨⟨k, e⟩, ⟨he, starts, live⟩, rfl⟩
    exact ⟨⟨e, find?_of_mem ascending he, live⟩, starts⟩
  · rintro ⟨⟨e, found, live⟩, starts⟩
    exact ⟨(k, e), ⟨mem_of_find? found, starts, live⟩, rfl⟩

theorem liveKeys_ascending (ascending : es.Ascending) (now : Int) (start : String) :
    (es.liveKeys now start).Pairwise (· < ·) :=
  List.Pairwise.sublist (List.filter_sublist.map _) ascending

end Entries

namespace Store.Contents

variable {es : Entries} {m m' : Contents} {since now : Int}

/-- From this time on the map and the entries have the same to show. -/
structure Shows (since : Int) (es : Entries) (m : Contents) : Prop where
  ascending : es.Ascending
  live : ∀ now, since ≤ now → ∀ key, es.live? now key = m.live? now key

theorem Shows.later (h : Shows since es m) (le : since ≤ now) : Shows now es m :=
  ⟨h.ascending, fun t ht => h.live t (Int.le_trans le ht)⟩

theorem live?_update (m : Contents) (now : Int) (key k : String) (i : Option Item) :
    (m.update key i).live? now k =
      if k = key then (i.filter fun i => i.Counts now).map (·.value) else m.live? now k := by
  rw [live?, update]
  split <;> rfl

theorem Shows.erase (h : Shows since es m) (key : String) :
    Shows since (es.erase key) (m.update key none) where
  ascending := Entries.ascending_erase h.ascending
  live now le k := by
    rw [Entries.live?_erase, live?_update, h.live now le]
    rfl

theorem Shows.insert (h : Shows since es m) (key value : String) (deadline : Option Int) :
    Shows since (es.insert key ⟨value, deadline⟩) (m.update key (some ⟨value, deadline⟩)) where
  ascending := Entries.ascending_insert h.ascending
  live now le k := by
    have counts : Item.Counts ⟨value, deadline⟩ now ↔
        Entry.isExpired ⟨value, deadline⟩ now = false := by
      cases deadline <;> simp [Item.Counts, Entry.isExpired]
    rw [Entries.live?_insert, live?_update, h.live now le]
    split
    · cases expired : Entry.isExpired ⟨value, deadline⟩ now <;>
        simp [Option.filter, counts, expired]
    · rfl

/-- Dropping what has expired does not show. -/
theorem Shows.drop (h : Shows since es m) {key : String} {e : Entry} (found : es.find? key = some e)
    (expired : e.isExpired since = true) : Shows since (es.erase key) m where
  ascending := Entries.ascending_erase h.ascending
  live now le k := by
    rw [Entries.live?_erase, ← h.live now le]
    split
    · rename_i same
      rw [same, Entries.live?_of_expired found expired le]
    · rfl

theorem Shows.look (h : Shows now es m) (key : String) :
    (FileStore.look now key es).1 = m.live? now key ∧
      Shows now ((FileStore.look now key es).2.getD es) m := by
  refine ⟨(FileStore.look_fst now key es).trans (h.live now (Int.le_refl now) key), ?_⟩
  rw [FileStore.look]
  split
  · exact h
  · rename_i e found
    split
    · rename_i expired
      exact h.drop found expired
    · exact h

/-- Keys in ascending order are determined by which they are. -/
theorem eq_of_listed {names others : List String} (h : names.Pairwise (· < ·))
    (h' : others.Pairwise (· < ·)) (same : ∀ k, k ∈ names ↔ k ∈ others) : names = others := by
  have nodup {l : List String} (h : l.Pairwise (· < ·)) : l.Nodup :=
    h.imp fun {a b} (lt : a < b) (same : a = b) => String.lt_irrefl _ (same ▸ lt)
  have perm : names.Perm others := (List.perm_ext_iff_of_nodup (nodup h) (nodup h')).mpr same
  exact perm.eq_of_pairwise (fun _ _ _ _ lt gt => absurd gt (String.lt_asymm lt)) h h'

/-- What the map answers is what the entries say. -/
theorem Shows.answers (h : Shows now es m) (r : Command) :
    ∃ m', Shows now (r.leaves now es) m' ∧
      ∀ reply news m'', m.Answers now r reply news m'' ↔
        (reply = (r.work now es).1 ∧ news = r.told (r.work now es).1) ∧ m'' = m' := by
  cases r with
  | get key =>
    obtain ⟨found, shows⟩ := h.look key
    simp only [Command.leaves, Command.work, found]
    refine ⟨m, shows, fun reply news m'' => ⟨fun answers => ?_, ?_⟩⟩
    · cases answers
      exact ⟨⟨rfl, rfl⟩, rfl⟩
    · rintro ⟨⟨rfl, rfl⟩, rfl⟩
      exact .get key
  | set key value ttl =>
    refine ⟨_, h.insert key value _, fun reply news m'' => ⟨fun answers => ?_, ?_⟩⟩
    · cases answers
      exact ⟨⟨rfl, rfl⟩, rfl⟩
    · rintro ⟨⟨rfl, rfl⟩, rfl⟩
      exact .set key value ttl
  | delete key =>
    obtain ⟨existed, erased⟩ := Prod.mk.inj (MemoryStore.delete_eq_remove es now key)
    rw [h.live now (Int.le_refl now)] at existed
    simp only [Command.leaves, Command.work, ← existed, ← erased]
    refine ⟨_, h.erase key, fun reply news m'' => ⟨fun answers => ?_, ?_⟩⟩
    · cases answers with
      | delete live => simp [live, Command.told]
      | deleteAbsent dead => simp [dead, Command.told]
    · rintro ⟨⟨rfl, rfl⟩, rfl⟩
      cases live : m.live? now key with
      | none => exact .deleteAbsent live
      | some value => exact .delete live
  | keys start =>
    have byBytes {names : List String} :
        (names.Pairwise fun a b => Utf8.encode a < Utf8.encode b) ↔ names.Pairwise (· < ·) := by
      simp only [Utf8.encode_lt_encode_iff]
    have listed (k : String) : k ∈ es.liveKeys now start ↔
        (m.live? now k).isSome ∧ start.toList <+: k.toList := by
      rw [Entries.mem_liveKeys h.ascending, h.live now (Int.le_refl now)]
    have ascending := Entries.liveKeys_ascending h.ascending now start
    refine ⟨m, h, fun reply news m'' => ⟨fun answers => ?_, ?_⟩⟩
    · cases answers with
      | keys ascending' listed' =>
        have same := eq_of_listed (byBytes.mp ascending') ascending fun k =>
          (listed' k).trans (listed k).symm
        exact ⟨⟨congrArg Command.Reply.listed same, rfl⟩, rfl⟩
    · rintro ⟨⟨rfl, rfl⟩, rfl⟩
      exact .keys (byBytes.mpr ascending) listed

theorem tracks : Tracks Step Shows where
  answered c h le := by
    obtain ⟨m', -, answers⟩ := (h.later le).answers c.2
    exact ⟨m', _, rfl, (answers _ _ _).mpr ⟨⟨rfl, rfl⟩, rfl⟩⟩
  only {since es m v m''} c h le here := by
    obtain ⟨m', shows, answers⟩ := (h.later le).answers c.2
    obtain ⟨reply, replied, here⟩ := here
    obtain ⟨⟨rfl, told⟩, rfl⟩ := (answers _ _ _).mp here
    refine ⟨?_, shows⟩
    rcases v with ⟨_, _⟩
    cases replied
    cases told
    rfl

end Store.Contents

/-! ### One model -/

end ScreenFlow
