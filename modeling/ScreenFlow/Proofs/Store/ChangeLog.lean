import ScreenFlow.Proofs.Store.Failing

/-!
# The announced changes as a log

Every change of the live contents is announced, and nothing else is. A receiver that keeps up and
applies what it is told to the contents it began with has the contents of now.

* `applying`: applying changes in order;
* `applying_told`, `applying_differences`: what a call and what a reload announces lead from the
  contents before to the contents afterwards;
* `Shelf.leads_reload_iff`: what a reload comes to;
* `Goes`: what is done to a store and what a receiver reads meanwhile;
* `Logs.goes`: a receiver that keeps up has the contents, if each deed announces what it does;
* `announcements_complete`: for a store in memory, for a store in a file, and for one reload.
-/

namespace ScreenFlow

open Store (Command TimedCommand)

/-! ### Applying changes -/

/-- What the keys hold at some time. -/
abbrev Holding := String → Option String

def StoreChange.apply (c : StoreChange) (content : Holding) : Holding :=
  fun key => if key = c.key then c.value else content key

/-- What the keys hold after these changes. -/
def applying (news : List StoreChange) (content : Holding) : Holding :=
  news.foldl (fun content c => c.apply content) content

theorem StoreChange.apply_apply (c : StoreChange) (content : Holding) (key : String) :
    c.apply content key = if key = c.key then c.value else content key := rfl

section Replay

variable {news more : List StoreChange} {content : Holding}

@[simp] theorem applying_nil (content : Holding) : applying [] content = content := rfl

@[simp] theorem applying_cons (c : StoreChange) (news : List StoreChange) (content : Holding) :
    applying (c :: news) content = applying news (c.apply content) := rfl

theorem applying_append (news more : List StoreChange) (content : Holding) :
    applying (news ++ more) content = applying more (applying news content) := List.foldl_append

/-- Changes that say what a key comes to hold, and leave out only what it holds already. -/
theorem applying_eq {after : Holding} (true_ : ∀ c ∈ news, c.value = after c.key)
    (all : ∀ key, content key ≠ after key → ∃ c ∈ news, c.key = key) :
    applying news content = after := by
  induction news generalizing content with
  | nil =>
    funext key
    by_contra differs
    obtain ⟨c, hc, -⟩ := all key differs
    cases hc
  | cons c news ih =>
    obtain ⟨here, later⟩ := List.forall_mem_cons.mp true_
    rw [applying_cons]
    refine ih later fun key differs => ?_
    by_cases same : key = c.key
    · rw [StoreChange.apply_apply, if_pos same, here, same] at differs
      exact absurd rfl differs
    · rw [StoreChange.apply_apply, if_neg same] at differs
      obtain ⟨d, hd, about⟩ := all key differs
      rcases List.mem_cons.mp hd with rfl | rest
      · exact absurd about.symm same
      · exact ⟨d, rest, about⟩

end Replay

/-! ### What is announced -/

/-- A command that does not set a time to live. -/
def Store.Command.Lasts : Command → Prop
  | .set _ _ ttl => ttl = none
  | _ => True

theorem Store.Command.Lasts.dated {r : Command} (h : r.Lasts) (now : Int) : r.Dated now := by
  cases r with
  | set key value ttl =>
    obtain rfl : ttl = none := h
    trivial
  | _ => trivial

/-- What a call announces leads from the live contents before it to those after it. -/
theorem applying_told {r : Command} (lasts : r.Lasts) (now : Int) (es : Entries) :
    applying (r.told (r.work now es).1) (es.live? now) = (r.leaves now es).live? now := by
  have dropped {key : String} (dead : es.live? now key = none) :
      (es.erase key).live? now = es.live? now := by
    funext k
    rw [Entries.live?_erase]
    split
    · rename_i same
      rw [same, dead]
    · rfl
  cases r with
  | get key =>
    simp only [Command.work, Command.told, Command.leaves, FileStore.look, applying_nil]
    split
    · rfl
    · rename_i e found
      split
      · rename_i expired
        exact (dropped (Entries.live?_of_expired found expired (Int.le_refl now))).symm
      · rfl
  | set key value ttl =>
    obtain rfl : ttl = none := lasts
    funext k
    simp only [Command.work, Command.told, Command.leaves, Option.getD_some, applying_cons,
      applying_nil, StoreChange.apply_apply, MemoryStore.set, Entries.live?_insert]
    simp [Entry.isExpired]
  | delete key =>
    obtain ⟨existed, erased⟩ := Prod.mk.inj (MemoryStore.delete_eq_remove es now key)
    simp only [Command.leaves, Command.work, ← existed, ← erased]
    cases live : es.live? now key with
    | none => exact (dropped live).symm
    | some value =>
      funext k
      simp only [Command.told, Option.isSome_some, applying_cons, applying_nil,
        StoreChange.apply_apply, Entries.live?_erase]
  | keys start => rfl

namespace FileStore

variable {es fs : Entries} {now : Int}

theorem mem_differences_iff {c : StoreChange} : c ∈ differences now es fs ↔
    es.live? now c.key ≠ fs.live? now c.key ∧ c.value = fs.live? now c.key := by
  constructor
  · intro h
    obtain ⟨key, -, told⟩ := List.mem_filterMap.mp h
    dsimp only at told
    split at told
    · cases told
    · rename_i differs
      cases told
      exact ⟨by simpa using differs, rfl⟩
  · rintro ⟨differs, value⟩
    have told := mem_differences differs
    rwa [← value] at told

/-- What a reload announces leads from the live contents in the cache to those in the file. -/
theorem applying_differences (now : Int) (es fs : Entries) :
    applying (differences now es fs) (es.live? now) = fs.live? now :=
  applying_eq (fun _ h => (mem_differences_iff.mp h).2)
    fun key differs => ⟨⟨key, fs.live? now key⟩, mem_differences differs, rfl⟩

/-- No key is announced twice. -/
theorem nodup_differences (h : es.Ascending) (h' : fs.Ascending) :
    ((differences now es fs).map (·.key)).Nodup := by
  have nodup {gs : Entries} (h : gs.Ascending) : (gs.map (·.1)).Nodup :=
    h.imp fun {a b} (lt : a < b) (same : a = b) => String.lt_irrefl _ (same ▸ lt)
  have keys : ((es ++ fs.filter fun e => (es.find? e.1).isNone).map (·.1)).Nodup := by
    rw [List.map_append, List.nodup_append]
    refine ⟨nodup h, (nodup h').sublist (List.filter_sublist.map _), ?_⟩
    intro a ha b hb same
    obtain ⟨e, he, rfl⟩ := List.mem_map.mp ha
    obtain ⟨f, hf, rfl⟩ := List.mem_map.mp hb
    have absent := (List.mem_filter.mp hf).2
    rw [← same, Entries.find?_of_mem h he] at absent
    cases absent
  have sorted := (List.mergeSort_perm _ fun a b => decide (a ≤ b)).nodup_iff.mpr keys
  have kept : (differences now es fs).map (·.key) =
      (((es ++ fs.filter fun e => (es.find? e.1).isNone).map (·.1)).mergeSort
        fun a b => decide (a ≤ b)).filter fun key => es.live? now key != fs.live? now key := by
    have each (keys : List String) : (keys.filterMap fun key =>
        let value := fs.live? now key
        if es.live? now key == value then none else some (⟨key, value⟩ : StoreChange)).map (·.key) =
          keys.filter fun key => es.live? now key != fs.live? now key := by
      induction keys with
      | nil => rfl
      | cons key keys ih =>
        have rest := ih
        by_cases same : es.live? now key = fs.live? now key <;> simp_all
    exact each _
  exact kept ▸ sorted.filter _

end FileStore

/-! ### What does not expire meanwhile -/

namespace Entries

variable {es : Entries} {since last now : Int}

/-- Between these times none of the entries expires. -/
def Steady (since last : Int) (es : Entries) : Prop :=
  ∀ e ∈ es, ∀ t ∈ e.2.expiresAt, t ≤ since ∨ last < t

theorem Lasting.steady (h : es.Lasting) (since last : Int) : es.Steady since last :=
  fun e he t ht => by simp [h e he] at ht

/-- The live contents are the same all the time. -/
theorem Steady.live?_eq (h : es.Steady since last) (begun : since ≤ now) (within : now ≤ last) :
    es.live? now = es.live? since := by
  funext key
  rw [live?, live?]
  cases found : es.find? key with
  | none => rfl
  | some e =>
    have same : e.isExpired now = e.isExpired since := by
      cases ht : e.expiresAt with
      | none => simp [Entry.isExpired, ht]
      | some t =>
        have apart := h _ (mem_of_find? found) t ht
        simp only [Entry.isExpired, ht, Option.any_some, decide_eq_decide]
        omega
    simp [Option.filter, same]

theorem Steady.leaves {r : Command} (h : es.Steady since last) (lasts : r.Lasts) (now : Int) :
    (r.leaves now es).Steady since last := by
  have erase (key : String) : (es.erase key).Steady since last :=
    fun e he => h e (List.mem_filter.mp he).1
  cases r with
  | get key =>
    simp only [Command.leaves, Command.work, FileStore.look]
    split
    · exact h
    · split
      · exact erase key
      · exact h
  | set key value ttl =>
    obtain rfl : ttl = none := lasts
    intro e he
    rcases mem_insert he with old | rfl
    · exact h e old
    · exact fun _ dated => absurd dated (Option.not_mem_none _)
  | delete key =>
    simp only [Command.leaves, Command.work, FileStore.remove]
    split
    · exact h
    · exact erase key
  | keys start => exact h

theorem fits_decode {source : Source} (h : Entries.decode source = some es) : es.Fits := by
  have entry : Entry.decode.Yields Source.Any Entry.Fits :=
    Decoder.yields_record (.bind (RecordReader.yields_required (Decoder.yields_true _) "value")
      fun value _ => .bind (RecordReader.yields_optional Decoder.yields_int64 "expiresAt")
        fun expiresAt dated => RecordReader.yields_pure dated) Source.hereditary_any
  exact (entry.map Source.hereditary_any trivial h).2

end Entries

theorem FileStore.fits_ofBytes {file : Option Bytes} {es : Entries} (h : ofBytes file = .ok es) :
    es.Fits := by
  rcases decoded_of_ofBytes h with rfl | ⟨source, decoded⟩
  · exact List.forall_mem_nil _
  · exact Entries.fits_decode decoded

/-! ### What a receiver hears -/

namespace Broadcast

variable {α : Type} {b : Broadcast α} {position : Nat}

theorem sent_foldl_send (b : Broadcast α) (news : List α) :
    (news.foldl send b).sent = b.sent + news.length := by
  induction news generalizing b with
  | nil => rfl
  | cons a news ih =>
    rw [List.foldl_cons, ih, List.length_cons]
    simp only [send]
    omega

theorem capacity_foldl_send (b : Broadcast α) (news : List α) :
    (news.foldl send b).capacity = b.capacity := by
  induction news generalizing b with
  | nil => rfl
  | cons a news ih => exact ih (b.send a)

theorem Counts.foldl_send (h : b.Counts) (news : List α) : (news.foldl Broadcast.send b).Counts := by
  induction news generalizing b with
  | nil => exact h
  | cons a news ih => exact ih h.send

/-- Who has no more to read than is kept finds every new message behind the old ones. -/
theorem pending_foldl_send (h : b.Counts) (within : position ≤ b.sent)
    (keepsUp : ¬ b.IsBehind position) {news : List α}
    (room : (news.foldl send b).sent ≤ position + b.capacity) :
    ¬ (news.foldl send b).IsBehind position ∧
      (news.foldl send b).pending position = b.pending position ++ news := by
  induction news generalizing b with
  | nil => exact ⟨keepsUp, (List.append_nil _).symm⟩
  | cons a news ih =>
    rw [List.foldl_cons] at room ⊢
    have sum := h.oldest_add
    have sent := sent_foldl_send (b.send a) news
    have still : ¬ (b.send a).IsBehind position := by
      rw [IsBehind, oldest_send h]
      rw [IsBehind] at keepsUp
      have more : (b.send a).sent = b.sent + 1 := rfl
      omega
    obtain ⟨keeps, pending⟩ := ih h.send (Nat.le_succ_of_le within) still room
    obtain ⟨n, here, lost⟩ := pending_send (a := a) h within
    obtain rfl : n = 0 := by
      by_contra some
      exact still (lost some)
    refine ⟨keeps, ?_⟩
    rw [pending, here, List.drop_zero, List.append_assoc]
    rfl

end Broadcast

/-- A receiver, with all that it has heard. -/
structure Listener where
  position : Nat
  heard : List StoreChange := []

def Listener.hear (l : Listener) : Broadcast.Received StoreChange × Nat → Listener
  | (.message c, position) => ⟨position, l.heard ++ [c]⟩
  | (_, position) => ⟨position, l.heard⟩

/-- The receiver keeps up, and knows how one content came of the other once it has heard the rest. -/
structure Listener.Follows (l : Listener) (b : Broadcast StoreChange) (before after : Holding) :
    Prop where
  within : l.position ≤ b.sent
  keepsUp : ¬ b.IsBehind l.position
  knows : applying (l.heard ++ b.pending l.position) before = after

section Follows

variable {l : Listener} {b : Broadcast StoreChange} {before after : Holding}

theorem Listener.Follows.tell (h : l.Follows b before after) (counts : b.Counts)
    {news : List StoreChange} (room : (news.foldl Broadcast.send b).sent ≤ l.position + b.capacity) :
    l.Follows (news.foldl Broadcast.send b) before (applying news after) := by
  obtain ⟨keeps, pending⟩ := Broadcast.pending_foldl_send counts h.within h.keepsUp room
  refine ⟨?_, keeps, ?_⟩
  · rw [Broadcast.sent_foldl_send]
    exact Nat.le_trans h.within (Nat.le_add_right _ _)
  · rw [pending, ← List.append_assoc, applying_append, h.knows]

theorem Listener.Follows.hear (h : l.Follows b before after) (counts : b.Counts) :
    (l.hear (b.receive l.position)).Follows b before after := by
  rcases Broadcast.receive_cases counts h.within with
    ⟨behind, -⟩ | ⟨-, c, received, next, within⟩ | ⟨-, received⟩
  · exact absurd behind h.keepsUp
  · rw [received]
    refine ⟨within, fun behind => h.keepsUp (Nat.lt_of_succ_lt behind), ?_⟩
    · show applying ((l.heard ++ [c]) ++ b.pending (l.position + 1)) before = after
      rw [List.append_assoc, List.singleton_append, ← next]
      exact h.knows
  · rw [received]
    exact h

/-- Who has heard everything has the content. -/
theorem Listener.Follows.heard (h : l.Follows b before after) (counts : b.Counts)
    (all : b.hasNews l.position = false) : applying l.heard before = after := by
  have none : b.pending l.position = [] := by
    by_contra some
    simp [(Broadcast.hasNews_iff counts).mpr (.inr some)] at all
  have knows := h.knows
  rwa [none, List.append_nil] at knows

end Follows

/-! ### Runs -/

/-- What happens to a store and its receiver. -/
inductive LogEvent (δ : Type) where
  | deed (d : δ)
  | read

/-- One thing after the other. Between its readings no more is announced to the receiver than is
kept. -/
inductive Goes {δ σ : Type} (does : δ → σ → σ → Prop) (changes : σ → Broadcast StoreChange) :
    List (LogEvent δ) → σ → Listener → σ → Listener → Prop
  | nil (s : σ) (l : Listener) : Goes does changes [] s l s l
  | deed {d events s s₁ s' l l'} (done : does d s s₁)
      (room : (changes s₁).sent ≤ l.position + (changes s₁).capacity)
      (rest : Goes does changes events s₁ l s' l') :
      Goes does changes (.deed d :: events) s l s' l'
  | read {events s s' l l'}
      (rest : Goes does changes events s (l.hear ((changes s).receive l.position)) s' l') :
      Goes does changes (.read :: events) s l s' l'

/-- Where the invariant holds, each deed can be done, keeps it, and announces what it does. -/
structure Logs {δ σ : Type} (does : δ → σ → σ → Prop) (changes : σ → Broadcast StoreChange)
    (content : σ → Holding) (fits : δ → Prop) (Inv : σ → Prop) : Prop where
  counts {s} (h : Inv s) : (changes s).Counts
  possible {d s} (h : Inv s) (fit : fits d) : ∃ s', does d s s'
  kept {d s s'} (h : Inv s) (fit : fits d) (done : does d s s') : Inv s'
  told {d s s'} (h : Inv s) (fit : fits d) (done : does d s s') :
    ∃ news, changes s' = news.foldl Broadcast.send (changes s) ∧
      content s' = applying news (content s)

def LogEvent.Fits {δ : Type} (fits : δ → Prop) : LogEvent δ → Prop
  | .deed d => fits d
  | .read => True

section Logs

variable {δ σ : Type} {does : δ → σ → σ → Prop} {changes : σ → Broadcast StoreChange}
  {content : σ → Holding} {fits : δ → Prop} {Inv : σ → Prop} {events : List (LogEvent δ)} {s s' : σ}
  {l l' : Listener} {before : Holding}

theorem Logs.goes (logs : Logs does changes content fits Inv)
    (goes : Goes does changes events s l s' l') (fit : ∀ e ∈ events, e.Fits fits) (h : Inv s)
    (follows : l.Follows (changes s) before (content s)) :
    Inv s' ∧ l'.Follows (changes s') before (content s') := by
  induction goes with
  | nil => exact ⟨h, follows⟩
  | deed done room rest ih =>
    obtain ⟨here, later⟩ := List.forall_mem_cons.mp fit
    obtain ⟨news, sent, came⟩ := logs.told h here done
    refine ih later (logs.kept h here done) ?_
    rw [sent, came]
    refine follows.tell (logs.counts h) ?_
    rwa [sent, Broadcast.capacity_foldl_send] at room
  | read rest ih =>
    exact ih (List.forall_mem_cons.mp fit).2 h (follows.hear (logs.counts h))

theorem Listener.follows_subscribed {b : Broadcast StoreChange} (counts : b.Counts) (before : Holding) :
    Listener.Follows ⟨b.sent, []⟩ b before before := by
  refine ⟨Nat.le_refl _, Nat.not_lt.mpr b.oldest_le_sent, ?_⟩
  rw [List.nil_append, Broadcast.pending_sent counts]
  rfl

end Logs

/-! ### The store in memory -/

/-- A call at a time of its own. -/
structure Store.TimedCommand.Fits (since last : Int) (c : TimedCommand) : Prop where
  lasts : c.2.Lasts
  begun : since ≤ c.1
  within : c.1 ≤ last

namespace MemoryStore

open Simulation (StoreState)

/-- What is done to a store in memory. -/
def Does (c : TimedCommand) (s s' : StoreState) : Prop := ∃ v, Step c s v s'

theorem logs (since last : Int) : Logs Does (·.changes) (fun s => s.entries.live? since)
    (TimedCommand.Fits since last) fun s => ∃ es, Keeps es s ∧ es.Steady since last where
  counts := fun ⟨_, keeps, _⟩ => keeps.counts
  possible := fun ⟨es, keeps, _⟩ _ => ⟨_, _, keeps.step_iff.mpr ⟨rfl, rfl⟩⟩
  kept := by
    rintro c s s' ⟨es, keeps, steady⟩ fit ⟨v, step⟩
    obtain ⟨-, rfl⟩ := keeps.step_iff.mp step
    exact ⟨_, keeps.leaves c, steady.leaves fit.lasts c.1⟩
  told := by
    rintro c s s' ⟨es, keeps, steady⟩ fit ⟨v, step⟩
    obtain ⟨-, rfl⟩ := keeps.step_iff.mp step
    obtain ⟨-, backing, changes⟩ := memoryAnswer_work keeps.backing c.1 c.2
    refine ⟨_, changes, ?_⟩
    have told := applying_told fit.lasts c.1 es
    rw [steady.live?_eq fit.begun fit.within,
      (steady.leaves fit.lasts c.1).live?_eq fit.begun fit.within] at told
    rw [StoreState.entries, backing, StoreState.entries, keeps.backing]
    exact told.symm

end MemoryStore

/-! ### The store in a file -/

namespace FileStore

/-- What can happen to a store in a file: a call, somebody else who writes or removes the file, and a
reload. -/
inductive Occasion where
  | call (c : TimedCommand)
  | rewrite (file : Option Bytes)
  | reload (now : Int)

/-- Nothing in the file is going to expire meanwhile. -/
def Occasion.Fits (since last : Int) : Occasion → Prop
  | .call c => c.Fits since last
  | .rewrite file => ∀ es, ofBytes file = .ok es → es.Steady since last
  | .reload now => since ≤ now ∧ now ≤ last

namespace Shelf

variable {s s' : Shelf} {m : Moment} {es fresh : Entries} {now since last : Int}

/-- What a reload comes to, and what it leaves behind. -/
def reloaded (now : Int) (s : Shelf) : Except StoreError Nat × Shelf :=
  match s.file.bind ofBytes with
  | .error e => (.error e, s)
  | .ok fresh =>
    let news := differences now (s.cache.getD []) fresh
    (.ok news.length, { s.passed.announcing news with cache := some fresh })

theorem leads_reload_iff (free : s.Free) {a : Except StoreError Nat} :
    (surroundings m).Leads reload s a s' ↔ (a, s') = s.reloaded m.now := by
  simp only [reload, readEntries, ask, Process.call, Process.bind_def, Process.ask_bind,
    Process.done_bind, Process.pure_def]
  rw [leads_readFile, reloaded]
  cases s.file.bind ofBytes with
  | error e => simp [Surroundings.leads_done_iff]
  | ok fresh =>
    dsimp only
    rw [leads_exclusively_iff free]
    simp only [leads_cached, leads_now, leads_announceAll, leads_setCache,
      Surroundings.leads_done_iff, Prod.mk.injEq]
    constructor
    · rintro ⟨s₁, ⟨rfl, rfl⟩, rfl⟩
      exact ⟨rfl, rfl⟩
    · rintro ⟨rfl, rfl⟩
      exact ⟨_, ⟨rfl, rfl⟩, rfl⟩

/-- What is done to a store in a file that can be written. -/
def Does : Occasion → Shelf → Shelf → Prop
  | .call c, s, s' => ∃ v, Step c s v s'
  | .rewrite file, s, s' => s' = { s with file := .ok file }
  | .reload now, s, s' => ∃ a, (surroundings ⟨now, none⟩).Leads reload s a s'

/-- The entries are cached, and nothing in the cache or in the file is going to expire meanwhile. -/
structure Loaded (since last : Int) (es : Entries) (s : Shelf) : Prop where
  free : s.Free
  cached : s.cache = some es
  ascending : es.Ascending
  fits : es.Fits
  steady : es.Steady since last
  file : ∀ fresh, s.file.bind ofBytes = .ok fresh → fresh.Steady since last
  counts : s.changes.Counts
  room : 0 < s.changes.capacity

/-- What the keys hold, as far as the store knows. -/
def content (since : Int) (s : Shelf) : Holding := (s.cache.getD []).live? since

theorem free_passed (free : s.Free) : s.passed.Free := Turnstile.handBack_take_of_free free

theorem Loaded.entries (h : s.Loaded since last es) : s.entries = .ok es := by
  rw [Shelf.entries, h.cached]

theorem Loaded.called (h : Loaded since last es s) {c : TimedCommand} (fit : c.Fits since last)
    {v : Store.Visit} (step : Step c s v s') :
    Loaded since last (c.2.leaves c.1 es) s' ∧
      s'.changes = (c.2.told (c.2.work c.1 es).1).foldl Broadcast.send s.changes := by
  obtain ⟨s₁, served, cached, changes, file⟩ := serve_eq h.entries c.1 c.2
  obtain ⟨a, leads, -⟩ := step
  rw [leads_serve_iff h.free, served] at leads
  obtain ⟨-, rfl⟩ := Prod.mk.inj leads
  have ascending : (c.2.leaves c.1 es).Ascending := Command.ascending_leaves h.ascending
  have fits : (c.2.leaves c.1 es).Fits := h.fits.leaves (fit.lasts.dated c.1)
  have steady := h.steady.leaves fit.lasts c.1
  have free := free_serve (m := ⟨c.1, none⟩) h.free c.2
  rw [served] at free
  refine ⟨⟨free, cached, ascending, fits, steady, fun fresh read => ?_, ?_, ?_⟩, changes⟩
  · rcases file with ⟨-, kept⟩ | written
    · exact h.file fresh (kept ▸ read)
    · rw [written] at read
      have same := (ofBytes_toBytes ascending fits).symm.trans read
      exact Except.ok.inj same ▸ steady
  · rw [changes]
    exact Command.counts_told h.counts _ _
  · rw [changes, Command.capacity_told]
    exact h.room

theorem reloaded_eq (read : s.file.bind ofBytes = .ok fresh) (cached : s.cache = some es)
    (now : Int) : s.reloaded now = (.ok (differences now es fresh).length,
      { s.passed.announcing (differences now es fresh) with cache := some fresh }) := by
  rw [reloaded, read, cached]
  rfl

theorem Loaded.reloaded (h : Loaded since last es s) (read : s.file.bind ofBytes = .ok fresh)
    (now : Int) : Loaded since last fresh (s.reloaded now).2 := by
  obtain ⟨file, -, decoded⟩ : ∃ file, s.file = .ok file ∧ ofBytes file = .ok fresh := by
    cases there : s.file with
    | error e =>
      rw [there] at read
      cases read
    | ok file => exact ⟨file, rfl, by rwa [there] at read⟩
  rw [reloaded_eq read h.cached]
  exact {
    free := free_passed h.free
    cached := rfl
    ascending := ascending_ofBytes decoded
    fits := fits_ofBytes decoded
    steady := h.file fresh read
    file := h.file
    counts := h.counts.foldl_send _
    room := (Broadcast.capacity_foldl_send _ _).symm ▸ h.room }

/-- A file that cannot be read changes nothing. -/
theorem Loaded.reload_cases (h : Loaded since last es s) (done : Does (.reload now) s s') :
    s' = s ∨ ∃ fresh, s.file.bind ofBytes = .ok fresh ∧ s' = (s.reloaded now).2 := by
  obtain ⟨a, leads⟩ := done
  have left : s' = (s.reloaded now).2 :=
    congrArg Prod.snd ((leads_reload_iff h.free).mp leads)
  cases read : s.file.bind ofBytes with
  | error e =>
    rw [Shelf.reloaded, read] at left
    exact .inl left
  | ok fresh => exact .inr ⟨fresh, rfl, left⟩

theorem Loaded.content_eq (h : Loaded since last es s) : s.content since = es.live? since := by
  rw [content, h.cached]
  rfl

theorem logs (since last : Int) : Logs Does (·.changes) (content since) (Occasion.Fits since last)
    fun s => ∃ es, Loaded since last es s where
  counts := fun ⟨_, loaded⟩ => loaded.counts
  possible := by
    rintro (c | file | now) s ⟨es, loaded⟩ -
    · exact ⟨_, _, _, (leads_serve_iff loaded.free).mpr rfl, rfl⟩
    · exact ⟨_, rfl⟩
    · exact ⟨_, _, (leads_reload_iff loaded.free).mpr rfl⟩
  kept := by
    rintro (c | file | now) s s' ⟨es, loaded⟩ fit done
    · obtain ⟨v, step⟩ := done
      exact ⟨_, (loaded.called fit step).1⟩
    · obtain rfl := done
      exact ⟨es, { loaded with file := fit }⟩
    · rcases loaded.reload_cases done with rfl | ⟨fresh, read, rfl⟩
      · exact ⟨es, loaded⟩
      · exact ⟨fresh, loaded.reloaded read now⟩
  told := by
    rintro (c | file | now) s s' ⟨es, loaded⟩ fit done
    · obtain ⟨v, step⟩ := done
      obtain ⟨after, changes⟩ := loaded.called fit step
      have told := applying_told fit.lasts c.1 es
      rw [loaded.steady.live?_eq fit.begun fit.within, after.steady.live?_eq fit.begun fit.within]
        at told
      refine ⟨_, changes, ?_⟩
      rw [after.content_eq, loaded.content_eq, told]
    · obtain rfl := done
      exact ⟨[], rfl, rfl⟩
    · rcases loaded.reload_cases done with rfl | ⟨fresh, read, rfl⟩
      · exact ⟨[], rfl, rfl⟩
      · have after := loaded.reloaded read now
        have told := applying_differences now es fresh
        rw [loaded.steady.live?_eq fit.1 fit.2, after.steady.live?_eq fit.1 fit.2] at told
        refine ⟨differences now es fresh, ?_, ?_⟩
        · rw [reloaded_eq read loaded.cached]
          rfl
        · rw [after.content_eq, loaded.content_eq, told]

/-- From a cache with these entries and a file with those, a reload comes to the number of what it
announces: exactly the keys whose live value differs, each one once. From then on the store answers what
the file holds. -/
structure Reloads (now : Int) (es fresh : Entries) (s : Shelf) (news : List StoreChange) (s' : Shelf) :
    Prop where
  comes : ∀ a s'', (surroundings ⟨now, none⟩).Leads reload s a s'' ↔ a = .ok news.length ∧ s'' = s'
  announced : s'.changes = news.foldl Broadcast.send s.changes
  once : (news.map (·.key)).Nodup
  exactly : ∀ key value, ⟨key, value⟩ ∈ news ↔
    es.live? now key ≠ fresh.live? now key ∧ value = fresh.live? now key
  answers : ∀ t key a, (∃ s'', (surroundings ⟨t, none⟩).Leads (FileStore.serve (.get key)) s' a s'') ↔
    a = .ok (.found (fresh.live? t key))

theorem exists_reloads (free : s.Free) (cached : s.cache = some es) (ascending : es.Ascending)
    (read : s.file.bind ofBytes = .ok fresh) (now : Int) :
    ∃ news s', Reloads now es fresh s news s' := by
  have sorted : fresh.Ascending := by
    cases there : s.file with
    | error e =>
      rw [there] at read
      cases read
    | ok file => exact ascending_ofBytes (there ▸ read)
  refine ⟨differences now es fresh, (s.reloaded now).2, fun a s'' => ?_, ?_,
    nodup_differences ascending sorted, fun key value => mem_differences_iff, fun t key a => ?_⟩
  · rw [leads_reload_iff free, reloaded_eq read cached, Prod.mk.injEq]
  · rw [reloaded_eq read cached]
    rfl
  · have found : (s.reloaded now).2.entries = .ok fresh := by
      rw [reloaded_eq read cached]
      rfl
    have still : (s.reloaded now).2.Free := by
      rw [reloaded_eq read cached]
      exact free_passed free
    obtain ⟨s₁, served, -⟩ := serve_eq found t (.get key)
    have answer : (Command.work (.get key) t fresh).1 = .found (fresh.live? t key) :=
      congrArg _ (look_fst t key fresh)
    simp only [leads_serve_iff still, served, answer, Prod.mk.injEq]
    exact ⟨fun ⟨_, same, _⟩ => same, fun same => ⟨s₁, same, rfl⟩⟩

end Shelf

end FileStore

open FileStore (Occasion Shelf)

/-- **The announced changes are a complete log.** Whatever is done to a store, one thing after the other
and without a time to live, a receiver that reads before more is announced than is kept knows the live
contents: applied in order to those at its beginning, what it has heard gives those of now, once it has
heard everything. That is so for a store in memory, and for a store in a file, where others may write the
file at any time. A reload announces exactly the keys whose live value differs, each one
once. -/
theorem announcements_complete (since last : Int) :
    (∀ es s, MemoryStore.Keeps es s → es.Steady since last → ∀ events,
      (∀ e ∈ events, e.Fits (TimedCommand.Fits since last)) → ∀ s' l',
      Goes MemoryStore.Does (·.changes) events s ⟨s.changes.sent, []⟩ s' l' →
      ∀ now, since ≤ now → now ≤ last →
        l'.Follows s'.changes (es.live? since) (s'.entries.live? now) ∧
        (s'.changes.hasNews l'.position = false →
          applying l'.heard (es.live? since) = s'.entries.live? now)) ∧
    (∀ es s, Shelf.Loaded since last es s → ∀ events,
      (∀ e ∈ events, e.Fits (Occasion.Fits since last)) → ∀ s' l',
      Goes Shelf.Does (·.changes) events s ⟨s.changes.sent, []⟩ s' l' →
      ∀ now, since ≤ now → now ≤ last → ∃ es', s'.cache = some es' ∧
        l'.Follows s'.changes (es.live? since) (es'.live? now) ∧
        (s'.changes.hasNews l'.position = false →
          applying l'.heard (es.live? since) = es'.live? now)) ∧
    ∀ (es fresh : Entries) (s : Shelf), s.Free → s.cache = some es → es.Ascending →
      s.file.bind FileStore.ofBytes = .ok fresh → ∀ now, ∃ news s',
        Shelf.Reloads now es fresh s news s' := by
  refine ⟨fun es s keeps steady events fit s' l' goes now begun within => ?_,
    fun es s loaded events fit s' l' goes now begun within => ?_,
    fun es fresh s free cached ascending read now =>
      Shelf.exists_reloads free cached ascending read now⟩
  · have same : s.entries = es := by rw [Simulation.StoreState.entries, keeps.backing]
    obtain ⟨⟨es', keeps', steady'⟩, follows⟩ := (MemoryStore.logs since last).goes goes fit
      ⟨es, keeps, steady⟩ (Listener.follows_subscribed keeps.counts _)
    have same' : s'.entries = es' := by rw [Simulation.StoreState.entries, keeps'.backing]
    simp only [same, same'] at follows
    rw [same', steady'.live?_eq begun within]
    exact ⟨follows, follows.heard keeps'.counts⟩
  · obtain ⟨⟨es', loaded'⟩, follows⟩ := (Shelf.logs since last).goes goes fit
      ⟨es, loaded⟩ (Listener.follows_subscribed loaded.counts _)
    rw [loaded.content_eq, loaded'.content_eq, ← loaded'.steady.live?_eq begun within] at follows
    exact ⟨es', loaded'.cached, follows, follows.heard loaded'.counts⟩

/-- A key is set, and then somebody else removes the file. -/
theorem announcements_complete_removed :
    ∃ s' l' es', Goes Shelf.Does (·.changes) [.deed (.call (0, .set "k" "v" none)), .read,
        .deed (.rewrite none), .deed (.reload 1), .read] { cache := some [] } ⟨0, []⟩ s' l' ∧
      l'.heard = [⟨"k", some "v"⟩, ⟨"k", none⟩] ∧ s'.cache = some es' ∧
      applying l'.heard (Entries.live? [] 0) = es'.live? 1 := by
  let s₁ : Shelf := (Shelf.serve ⟨0, none⟩ (.set "k" "v" none) { cache := some [] }).2
  let s₂ : Shelf := { s₁ with file := .ok none }
  have free : Shelf.Free { cache := some [] } := rfl
  have free₂ : s₂.Free := rfl
  have gone : FileStore.differences 1 [("k", { value := "v" })] [] = [⟨"k", none⟩] := by
    simp [FileStore.differences, Entries.live?, Entries.find?, Entry.isExpired, Option.filter]
  have cached₂ : s₂.cache = some [("k", { value := "v" })] := rfl
  have reloaded : s₂.reloaded 1 =
      (.ok 1, { s₂.passed.announcing [⟨"k", none⟩] with cache := some [] }) := by
    rw [Shelf.reloaded_eq rfl cached₂, gone]
    rfl
  have goes : Goes Shelf.Does (·.changes) [.deed (.call (0, .set "k" "v" none)), .read,
      .deed (.rewrite none), .deed (.reload 1), .read] { cache := some [] } ⟨0, []⟩
      { s₂.passed.announcing [⟨"k", none⟩] with cache := some [] }
      ⟨2, [⟨"k", some "v"⟩, ⟨"k", none⟩]⟩ :=
    .deed ⟨_, _, (Shelf.leads_serve_iff free).mpr rfl, rfl⟩ (by decide)
      (.read (.deed rfl (by decide) (.deed ⟨_, (Shelf.leads_reload_iff free₂).mpr reloaded.symm⟩
        (by decide) (.read (.nil _ _)))))
  have lasting : Entries.Lasting [] := List.forall_mem_nil _
  have loaded : Shelf.Loaded 0 1 [] { cache := some [] } :=
    { free, cached := rfl, ascending := Entries.ascending_nil, fits := lasting.fits,
      steady := lasting.steady 0 1, counts := Nat.le_refl 0, room := Nat.zero_lt_succ 63
      file := by
        rintro fresh ⟨⟩
        exact lasting.steady 0 1 }
  have fit : ∀ e ∈ [LogEvent.deed (.call (0, .set "k" "v" none)), .read, .deed (.rewrite none),
      .deed (.reload 1), .read], e.Fits (Occasion.Fits 0 1) := by
    simp only [List.forall_mem_cons]
    refine ⟨⟨rfl, Int.le_refl 0, by decide⟩, trivial, ?_, ⟨by decide, Int.le_refl 1⟩, trivial,
      List.forall_mem_nil _⟩
    rintro fresh ⟨⟩
    exact lasting.steady 0 1
  obtain ⟨-, file, -⟩ := announcements_complete 0 1
  obtain ⟨es', cached, -, heard⟩ := file [] _ loaded _ fit _ _ goes 1 (by decide) (Int.le_refl 1)
  exact ⟨_, _, es', goes, rfl, cached, heard rfl⟩

end ScreenFlow
