import ScreenFlow.Proofs.Process.Shared
import ScreenFlow.Proofs.Process.Histories
import ScreenFlow.Proofs.Store.Entries
import ScreenFlow.Proofs.Store.FileStages

/-!
# What a store in a file serves

One call at a time, with the time that its clock shows then, and with what becomes of the file if it
is written.

* `Command.work`: what a command makes of the entries that the store finds;
* `Shelf.leads_serve_iff`: what a call comes to by itself, and what it leaves behind;
* `Store.Serves`: call after call.
-/

namespace ScreenFlow

/-! ### Requests -/

namespace Store

/-- What a store is asked for. -/
inductive Command where
  | get (key : String)
  | set (key value : String) (ttl : Option Duration)
  | delete (key : String)
  | keys (start : String)

namespace Command

inductive Reply where
  | found (value : Option String)
  | stored
  | removed (existed : Bool)
  | listed (keys : List String)
deriving DecidableEq

def ask : Command → Ask
  | .get key => .get key
  | .set key value ttl => .set key value ttl
  | .delete key => .delete key
  | .keys start => .keys start

def reply : (r : Command) → Answer r.ask → Except StoreError Reply
  | .get _, a => a.map .found
  | .set .., a => a.map fun _ => .stored
  | .delete _, a => a.map .removed
  | .keys _, a => a.map .listed

/-- What the command comes to among these entries, and what it replaces them by. -/
def work (r : Command) (now : Int) (es : Entries) : Reply × Option Entries :=
  match r with
  | .get key => (.found (FileStore.look now key es).1, (FileStore.look now key es).2)
  | .set key value ttl => (.stored, some (MemoryStore.set es now key value ttl))
  | .delete key => (.removed (FileStore.remove now key es).1, (FileStore.remove now key es).2)
  | .keys start => (.listed (es.liveKeys now start), none)

/-- The entries afterwards. -/
def leaves (r : Command) (now : Int) (es : Entries) : Entries := (r.work now es).2.getD es

/-- What is announced in the end. -/
def told : Command → Reply → List StoreChange
  | .set key value _, .stored => [⟨key, some value⟩]
  | .delete key, .removed true => [⟨key, none⟩]
  | _, _ => []

theorem told_cases (r : Command) (a : Reply) : r.told a = [] ∨ ∃ c, r.told a = [c] := by
  unfold told
  split
  · exact .inr ⟨_, rfl⟩
  · exact .inr ⟨_, rfl⟩
  · exact .inl rfl

section Broadcast

variable {b : Broadcast StoreChange}

theorem counts_told (h : b.Counts) (r : Command) (a : Reply) :
    ((r.told a).foldl Broadcast.send b).Counts := by
  rcases r.told_cases a with none | ⟨c, one⟩
  · rwa [none]
  · rw [one]
    exact h.send

theorem capacity_told (b : Broadcast StoreChange) (r : Command) (a : Reply) :
    ((r.told a).foldl Broadcast.send b).capacity = b.capacity := by
  rcases r.told_cases a with none | ⟨c, one⟩
  · rw [none, List.foldl_nil]
  · rw [one]
    rfl

/-- What is announced is what a receiver finds that has read everything before. -/
theorem pending_told (h : b.Counts) (room : 0 < b.capacity) (r : Command) (a : Reply) :
    ((r.told a).foldl Broadcast.send b).pending b.sent = r.told a := by
  rcases r.told_cases a with none | ⟨c, one⟩
  · rw [none]
    exact Broadcast.pending_sent h
  · rw [one]
    exact Broadcast.pending_send_sent h room

end Broadcast

theorem ascending_leaves {r : Command} {now : Int} {es : Entries} (h : es.Ascending) :
    (r.leaves now es).Ascending := by
  cases r with
  | get key =>
    simp only [leaves, work, FileStore.look]
    split
    · exact h
    · split
      · exact Entries.ascending_erase h
      · exact h
  | set key value ttl => exact Entries.ascending_insert h
  | delete key =>
    simp only [leaves, work, FileStore.remove]
    split
    · exact h
    · exact Entries.ascending_erase h
  | keys start => exact h

end Command

/-- Calls one after the other, each with what is seen of it. -/
inductive Serves {σ ι ω : Type} (step : ι → σ → ω → σ → Prop) : List ι → σ → List ω → σ → Prop
  | nil (s : σ) : Serves step [] s [] s
  | cons {s s₁ s₂ : σ} {i : ι} {v : ω} {calls : List ι} {vs : List ω} (here : step i s v s₁)
      (rest : Serves step calls s₁ vs s₂) : Serves step (i :: calls) s (v :: vs) s₂

section Serves

variable {σ ι ω : Type} {step : ι → σ → ω → σ → Prop} {s s' : σ} {i : ι} {calls more : List ι}
  {vs : List ω}

@[simp] theorem serves_nil_iff : Serves step [] s vs s' ↔ vs = [] ∧ s' = s := by
  constructor
  · intro h
    cases h
    exact ⟨rfl, rfl⟩
  · rintro ⟨rfl, rfl⟩
    exact .nil s'

theorem serves_cons_iff : Serves step (i :: calls) s vs s' ↔
    ∃ v ws s₁, vs = v :: ws ∧ step i s v s₁ ∧ Serves step calls s₁ ws s' := by
  constructor
  · intro h
    cases h with
    | cons here rest => exact ⟨_, _, _, rfl, here, rest⟩
  · rintro ⟨v, ws, s₁, rfl, here, rest⟩
    exact .cons here rest

end Serves

end Store

/-! ### Moments -/

namespace FileStore

open Store (Command)
open Simulation (World Slot StoreState answerFile)

def serve : Command → Operation (Except StoreError Command.Reply)
  | .get key => do return (← get key).map .found
  | .set key value ttl => do return (← set key value ttl).map fun _ => .stored
  | .delete key => do return (← delete key).map .removed
  | .keys start => do return (← keys start).map .listed

/-- What is announced after a turn with this result. -/
def news (r : Command) (a : Except StoreError Command.Reply) : List StoreChange :=
  match a with
  | .ok reply => r.told reply
  | .error _ => []

theorem now_bind_congr {α β : Type} {turn : Int → Operation α} {k k' : α → Operation β}
    (same : ∀ x, k x = k' x) :
    (.ask .now fun now => (turn now).bind k : Operation β) =
      .ask .now fun now => (turn now).bind k' := by
  rw [funext same]

/-- Every call is a look at the clock, a turn with the entries, and what is announced. -/
theorem serve_shape (r : Command) :
    ∃ (α : Type) (f : Int → Entries → α × Option Entries) (wrap : α → Command.Reply),
      (∀ now es, r.work now es = (wrap (f now es).1, (f now es).2)) ∧
      serve r = .ask .now fun now => (withEntries (f now)).bind fun x =>
        (announceAll (news r (x.map wrap))).bind fun _ => .done (x.map wrap) := by
  cases r with
  | get key =>
    refine ⟨_, fun now => look now key, .found, fun now es => rfl, ?_⟩
    simp only [serve, get, ask, Process.call, Process.bind_def, Process.ask_bind, Process.done_bind,
      Process.pure_def]
    exact now_bind_congr fun x => by cases x <;> rfl
  | set key value ttl =>
    refine ⟨_, fun now es => ((), some (MemoryStore.set es now key value ttl)), fun _ => .stored,
      fun now es => rfl, ?_⟩
    simp only [serve, set, ask, Process.call, Process.bind_def, Process.bind_assoc,
      Process.ask_bind, Process.done_bind, Process.pure_def]
    exact now_bind_congr fun x => by cases x <;> rfl
  | delete key =>
    refine ⟨_, fun now => remove now key, .removed, fun now es => rfl, ?_⟩
    simp only [serve, delete, ask, Process.call, Process.bind_def, Process.bind_assoc,
      Process.ask_bind, Process.done_bind, Process.pure_def]
    exact now_bind_congr fun x => by rcases x with e | _ | _ <;> rfl
  | keys start =>
    refine ⟨_, fun now es => (es.liveKeys now start, none), .listed, fun now es => rfl, ?_⟩
    simp only [serve, keys, ask, Process.call, Process.bind_def, Process.ask_bind,
      Process.done_bind, Process.pure_def]
    exact now_bind_congr fun x => by cases x <;> rfl

/-- What is found under a key is what is live. -/
theorem look_fst (now : Int) (key : String) (es : Entries) :
    (look now key es).1 = es.live? now key := by
  rw [look, Entries.live?]
  cases es.find? key with
  | none => rfl
  | some e => by_cases expired : e.isExpired now = true <;> simp [expired, Option.filter]

/-- What the clock shows during a call, and why the file cannot be written then, if it cannot. -/
structure Moment where
  now : Int
  fault : Option StoreError := none

/-- A store in a file, with what there is to be read of its file. -/
structure Shelf where
  cache : Option Entries := none
  lock : Turnstile := {}
  file : Except StoreError (Option Bytes) := .ok none
  changes : Broadcast StoreChange := { capacity := Store.changeCapacity }

namespace Shelf

variable {α β : Type} {m : Moment} {s s' : Shelf}

/-- The entries that a call finds. -/
def entries (s : Shelf) : Except StoreError Entries :=
  match s.cache with
  | some es => .ok es
  | none => s.file.bind ofBytes

/-- Nobody is in the store. -/
def Free (s : Shelf) : Prop := s.lock.waiting = []

/-- Somebody has been in the store. -/
def passed (s : Shelf) : Shelf := { s with lock := s.lock.take.2.handBack s.lock.next }

def announcing (s : Shelf) (news : List StoreChange) : Shelf :=
  { s with changes := news.foldl Broadcast.send s.changes }

/-- Which answer a question gets. A file that cannot be written stays as it is. -/
def Answers (m : Moment) (s : Shelf) : (q : Ask) → Answer q → Shelf → Prop
  | .takeTicket, a, s' => a = s.lock.next ∧ s' = { s with lock := s.lock.take.2 }
  | .turn ticket, _, s' => s.lock.hasTurn ticket = true ∧ s' = s
  | .handBack ticket, _, s' => s' = { s with lock := s.lock.handBack ticket }
  | .cached, a, s' => a = s.cache ∧ s' = s
  | .setCache entries, _, s' => s' = { s with cache := entries }
  | .readFile, a, s' => a = s.file ∧ s' = s
  | .writeFile bytes, a, s' =>
    match m.fault with
    | none => a = .ok () ∧ s' = { s with file := .ok (some bytes) }
    | some e => a = .error e ∧ s' = s
  | .now, a, s' => a = m.now ∧ s' = s
  | .announce c, _, s' => s' = s.announcing [c]

/-- Others go on while a call waits for its turn or for the disk. -/
def surroundings (m : Moment) : Surroundings interface Shelf where
  suspends
    | .turn _ | .readFile | .writeFile _ => true
    | _ => false
  answers := Answers m
  undo
    | .takeTicket, ticket => some fun s => { s with lock := s.lock.handBack ticket }
    | _, _ => none

/-- The shelf of a world. -/
def ofWorld (w : World) (slot : Slot) : Shelf :=
  ⟨(w.store slot).file.cache, (w.store slot).file.lock, w.readStore slot, (w.store slot).changes⟩

/-- What a world answers at once is an answer that the shelf may give. -/
theorem answers_ofWorld {w : World} {slot : Slot} (isFile : (w.store slot).isFile = true) {q : Ask}
    (hq : (surroundings ⟨w.wallClock, none⟩).suspends q = false) :
    ∃ a w', (answerFile slot q).run w = (w', .done a) ∧ (w'.store slot).isFile = true ∧
      Answers ⟨w.wallClock, none⟩ (ofWorld w slot) q a (ofWorld w' slot) := by
  obtain ⟨f, changes, hs⟩ : ∃ f changes, w.store slot = ⟨.file f, changes⟩ := by
    rcases hs : w.store slot with ⟨_ | f, changes⟩
    · simp [hs, StoreState.isFile] at isFile
    · exact ⟨f, changes, rfl⟩
  have set (s : StoreState) : (w.setStore s slot).store slot = s := by cases slot <;> rfl
  have disk (s : StoreState) : (w.setStore s slot).disk = w.disk := by cases slot <;> rfl
  cases q with
  | turn | readFile | writeFile => cases hq
  | _ =>
    refine ⟨_, _, rfl, ?_⟩
    simp [World.modifyFile, World.modifyStore, World.readStore, set, disk, hs,
      StoreState.modifyFile, StoreState.isFile, StoreState.file, StoreState.announce, ofWorld,
      Answers, announcing, Turnstile.take]

/-! ### One question -/

section Questions

variable {b : α}

theorem leads_now {next} :
    (surroundings m).Leads (.ask .now next) s b s' ↔ (surroundings m).Leads (next m.now) s b s' :=
  Surroundings.leads_determined fun _ _ => Iff.rfl

theorem leads_takeTicket {next} : (surroundings m).Leads (.ask .takeTicket next) s b s' ↔
    (surroundings m).Leads (next s.lock.next) { s with lock := s.lock.take.2 } b s' :=
  Surroundings.leads_determined fun _ _ => Iff.rfl

theorem leads_turn {ticket next} (turn : s.lock.hasTurn ticket = true) :
    (surroundings m).Leads (.ask (.turn ticket) next) s b s' ↔
      (surroundings m).Leads (next ()) s b s' :=
  Surroundings.leads_determined fun _ s₁ => by simp [surroundings, Answers, turn]

theorem leads_handBack {ticket next} :
    (surroundings m).Leads (.ask (.handBack ticket) next) s b s' ↔
    (surroundings m).Leads (next ()) { s with lock := s.lock.handBack ticket } b s' :=
  Surroundings.leads_determined fun _ _ => by simp [surroundings, Answers]

theorem leads_cached {next} : (surroundings m).Leads (.ask .cached next) s b s' ↔
    (surroundings m).Leads (next s.cache) s b s' :=
  Surroundings.leads_determined fun _ _ => Iff.rfl

theorem leads_setCache {es next} : (surroundings m).Leads (.ask (.setCache es) next) s b s' ↔
    (surroundings m).Leads (next ()) { s with cache := es } b s' :=
  Surroundings.leads_determined fun _ _ => by simp [surroundings, Answers]

theorem leads_readFile {next} : (surroundings m).Leads (.ask .readFile next) s b s' ↔
    (surroundings m).Leads (next s.file) s b s' :=
  Surroundings.leads_determined fun _ _ => Iff.rfl

theorem leads_writeFile {bytes next} :
    (surroundings m).Leads (.ask (.writeFile bytes) next) s b s' ↔
    match m.fault with
    | none => (surroundings m).Leads (next (.ok ())) { s with file := .ok (some bytes) } b s'
    | some e => (surroundings m).Leads (next (.error e)) s b s' := by
  cases h : m.fault with
  | none => exact Surroundings.leads_determined fun _ _ => by simp [surroundings, Answers, h]
  | some e => exact Surroundings.leads_determined fun _ _ => by simp [surroundings, Answers, h]

theorem leads_announce {c next} : (surroundings m).Leads (.ask (.announce c) next) s b s' ↔
    (surroundings m).Leads (next ()) (s.announcing [c]) b s' :=
  Surroundings.leads_determined fun _ _ => by simp [surroundings, Answers]

end Questions

/-! ### One turn -/

/-- The entries are replaced, if they are to be. -/
def replacing (m : Moment) (changed : Option Entries) (s : Shelf) :
    Except StoreError Unit × Shelf :=
  match changed, m.fault with
  | none, _ => (.ok (), s)
  | some es, none => (.ok (), { s with cache := some es, file := .ok (some (toBytes es)) })
  | some es, some e => (.error e, { s with cache := some es })

/-- What comes of a look at the entries. -/
def within (m : Moment) (f : Entries → α × Option Entries) (s : Shelf) :
    Except StoreError α × Shelf :=
  match s.entries with
  | .error e => (.error e, s.passed)
  | .ok es =>
    let r := { s with cache := some es }.replacing m (f es).2
    (r.1.map fun _ => (f es).1, r.2.passed)

theorem leads_exclusively_iff (free : s.Free) {body : Operation α} {a : α} :
    (surroundings m).Leads (exclusively body) s a s' ↔
      ∃ s₁, (surroundings m).Leads body { s with lock := s.lock.take.2 } a s₁ ∧
        s' = { s₁ with lock := s₁.lock.handBack s.lock.next } := by
  have turn : s.lock.take.2.hasTurn s.lock.next = true := Turnstile.hasTurn_take_of_free free
  simp only [exclusively, ask, Process.call, Process.bind_def, Process.ask_bind, Process.done_bind,
    Process.pure_def, leads_takeTicket]
  rw [leads_turn turn, Surroundings.leads_bind_iff]
  simp only [leads_handBack, Surroundings.leads_done_iff]
  constructor
  · rintro ⟨_, s₁, leads, rfl, rfl⟩
    exact ⟨s₁, leads, rfl⟩
  · rintro ⟨s₁, leads, rfl⟩
    exact ⟨a, s₁, leads, rfl, rfl⟩

theorem leads_entries_iff {found : Except StoreError Entries} :
    (surroundings m).Leads FileStore.entries s found s' ↔
      found = s.entries ∧ s' = match s.entries with
        | .ok es => { s with cache := some es }
        | .error _ => s := by
  have same := entries_bind (α := Except StoreError Entries) .done
  rw [Process.bind_done] at same
  rw [same, leads_cached, entries]
  cases cached : s.cache with
  | some es => simp only [Surroundings.leads_done_iff, ← cached]
  | none =>
    rw [leads_readFile]
    cases s.file.bind ofBytes with
    | error e => simp only [Surroundings.leads_done_iff]
    | ok es => simp only [leads_setCache, Surroundings.leads_done_iff]

theorem leads_store_iff {es : Entries} {written : Except StoreError Unit} :
    (surroundings m).Leads (store es) s written s' ↔ (written, s') = s.replacing m (some es) := by
  simp only [store, ask, Process.call, Process.bind_def, Process.ask_bind, Process.done_bind,
    leads_setCache, leads_writeFile, replacing]
  cases m.fault <;> simp only [Surroundings.leads_done_iff, Prod.mk.injEq]

theorem leads_withEntries_iff (free : s.Free) {f : Entries → α × Option Entries}
    {a : Except StoreError α} :
    (surroundings m).Leads (withEntries f) s a s' ↔ (a, s') = s.within m f := by
  have held : { s with lock := s.lock.take.2 }.entries = s.entries := rfl
  rw [withEntries, leads_exclusively_iff free]
  simp only [Process.bind_def, Process.pure_def, Surroundings.leads_bind_iff, leads_entries_iff,
    held]
  rw [within]
  cases s.entries with
  | error e => simp [passed]
  | ok es =>
    rcases hf : f es with ⟨x, _ | changed⟩
    · simp [hf, replacing, passed, Except.map]
    · cases fault : m.fault <;>
        simp [hf, leads_store_iff, replacing, fault, passed, Surroundings.leads_bind_iff,
          Except.map, Turnstile.take]

/-! ### One call -/

theorem within_map (f : Entries → α × Option Entries) (g : α → β) :
    s.within m (fun es => (g (f es).1, (f es).2)) = ((s.within m f).1.map g, (s.within m f).2) := by
  have map (written : Except StoreError Unit) (x : α) :
      (written.map fun _ => g x) = (written.map fun _ => x).map g := by cases written <;> rfl
  unfold within
  cases s.entries with
  | error e => rfl
  | ok es => exact Prod.ext (map _ _) rfl

theorem lock_replacing (changed : Option Entries) : (s.replacing m changed).2.lock = s.lock := by
  unfold replacing
  split <;> rfl

/-- Nobody is in the store after a turn. -/
theorem free_within (free : s.Free) (f : Entries → α × Option Entries) : (s.within m f).2.Free := by
  have passes {s₁ : Shelf} (same : s₁.lock = s.lock) : s₁.passed.Free := by
    rw [Free, passed, same]
    exact Turnstile.handBack_take_of_free free
  unfold within
  split
  · exact passes rfl
  · exact passes (lock_replacing _)

/-- What a call comes to, and what it leaves behind. -/
def serve (m : Moment) (r : Command) (s : Shelf) : Except StoreError Command.Reply × Shelf :=
  let t := s.within m (r.work m.now)
  (t.1, t.2.announcing (news r t.1))

theorem leads_announceAll {news : List StoreChange} {k : Unit → Operation α} {b : α} :
    (surroundings m).Leads ((announceAll news).bind k) s b s' ↔
      (surroundings m).Leads (k ()) (s.announcing news) b s' := by
  induction news generalizing s with
  | nil => exact Iff.rfl
  | cons c news ih =>
    simp only [announceAll, ask, Process.call, Process.bind_def, Process.ask_bind,
      Process.done_bind]
    rw [leads_announce, ih]
    rfl

theorem leads_serve_iff (free : s.Free) {r : Command} {a : Except StoreError Command.Reply} :
    (surroundings m).Leads (FileStore.serve r) s a s' ↔ (a, s') = s.serve m r := by
  obtain ⟨α, f, wrap, works, shape⟩ := serve_shape r
  have same : r.work m.now = fun es => (wrap (f m.now es).1, (f m.now es).2) := funext (works m.now)
  rw [shape, leads_now, Surroundings.leads_bind_iff, serve, same, within_map]
  simp only [leads_withEntries_iff free, leads_announceAll, Surroundings.leads_done_iff,
    Prod.mk.injEq]
  constructor
  · rintro ⟨x, s₁, turn, rfl, rfl⟩
    rw [← turn]
    exact ⟨rfl, rfl⟩
  · rintro ⟨rfl, rfl⟩
    exact ⟨_, _, rfl, rfl, rfl⟩

section Serve

variable {r : Command} {es fs : Entries} {e : StoreError}

/-- Nothing is cached, and the file cannot be read. -/
theorem serve_unreadable (found : s.entries = .error e) : s.serve m r = (.error e, s.passed) := by
  simp only [serve, within, found]
  rfl

/-- The entries stay as they are. -/
theorem serve_kept (found : s.entries = .ok es) (keeps : (r.work m.now es).2 = none) :
    s.serve m r = (.ok (r.work m.now es).1,
      { s with cache := some es }.passed.announcing (r.told (r.work m.now es).1)) := by
  simp only [serve, within, found, keeps]
  rfl

theorem serve_written (found : s.entries = .ok es) (replaces : (r.work m.now es).2 = some fs)
    (sound : m.fault = none) :
    s.serve m r = (.ok (r.work m.now es).1,
      { s with cache := some fs, file := .ok (some (toBytes fs)) }.passed.announcing
        (r.told (r.work m.now es).1)) := by
  simp only [serve, within, found, replaces, replacing, sound]
  rfl

/-- The file cannot be written. The entries have been replaced by then. -/
theorem serve_unwritten (found : s.entries = .ok es) (replaces : (r.work m.now es).2 = some fs)
    (fault : m.fault = some e) : s.serve m r = (.error e, { s with cache := some fs }.passed) := by
  simp only [serve, within, found, replaces, replacing, fault]
  rfl

/-- What a call comes to where the file can be written. -/
theorem serve_eq (found : s.entries = .ok es) (now : Int) (r : Command) :
    ∃ s', s.serve ⟨now, none⟩ r = (.ok (r.work now es).1, s') ∧ s'.cache = some (r.leaves now es) ∧
      s'.changes = (r.told (r.work now es).1).foldl Broadcast.send s.changes ∧
      (r.leaves now es = es ∧ s'.file = s.file ∨
        s'.file = .ok (some (toBytes (r.leaves now es)))) := by
  rw [Command.leaves]
  cases replaces : (r.work now es).2 with
  | none => exact ⟨_, serve_kept found replaces, rfl, rfl, .inl ⟨rfl, rfl⟩⟩
  | some fs => exact ⟨_, serve_written found replaces rfl, rfl, rfl, .inr rfl⟩

end Serve

theorem free_serve (free : s.Free) (r : Command) : (s.serve m r).2.Free := free_within free _

end Shelf

end FileStore

end ScreenFlow
