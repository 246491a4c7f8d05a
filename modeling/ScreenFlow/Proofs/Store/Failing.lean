import ScreenFlow.Proofs.Json.Yielding
import ScreenFlow.Proofs.Store.Changes
import ScreenFlow.Proofs.Store.Refinement

/-!
# What a failed change leaves behind

The cached entries are replaced before the file is written. If it cannot be written the call is
refused, and the entries stay replaced: what was refused is found from then on, and the next call
that can write writes it down.

* `Reachable`: the stores that come about in any order of calls, failures and abandonments;
* `Reachable.sorted`: their entries are in order;
* `Alike`: no calls can tell two stores apart;
* `refused_alike_iff`: a refused call leaves no trace exactly if it would have altered no entry.
-/

namespace ScreenFlow

open Store (Command Serves)

/-! ### The order of what is read -/

theorem Entries.ascending_decode {source : Source} {es : Entries}
    (h : Entries.decode source = some es) : es.Ascending :=
  ((Decoder.yields_true Entry.decode).map Source.hereditary_any trivial h).1

/-- An entry was live at some time, and at any time before. -/
theorem Entry.exists_live (e : Entry) : ∃ t, ∀ now, now ≤ t → e.isExpired now = false := by
  cases h : e.expiresAt with
  | none => exact ⟨0, fun now _ => by simp [isExpired, h]⟩
  | some d =>
    refine ⟨d - 1, fun now le => ?_⟩
    simp only [isExpired, h, Option.any_some, decide_eq_false_iff_not]
    omega

theorem Entry.expiresAt_ext {e f : Entry} (same : ∀ now, e.isExpired now = f.isExpired now) :
    e.expiresAt = f.expiresAt := by
  cases he : e.expiresAt with
  | none =>
    cases hf : f.expiresAt with
    | none => rfl
    | some d => simpa [isExpired, he, hf] using same d
  | some c =>
    cases hf : f.expiresAt with
    | none => simpa [isExpired, he, hf] using same c
    | some d =>
      have le : d ≤ c := by simpa [isExpired, he, hf] using same c
      have ge : c ≤ d := by simpa [isExpired, he, hf] using same d
      rw [Int.le_antisymm ge le]

namespace Entries

theorem live?_of_find? {es : Entries} {key : String} {e : Entry} (h : es.find? key = some e)
    (now : Int) : es.live? now key = if e.isExpired now then none else some e.value := by
  cases expired : e.isExpired now <;> simp [live?, h, Option.filter, expired]

/-- Entries that are live at the same times are the same. -/
theorem find?_ext {es fs : Entries} {key : String}
    (same : ∀ now, es.live? now key = fs.live? now key) : es.find? key = fs.find? key := by
  have absent {gs hs : Entries} (same : ∀ now, gs.live? now key = hs.live? now key)
      (none : gs.find? key = none) : hs.find? key = Option.none := by
    cases found : hs.find? key with
    | none => rfl
    | some e =>
      obtain ⟨t, live⟩ := e.exists_live
      have at_t := same t
      rw [live?_of_find? found, live t (Int.le_refl t)] at at_t
      simp [live?, none] at at_t
  cases he : es.find? key with
  | none => rw [absent same he]
  | some e =>
    cases hf : fs.find? key with
    | none => rw [absent (fun now => (same now).symm) hf] at he; cases he
    | some f =>
      simp only [live?_of_find? he, live?_of_find? hf] at same
      obtain ⟨t, live⟩ := e.exists_live
      obtain ⟨t', live'⟩ := f.exists_live
      have value : e.value = f.value := by
        have at_both := same (min t t')
        rw [live _ (Int.min_le_left t t'), live' _ (Int.min_le_right t t')] at at_both
        exact Option.some.inj at_both
      have expires : e.expiresAt = f.expiresAt := Entry.expiresAt_ext fun now => by
        have at_now := same now
        cases he : e.isExpired now <;> cases hf : f.isExpired now <;> simp_all
      rcases e with ⟨_, _⟩
      rcases f with ⟨_, _⟩
      cases value
      cases expires
      rfl

end Entries

namespace FileStore

/-- What a file holds is nothing, or what is decoded of it. -/
theorem decoded_of_ofBytes {bytes : Option Bytes} {es : Entries} (h : ofBytes bytes = .ok es) :
    es = [] ∨ ∃ source, Entries.decode source = some es := by
  rw [ofBytes.eq_def] at h
  split at h
  · cases h
    exact .inl rfl
  · cases h
    exact .inl rfl
  · rename_i bytes _
    cases read : Json.decodeBytes Entries.decode bytes with
    | error e => simp [read, Except.mapError] at h
    | ok es' =>
      rw [read] at h
      cases h
      obtain ⟨source, -, decoded⟩ := Json.Reader.decode_eq_ok_iff.mp read
      exact .inr ⟨source, decoded⟩

/-- What is read of a file is in order, whoever has written it. -/
theorem ascending_ofBytes {bytes : Option Bytes} {es : Entries} (h : ofBytes bytes = .ok es) :
    es.Ascending := by
  rcases decoded_of_ofBytes h with rfl | ⟨source, decoded⟩
  · exact Entries.ascending_nil
  · exact Entries.ascending_decode decoded

/-! ### Reachable stores -/

section Orders

variable {α β : Type} {post : α → Prop} {post' : β → Prop}

/-- What the process caches is in order if what it finds cached is, and its result is as it should
be. -/
def Orders (post : α → Prop) : Operation α → Prop
  | .done a => post a
  | .ask .cached next =>
    ∀ found : Option Entries, (∀ es ∈ found, es.Ascending) → Orders post (next found)
  | .ask (.setCache entries) next =>
    (∀ es : Entries, entries = some es → es.Ascending) ∧ Orders post (next ())
  | .ask _ next => ∀ a, Orders post (next a)

theorem Orders.bind {p : Operation α} {k : α → Operation β} (h : Orders post p)
    (hk : ∀ a, post a → Orders post' (k a)) : Orders post' (p.bind k) := by
  induction p with
  | done a => exact hk a h
  | ask q next ih =>
    cases q with
    | cached => exact fun found sorted => ih found (h found sorted)
    | setCache entries => exact ⟨h.1, ih () h.2⟩
    | _ => exact fun a => ih a (h a)

theorem orders_entries :
    Orders (fun found => ∀ es, found = .ok es → es.Ascending) entries := by
  have same := entries_bind (α := Except StoreError Entries) .done
  rw [Process.bind_done] at same
  rw [same]
  intro found sorted
  cases found with
  | some es =>
    rintro _ ⟨⟩
    exact sorted es rfl
  | none =>
    intro bytes
    rcases bytes with e | bytes
    · exact nofun
    · dsimp only [Except.bind]
      cases read : ofBytes bytes with
      | error e => exact nofun
      | ok es =>
        have ascending := ascending_ofBytes read
        refine ⟨?_, ?_⟩ <;>
        · rintro _ ⟨⟩
          exact ascending

theorem orders_exclusively {body : Operation α} (h : Orders post body) :
    Orders post (exclusively body) :=
  fun _ _ => h.bind fun _ ha _ => ha

theorem orders_withEntries {f : Entries → α × Option Entries}
    (keeps : ∀ es, es.Ascending → ∀ changed ∈ (f es).2, Entries.Ascending changed) :
    Orders (fun _ => True) (withEntries f) := by
  refine orders_exclusively (orders_entries.bind fun found sorted => ?_)
  cases found with
  | error e => trivial
  | ok es =>
    have kept := keeps es (sorted es rfl)
    dsimp only
    rcases hf : f es with ⟨a, _ | changed⟩
    · trivial
    · refine ⟨?_, fun written => trivial⟩
      rintro _ ⟨⟩
      exact kept changed (by rw [hf]; rfl)

theorem orders_announceAll (news : List StoreChange) :
    Orders (fun _ => True) (announceAll news) := by
  induction news with
  | nil => trivial
  | cons c news ih => exact fun _ => ih

theorem orders_serve (r : Command) : Orders (fun _ => True) (serve r) := by
  obtain ⟨α, f, wrap, works, shape⟩ := serve_shape r
  rw [shape]
  intro now
  refine (orders_withEntries fun es ascending changed h => ?_).bind fun x _ =>
    (orders_announceAll _).bind fun _ _ => trivial
  have leaves : (r.leaves now es).Ascending := Command.ascending_leaves ascending
  rwa [Command.leaves, works, Option.mem_def.mp h] at leaves

theorem orders_reload : Orders (fun _ => True) reload := by
  unfold reload readEntries
  intro bytes
  rcases bytes with e | bytes
  · trivial
  · dsimp only [Process.done_bind, Process.pure_def, Except.bind]
    cases read : ofBytes bytes with
    | error e => trivial
    | ok fresh =>
      refine orders_exclusively fun before _ now => (orders_announceAll _).bind fun _ _ => ?_
      refine ⟨?_, trivial⟩
      rintro _ ⟨⟩
      exact ascending_ofBytes read

end Orders

/-- What is done to a store in a file. -/
inductive Deed where
  | serve (r : Command)
  | reload

def Deed.body : Deed → Operation Unit
  | .serve r => (FileStore.serve r).bind fun _ => .done ()
  | .reload => FileStore.reload.bind fun _ => .done ()

theorem Deed.orders (d : Deed) : Orders (fun _ => True) d.body := by
  cases d with
  | serve r => exact (orders_serve r).bind fun _ _ => trivial
  | reload => exact orders_reload.bind fun _ _ => trivial

namespace Shelf

/-- The clock may show anything at any time, and the file may fail to be written. -/
def anyhow : Surroundings interface Shelf where
  suspends
    | .turn _ | .readFile | .writeFile _ => true
    | _ => false
  answers s q a s' := ∃ m, Answers m s q a s'
  undo
    | .takeTicket, ticket => some fun s => { s with lock := s.lock.handBack ticket }
    | _, _ => none

/-- Stores that come about from a new one: calls begin, go on and are given up in any order, and at
any time there may be something else to be read of the file. -/
inductive Reachable : Pool interface Shelf Deed Unit → Prop
  | opened (file : Except StoreError (Option Bytes)) : Reachable ⟨{ file }, []⟩
  | step {p p'} (h : Reachable p) (step : anyhow.Step Deed.body p p') : Reachable p'
  | replaced {p} (h : Reachable p) (file : Except StoreError (Option Bytes)) :
      Reachable { p with state := { p.state with file } }

def Sorted (s : Shelf) : Prop := ∀ es, s.cache = some es → es.Ascending

end Shelf

section Invariant

variable {α : Type} {post : α → Prop} {s s' : Shelf}

theorem Orders.answered {q : Ask} {next : Answer q → Operation α} {a : Answer q} {m : Moment}
    (h : Orders post (.ask q next)) (sorted : s.Sorted) (ha : Shelf.Answers m s q a s') :
    Orders post (next a) ∧ s'.Sorted := by
  cases q with
  | cached =>
    obtain ⟨rfl, rfl⟩ := ha
    exact ⟨h _ sorted, sorted⟩
  | setCache entries =>
    cases ha
    exact ⟨h.2, h.1⟩
  | takeTicket | turn | readFile | now =>
    obtain ⟨-, rfl⟩ := ha
    exact ⟨h a, sorted⟩
  | handBack | announce =>
    cases ha
    exact ⟨h a, sorted⟩
  | writeFile bytes =>
    refine ⟨h a, ?_⟩
    cases fault : m.fault with
    | none =>
      simp only [Shelf.Answers, fault] at ha
      rw [ha.2]
      exact sorted
    | some e =>
      simp only [Shelf.Answers, fault] at ha
      rw [ha.2]
      exact sorted

theorem Orders.runs {p p' : Operation α} {past past' : List (Happening interface)}
    (runs : Shelf.anyhow.Runs s p past s' p' past') (h : Orders post p) (sorted : s.Sorted) :
    Orders post p' ∧ s'.Sorted := by
  induction runs with
  | done | suspended => exact ⟨h, sorted⟩
  | answered _ ha _ ih =>
    obtain ⟨m, ha⟩ := ha
    obtain ⟨h₁, sorted₁⟩ := h.answered sorted ha
    exact ih h₁ sorted₁

theorem Shelf.cache_undone (past : List (Happening interface)) (s : Shelf) :
    (Shelf.anyhow.undone past s).cache = s.cache := by
  induction past with
  | nil => rfl
  | cons h past ih =>
    rw [← ih]
    rcases h with ⟨q, a⟩
    cases q <;> rfl

namespace Shelf

/-- What a store has cached is in order, and so will be what the calls that are under way cache. -/
theorem Reachable.sorted {p : Pool interface Shelf Deed Unit} (h : Reachable p) :
    p.state.Sorted ∧ ∀ t ∈ p.threads, Orders (fun _ => True) t.process := by
  induction h with
  | opened file => exact ⟨nofun, nofun⟩
  | replaced _ file ih => exact ih
  | step _ step ih =>
    obtain ⟨sorted, threads⟩ := ih
    cases step with
    | begin d runs =>
      obtain ⟨here, sorted⟩ := d.orders.runs runs sorted
      refine ⟨sorted, fun t ht => ?_⟩
      rcases List.mem_append.mp ht with old | new
      · exact threads t old
      · rw [List.mem_singleton.mp new]
        exact here
    | resume resumes =>
      cases resumes with
      | mk there live waits ha runs =>
        obtain ⟨m, ha⟩ := ha
        have before := threads _ (List.mem_of_getElem? there)
        rw [waits] at before
        obtain ⟨next, sorted⟩ := before.answered sorted ha
        obtain ⟨here, sorted⟩ := next.runs runs sorted
        refine ⟨sorted, fun t ht => ?_⟩
        rcases List.mem_or_eq_of_mem_set ht with old | rfl
        · exact threads t old
        · exact here
    | abandon there live waits =>
      refine ⟨?_, fun t ht => ?_⟩
      · rw [Sorted, cache_undone]
        exact sorted
      · rcases List.mem_or_eq_of_mem_set ht with old | rfl
        · exact threads t old
        · have before := threads _ (List.mem_of_getElem? there)
          exact before

end Shelf

end Invariant

/-- What a call finds is in order. -/
theorem Shelf.Sorted.entries {s : Shelf} {es : Entries} (h : s.Sorted)
    (found : s.entries = .ok es) : es.Ascending := by
  unfold Shelf.entries at found
  split at found
  · rename_i cached
    cases found
    exact h _ cached
  · cases file : s.file with
    | error e =>
      rw [file] at found
      cases found
    | ok bytes =>
      rw [file] at found
      exact ascending_ofBytes found

/-! ### Traces -/

/-- What is seen of a call: what it comes to and announces, and what there is to be read of the file
afterwards. -/
structure Seen where
  reply : Except StoreError Command.Reply
  news : List StoreChange
  file : Except StoreError (Option Bytes)

namespace Shelf

variable {s t s' t' : Shelf} {m : Moment} {r : Command} {es fs : Entries}

/-- A call at a moment. -/
def Shows (c : Moment × Command) (s : Shelf) (v : Seen) (s' : Shelf) : Prop :=
  ∃ a, (surroundings c.1).Leads (FileStore.serve c.2) s a s' ∧
    v = ⟨a, s'.changes.pending s.changes.sent, s'.file⟩

/-- No calls can tell the stores apart, whatever the clock shows and whichever cannot write. -/
def Alike (s t : Shelf) : Prop :=
  ∀ calls vs, (∃ s', Serves Shows calls s vs s') ↔ ∃ t', Serves Shows calls t vs t'

theorem shows_iff (free : s.Free) {v : Seen} : Shows (m, r) s v s' ↔
    v = ⟨(s.serve m r).1, s'.changes.pending s.changes.sent, s'.file⟩ ∧ s' = (s.serve m r).2 := by
  simp only [Shows, leads_serve_iff free, Prod.ext_iff]
  constructor
  · rintro ⟨a, ⟨rfl, rfl⟩, rfl⟩
    exact ⟨rfl, rfl⟩
  · rintro ⟨rfl, rfl⟩
    exact ⟨_, ⟨rfl, rfl⟩, rfl⟩

/-- The stores have the same entries, wherever these stand, and the same file. -/
structure Same (s t : Shelf) : Prop where
  free : s.Free
  free' : t.Free
  entries : s.entries = t.entries
  file : s.file = t.file
  changes : s.changes = t.changes

theorem Same.symm (h : Same s t) : Same t s :=
  ⟨h.free', h.free, h.entries.symm, h.file.symm, h.changes.symm⟩

theorem Same.serve (h : Same s t) (m : Moment) (r : Command) :
    (s.serve m r).1 = (t.serve m r).1 ∧ Same (s.serve m r).2 (t.serve m r).2 := by
  have free := free_serve (m := m) h.free r
  have free' := free_serve (m := m) h.free' r
  cases found : t.entries with
  | error e =>
    have here := h.entries.trans found
    rw [serve_unreadable here] at free ⊢
    rw [serve_unreadable found] at free' ⊢
    exact ⟨rfl, free, free', h.entries, h.file, h.changes⟩
  | ok es =>
    have here := h.entries.trans found
    cases replaces : (r.work m.now es).2 with
    | none =>
      rw [serve_kept here replaces] at free ⊢
      rw [serve_kept found replaces] at free' ⊢
      exact ⟨rfl, free, free', rfl, h.file, congrArg (List.foldl Broadcast.send · _) h.changes⟩
    | some fs =>
      cases fault : m.fault with
      | none =>
        rw [serve_written here replaces fault] at free ⊢
        rw [serve_written found replaces fault] at free' ⊢
        exact ⟨rfl, free, free', rfl, rfl, congrArg (List.foldl Broadcast.send · _) h.changes⟩
      | some e =>
        rw [serve_unwritten here replaces fault] at free ⊢
        rw [serve_unwritten found replaces fault] at free' ⊢
        exact ⟨rfl, free, free', rfl, h.file, h.changes⟩

/-- Where the one store shows something, so does the other. -/
theorem Same.serves (h : Same s t) {calls : List (Moment × Command)} {vs : List Seen}
    (serves : Serves Shows calls s vs s') : ∃ t', Serves Shows calls t vs t' := by
  induction serves generalizing t with
  | nil s => exact ⟨t, .nil t⟩
  | @cons s s₁ s₂ c v calls vs here rest ih =>
    obtain ⟨rfl, rfl⟩ := (shows_iff h.free).mp here
    obtain ⟨reply, same⟩ := h.serve c.1 c.2
    obtain ⟨t', going⟩ := ih same
    refine ⟨t', .cons ((shows_iff h.free').mpr ⟨?_, rfl⟩) going⟩
    rw [reply, same.changes, same.file, h.changes]

theorem Same.alike (h : Same s t) : Alike s t := fun _ _ =>
  ⟨fun ⟨_, serves⟩ => h.serves serves, fun ⟨_, serves⟩ => h.symm.serves serves⟩

theorem Alike.live (h : Alike s t) (free : s.Free) (free' : t.Free) (hs : s.entries = .ok es)
    (ht : t.entries = .ok fs) (now : Int) (key : String) : es.live? now key = fs.live? now key := by
  have replies {u u' : Shelf} {gs : Entries} {v : Seen} (free : u.Free) (hu : u.entries = .ok gs)
      (serves : Serves Shows [(⟨now, none⟩, .get key)] u [v] u') :
      v.reply = .ok (.found (gs.live? now key)) := by
    obtain ⟨_, _, u₁, ⟨rfl, rfl⟩, here, -⟩ := Store.serves_cons_iff.mp serves
    obtain ⟨rfl, -⟩ := (shows_iff free).mp here
    obtain ⟨u', served, -⟩ := serve_eq hu now (.get key)
    rw [served, Command.work, look_fst]
  have here := (shows_iff (m := ⟨now, none⟩) (r := .get key) free).mpr ⟨rfl, rfl⟩
  obtain ⟨t', there⟩ := (h _ _).mp ⟨_, .cons here (.nil _)⟩
  have same := (replies free hs (.cons here (.nil _))).symm.trans (replies free' ht there)
  exact Command.Reply.found.inj (Except.ok.inj same)

/-! ### Refused calls -/

/-- A refused call announces nothing and leaves the file as it was, but later calls find the entries
as it was to leave them. -/
theorem serve_refused {e : StoreError} (refused : s.serve m r = (.error e, s')) :
    s'.changes = s.changes ∧ s'.file = s.file ∧ s'.entries = s.entries.map (r.leaves m.now) := by
  cases found : s.entries with
  | error e' =>
    rw [serve_unreadable found] at refused
    cases refused
    exact ⟨rfl, rfl, found⟩
  | ok es =>
    rw [Except.map, Command.leaves]
    cases replaces : (r.work m.now es).2 with
    | none =>
      rw [serve_kept found replaces] at refused
      cases refused
    | some fs =>
      cases fault : m.fault with
      | none =>
        rw [serve_written found replaces fault] at refused
        cases refused
      | some e' =>
        rw [serve_unwritten found replaces fault] at refused
        cases refused
        exact ⟨rfl, rfl, rfl⟩

/-- A call that was refused is found in later calls exactly if it was to alter the entries.
Otherwise no calls can tell that it was made. -/
theorem refused_alike_iff {p : Pool interface Shelf Deed Unit} (reach : Reachable p)
    (free : p.state.Free) {e : StoreError}
    (refused : (surroundings m).Leads (FileStore.serve r) p.state (.error e) s') :
    s'.changes = p.state.changes ∧ s'.file = p.state.file ∧
      s'.entries = p.state.entries.map (r.leaves m.now) ∧
      (Alike p.state s' ↔ ∀ es, p.state.entries = .ok es → r.leaves m.now es = es) := by
  have served := (leads_serve_iff free).mp refused
  obtain ⟨changes, file, entries⟩ := serve_refused served.symm
  have free' : s'.Free := by
    have after := free_serve (m := m) free r
    rwa [← served] at after
  refine ⟨changes, file, entries, fun alike es found => ?_, fun unaltered => ?_⟩
  · rw [found] at entries
    have ascending := reach.sorted.1.entries found
    refine (Command.ascending_leaves ascending).ext ascending fun key =>
      Entries.find?_ext fun now => ?_
    exact (alike.live free free' found entries now key).symm
  · refine (Same.mk free free' ?_ file.symm changes.symm).alike
    rw [entries]
    cases found : p.state.entries with
    | error e => rfl
    | ok es => rw [Except.map, unaltered es found]

theorem leads_full_disk :
    (surroundings ⟨0, some (.io "full")⟩).Leads (FileStore.serve (.set "k" "v" none)) {}
      (.error (.io "full")) (serve ⟨0, some (.io "full")⟩ (.set "k" "v" none) {}).2 :=
  (leads_serve_iff (show Free {} from rfl)).mpr rfl

/-- A text is set on a full disk. -/
theorem refused_alike_iff_full_disk : ∃ s', Reachable ⟨{}, []⟩ ∧ Free {} ∧
    (surroundings ⟨0, some (.io "full")⟩).Leads (FileStore.serve (.set "k" "v" none)) {}
      (.error (.io "full")) s' ∧
    s'.changes = Shelf.changes {} ∧ s'.file = Shelf.file {} ∧
    s'.entries = .ok [("k", { value := "v" })] ∧ ¬ Alike {} s' := by
  obtain ⟨changes, file, entries, alike⟩ :=
    refused_alike_iff (.opened (.ok none)) rfl leads_full_disk
  refine ⟨_, .opened (.ok none), rfl, leads_full_disk, changes, file, entries, fun same => ?_⟩
  have unaltered := alike.mp same [] rfl
  cases unaltered

/-! ### No trace -/

/-- A change that is refused announces nothing, and no later calls can tell that it was tried. -/
def RefusalsAreTraceless : Prop :=
  ∀ p : Pool interface Shelf Deed Unit, Reachable p → p.state.Free → ∀ m r e s',
    (∃ key, r.ask.written? = some key) →
    (surroundings m).Leads (FileStore.serve r) p.state (.error e) s' →
    s'.changes = p.state.changes ∧ Alike p.state s'

/-- A text that could not be stored is found under its key. -/
theorem not_refusalsAreTraceless : ¬ RefusalsAreTraceless := by
  intro traceless
  obtain ⟨-, alike⟩ :=
    traceless ⟨{}, []⟩ (.opened (.ok none)) rfl _ _ _ _ ⟨"k", rfl⟩ leads_full_disk
  have found : Entries.live? [] 0 "k" = Entries.live? [("k", { value := "v" })] 0 "k" :=
    alike.live rfl rfl rfl rfl 0 "k"
  cases found

end Shelf

end FileStore

end ScreenFlow
