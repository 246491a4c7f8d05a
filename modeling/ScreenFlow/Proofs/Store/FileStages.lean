import ScreenFlow.Proofs.Process.Histories
import ScreenFlow.Simulation.Stores

/-!
# The stages of a call of a store in a file

A call waits for its turn, or for the disk. Where it waits is its stage. Each wait ends with one answer,
and up to the next one nobody else goes on.

* `Stage.process`: the rest of a call that stands at a stage;
* `begins_of_runs` and `moves_of_runs`: all that a call can do up to its first stage, and from one to
  the next.
-/

namespace ScreenFlow.FileStore

open Simulation (World Slot StoreState answerFile)

/-! ### Calls and their surroundings -/

/-- A call about one key. What is set does not expire. -/
inductive Access where
  | get (key : String)
  | set (key value : String)
  | delete (key : String)

inductive Call where
  | access (a : Access)
  | reload

inductive Outcome where
  | found (r : Except StoreError (Option String))
  | stored (r : Except StoreError Unit)
  | removed (r : Except StoreError Bool)
  | reloaded (r : Except StoreError Nat)

def perform : Call → Operation Outcome
  | .access (.get key) => do return .found (← get key)
  | .access (.set key value) => do return .stored (← set key value none)
  | .access (.delete key) => do return .removed (← delete key)
  | .reload => do return .reloaded (← reload)

/-- What the store has in memory, and its file. -/
structure State where
  cache : Option Entries := none
  lock : Turnstile := {}
  file : Option Bytes := none

namespace State

def take (s : State) : State := { s with lock := s.lock.take.2 }

def handBack (s : State) (ticket : Nat) : State := { s with lock := s.lock.handBack ticket }

def caching (s : State) (entries : Option Entries) : State := { s with cache := entries }

def writing (s : State) (bytes : Bytes) : State := { s with file := some bytes }

end State

/-- Which answers a question may get. The disk does not fail, and the clock shows what it likes. -/
def Answers (s : State) : (q : Ask) → Answer q → State → Prop
  | .takeTicket, a, s' => a = s.lock.next ∧ s' = s.take
  | .turn ticket, _, s' => s.lock.hasTurn ticket = true ∧ s' = s
  | .handBack ticket, _, s' => s' = s.handBack ticket
  | .cached, a, s' => a = s.cache ∧ s' = s
  | .setCache entries, _, s' => s' = s.caching entries
  | .readFile, a, s' => a = .ok s.file ∧ s' = s
  | .writeFile bytes, a, s' => a = .ok () ∧ s' = s.writing bytes
  | .now, _, s' | .announce _, _, s' => s' = s

/-- Others go on while a call waits for its turn or the disk. -/
def surroundings : Surroundings interface State where
  suspends
    | .turn _ | .readFile | .writeFile _ => true
    | _ => false
  answers := Answers
  undo
    | .takeTicket, ticket => some (·.handBack ticket)
    | _, _ => none

/-- A store in a file, as its calls see it. -/
def stateOf (s : StoreState) (file : Option Bytes) : State := ⟨s.file.cache, s.file.lock, file⟩

/-- What a world answers at once is an answer that the store may get. -/
theorem answers_of_world {w : World} {slot : Slot} (isFile : (w.store slot).isFile = true)
    (file : Option Bytes) {q : Ask} (hq : surroundings.suspends q = false) :
    ∃ a w', (answerFile slot q).run w = (w', .done a) ∧ (w'.store slot).isFile = true ∧
      Answers (stateOf (w.store slot) file) q a (stateOf (w'.store slot) file) := by
  obtain ⟨f, changes, hs⟩ : ∃ f changes, w.store slot = ⟨.file f, changes⟩ := by
    rcases hs : w.store slot with ⟨_ | f, changes⟩
    · simp [hs, StoreState.isFile] at isFile
    · exact ⟨f, changes, rfl⟩
  have set (s : StoreState) : (w.setStore s slot).store slot = s := by cases slot <;> rfl
  cases q with
  | turn | readFile | writeFile => cases hq
  | _ =>
    refine ⟨_, _, rfl, ?_⟩
    simp [World.modifyFile, World.modifyStore, set, hs, StoreState.modifyFile, StoreState.isFile,
      StoreState.file, StoreState.announce, stateOf, Answers, State.take, State.handBack,
      State.caching, Turnstile.take]

/-! ### Stages -/

namespace Access

/-- What becomes of the access among these entries, and what it replaces them by. -/
def work (a : Access) (now : Int) (es : Entries) : Outcome × Option Entries :=
  match a with
  | .get key => (.found (.ok (look now key es).1), (look now key es).2)
  | .set key value => (.stored (.ok ()), some (es.insert key { value }))
  | .delete key => (.removed (.ok (remove now key es).1), (remove now key es).2)

def refusal (a : Access) (e : StoreError) : Outcome :=
  match a with
  | .get _ => .found (.error e)
  | .set .. => .stored (.error e)
  | .delete _ => .removed (.error e)

/-- What is announced in the end. -/
def told : Access → Outcome → List StoreChange
  | .set key value, .stored (.ok ()) => [⟨key, some value⟩]
  | .delete key, .removed (.ok true) => [⟨key, none⟩]
  | _, _ => []

/-- The end of an access. -/
def conclude (a : Access) (o : Outcome) : Operation Outcome :=
  (announceAll (a.told o)).bind fun _ => .done o

/-- The end of a turn. -/
def leave (a : Access) (ticket : Nat) (o : Outcome) : Operation Outcome :=
  .ask (.handBack ticket) fun _ => a.conclude o

/-- Writing the file, and what follows. -/
def write (a : Access) (ticket : Nat) (o : Outcome) (es : Entries) : Operation Outcome :=
  .ask (.writeFile (toBytes es)) fun r =>
    match r with
    | .ok () => a.leave ticket o
    | .error e => a.leave ticket (a.refusal e)

/-- What is done with the entries of a turn. -/
def proceed (a : Access) (now : Int) (ticket : Nat) (es : Entries) : Operation Outcome :=
  match a.work now es with
  | (o, none) => a.leave ticket o
  | (o, some changed) => .ask (.setCache (some changed)) fun _ => a.write ticket o changed

/-- Reading the file, and what follows. -/
def load (a : Access) (now : Int) (ticket : Nat) : Operation Outcome :=
  .ask .readFile fun bytes =>
    match bytes.bind ofBytes with
    | .error e => a.leave ticket (a.refusal e)
    | .ok es => .ask (.setCache (some es)) fun _ => a.proceed now ticket es

/-- A whole turn. -/
def turn (a : Access) (now : Int) (ticket : Nat) : Operation Outcome :=
  .ask (.turn ticket) fun _ => .ask .cached fun found =>
    match found with
    | some es => a.proceed now ticket es
    | none => a.load now ticket

end Access

/-- Taking over what has been read of the file. -/
def takeOver (ticket : Nat) (fresh : Entries) : Operation Outcome :=
  .ask (.turn ticket) fun _ => .ask .cached fun before => .ask .now fun now =>
    (announceAll (differences now (before.getD []) fresh)).bind fun _ =>
      .ask (.setCache (some fresh)) fun _ => .ask (.handBack ticket) fun _ =>
        .done (.reloaded (.ok (differences now (before.getD []) fresh).length))

/-- Where a call waits; in the end, what it has come to and announced. A reload keeps what it has read
of the file. -/
inductive Stage where
  | waiting (a : Access) (now : Int) (ticket : Nat)
  | loading (a : Access) (now : Int) (ticket : Nat)
  | writing (a : Access) (ticket : Nat) (o : Outcome) (es : Entries)
  | finished (o : Outcome) (told : List StoreChange)
  | reading
  | arriving (ticket : Nat) (bytes : Option Bytes) (fresh : Entries)
  | reloaded (r : Except StoreError Nat) (told : List StoreChange) (bytes : Option Bytes)

def Stage.process : Stage → Operation Outcome
  | .waiting a now ticket => a.turn now ticket
  | .loading a now ticket => a.load now ticket
  | .writing a ticket o es => a.write ticket o es
  | .finished o _ => .done o
  | .reading =>
    .ask .readFile fun bytes =>
      match bytes.bind ofBytes with
      | .error e => .done (.reloaded (.error e))
      | .ok fresh => .ask .takeTicket fun ticket => takeOver ticket fresh
  | .arriving ticket _ fresh => takeOver ticket fresh
  | .reloaded r _ _ => .done (.reloaded r)

/-! ### The calls -/

theorem entries_bind {α : Type} (k : Except StoreError Entries → Operation α) :
    entries.bind k = .ask .cached fun found =>
      match found with
      | some es => k (.ok es)
      | none => .ask .readFile fun bytes =>
        match bytes.bind ofBytes with
        | .error e => k (.error e)
        | .ok es => .ask (.setCache (some es)) fun _ => k (.ok es) := by
  simp only [entries, readEntries, Process.bind_def, ask, Process.call, Process.ask_bind,
    Process.done_bind, Process.pure_def]
  congr 1
  funext found
  cases found with
  | some es => rfl
  | none =>
    simp only [Process.ask_bind]
    congr 1
    funext bytes
    cases bytes.bind ofBytes <;> rfl

section Turn

variable {α : Type} {a : Access} {now : Int} {f : Entries → α × Option Entries}
  {k : Except StoreError α → Operation Outcome}

/-- What `withEntries` does with the entries of a turn is what the access does with them. -/
theorem proceed_eq (wrap : α → Outcome) (works : ∀ es, a.work now es = (wrap (f es).1, (f es).2))
    (refused : ∀ e, k (.error e) = a.conclude (a.refusal e))
    (served : ∀ x, k (.ok x) = a.conclude (wrap x)) (ticket : Nat) (es : Entries) :
    ((match f es with
        | (x, none) => .done (.ok x)
        | (x, some changed) => (store changed).bind fun written => .done (written.map fun _ => x) :
          Operation (Except StoreError α)).bind
      fun r => .ask (.handBack ticket) fun _ => k r) = a.proceed now ticket es := by
  rw [Access.proceed, works es]
  rcases f es with ⟨x, _ | changed⟩
  · simp only [Process.done_bind, served, Access.leave]
  · simp only [store, ask, Process.call, Process.bind_def, Process.ask_bind, Process.done_bind]
    congr 1
    funext _
    congr 1
    funext written
    cases written <;> simp only [Except.map, refused, served, Access.leave]

theorem withEntries_bind (wrap : α → Outcome) (works : ∀ es, a.work now es = (wrap (f es).1, (f es).2))
    (refused : ∀ e, k (.error e) = a.conclude (a.refusal e))
    (served : ∀ x, k (.ok x) = a.conclude (wrap x)) :
    (withEntries f).bind k = .ask .takeTicket fun ticket => a.turn now ticket := by
  have proceeds := proceed_eq wrap works refused served
  simp only [withEntries, exclusively, Process.bind_def, Process.bind_assoc, ask, Process.call,
    Process.ask_bind, Process.done_bind, Process.pure_def, entries_bind, Access.turn, Access.load]
  congr 1
  funext ticket
  congr 1
  funext _
  congr 1
  funext found
  cases found with
  | some es => exact proceeds ticket es
  | none =>
    simp only [Process.ask_bind]
    congr 1
    funext bytes
    cases bytes.bind ofBytes with
    | error e => simp only [Process.done_bind, refused, Access.leave]
    | ok es =>
      simp only [Process.ask_bind]
      congr 1
      funext _
      exact proceeds ticket es

end Turn

theorem perform_access (a : Access) :
    perform (.access a) =
      .ask .now fun now => .ask .takeTicket fun ticket => (Stage.waiting a now ticket).process := by
  cases a with
  | get key =>
    simp only [perform, get, Process.bind_def, ask, Process.call, Process.ask_bind,
      Process.done_bind]
    congr 1
    funext now
    exact withEntries_bind (fun x => .found (.ok x)) (fun es => rfl) (fun e => rfl) fun x => rfl
  | set key value =>
    simp only [perform, set, Process.bind_def, Process.bind_assoc, ask, Process.call,
      Process.ask_bind, Process.done_bind]
    congr 1
    funext now
    exact withEntries_bind (fun x => .stored (.ok x)) (fun es => rfl) (fun e => rfl) fun x => rfl
  | delete key =>
    simp only [perform, delete, Process.bind_def, Process.bind_assoc, ask, Process.call,
      Process.ask_bind, Process.done_bind, Process.pure_def]
    congr 1
    funext now
    refine withEntries_bind (fun x => .removed (.ok x)) (fun es => rfl) (fun e => rfl) fun x => ?_
    cases x <;> rfl

theorem perform_reload : perform .reload = Stage.reading.process := by
  simp only [perform, reload, readEntries, exclusively, Process.bind_def, Process.bind_assoc, ask,
    Process.call, Process.ask_bind, Process.done_bind, Process.pure_def, Stage.process]
  congr 1
  funext bytes
  cases bytes.bind ofBytes with
  | error e => rfl
  | ok fresh => simp [Process.bind_assoc, takeOver]

/-! ### Moves -/

/-- What a call has announced. -/
def announced (past : List (Happening interface)) : List StoreChange :=
  past.filterMap fun h =>
    match h.question with
    | .announce c => some c
    | _ => none

/-- What a call has read of the file. -/
def readings (past : List (Happening interface)) : List (Option Bytes) :=
  past.filterMap fun h =>
    match h.question, h.answer with
    | .readFile, .ok bytes => some bytes
    | _, _ => none

def Stage.told : Stage → List StoreChange
  | .finished _ told | .reloaded _ told _ => told
  | _ => []

/-- What a reload has read of the file so far. -/
def Stage.read : Stage → Option (List (Option Bytes))
  | .reading => some []
  | .arriving _ bytes _ | .reloaded _ _ bytes => some [bytes]
  | _ => none

/-- The call stands at this stage. -/
structure Stage.Stands (stage : Stage) (r : Operation Outcome) (past : List (Happening interface)) :
    Prop where
  process : r = stage.process
  told : announced past = stage.told
  read : ∀ bytes ∈ stage.read, readings past = bytes

theorem Stage.Stands.of_access {stage : Stage} {past : List (Happening interface)}
    (told : announced past = stage.told) (unread : stage.read = none) :
    stage.Stands stage.process past :=
  ⟨rfl, told, fun bytes read => by rw [unread] at read; cases read⟩

/-- What an access does with the entries of its turn. -/
def Access.works (a : Access) (now : Int) (ticket : Nat) (es : Entries) (s : State) : State × Stage :=
  match a.work now es with
  | (o, none) => (s.handBack ticket, .finished o (a.told o))
  | (o, some changed) => (s.caching (some changed), .writing a ticket o changed)

/-- All that a call can do from one stage to the next. -/
inductive Moves (s : State) : Stage → State → Stage → Prop
  | found {a now ticket es} (turn : s.lock.hasTurn ticket = true) (cached : s.cache = some es) :
      Moves s (.waiting a now ticket) (a.works now ticket es s).1 (a.works now ticket es s).2
  | enter {a now ticket} (turn : s.lock.hasTurn ticket = true) (empty : s.cache = none) :
      Moves s (.waiting a now ticket) s (.loading a now ticket)
  | loaded {a now ticket es} (read : ofBytes s.file = .ok es) :
      Moves s (.loading a now ticket) (a.works now ticket es (s.caching (some es))).1
        (a.works now ticket es (s.caching (some es))).2
  | unreadable {a now ticket e} (read : ofBytes s.file = .error e) :
      Moves s (.loading a now ticket) (s.handBack ticket) (.finished (a.refusal e) [])
  | written {a ticket o es} :
      Moves s (.writing a ticket o es) ((s.writing (toBytes es)).handBack ticket)
        (.finished o (a.told o))
  | arrive {fresh} (read : ofBytes s.file = .ok fresh) :
      Moves s .reading s.take (.arriving s.lock.next s.file fresh)
  | unread {e} (read : ofBytes s.file = .error e) :
      Moves s .reading s (.reloaded (.error e) [] s.file)
  | takeOver {ticket bytes fresh} (turn : s.lock.hasTurn ticket = true) (now : Int) :
      Moves s (.arriving ticket bytes fresh) ((s.caching (some fresh)).handBack ticket)
        (.reloaded (.ok (differences now (s.cache.getD []) fresh).length)
          (differences now (s.cache.getD []) fresh) bytes)

/-- All that a call can do up to its first stage. -/
inductive Begins (s : State) : Call → State → Stage → Prop
  | access (a : Access) (now : Int) : Begins s (.access a) s.take (.waiting a now s.lock.next)
  | reload : Begins s .reload s .reading

section Runs

variable {s s' : State} {past past' : List (Happening interface)} {r : Operation Outcome}
  {a : Access} {o : Outcome} {ticket : Nat} {now : Int} {es : Entries} {cs : List StoreChange}

@[simp] theorem runs_takeTicket {next : Nat → Operation Outcome} :
    surroundings.Runs s (.ask .takeTicket next) past s' r past' ↔
      surroundings.Runs s.take (next s.lock.next) (past ++ [⟨.takeTicket, s.lock.next⟩]) s' r past' :=
  Surroundings.runs_determined (S := surroundings) (q := Ask.takeTicket) rfl fun _ _ => .rfl

@[simp] theorem runs_cached {next : Option Entries → Operation Outcome} :
    surroundings.Runs s (.ask .cached next) past s' r past' ↔
      surroundings.Runs s (next s.cache) (past ++ [⟨.cached, s.cache⟩]) s' r past' :=
  Surroundings.runs_determined (S := surroundings) (q := Ask.cached) rfl fun _ _ => .rfl

@[simp] theorem runs_handBack {next : Unit → Operation Outcome} :
    surroundings.Runs s (.ask (.handBack ticket) next) past s' r past' ↔
      surroundings.Runs (s.handBack ticket) (next ()) (past ++ [⟨.handBack ticket, ()⟩]) s' r past' :=
  Surroundings.runs_determined (S := surroundings) (q := Ask.handBack ticket) rfl (a := ())
    fun _ _ => by simp [surroundings, Answers]

@[simp] theorem runs_setCache {entries : Option Entries} {next : Unit → Operation Outcome} :
    surroundings.Runs s (.ask (.setCache entries) next) past s' r past' ↔
      surroundings.Runs (s.caching entries) (next ()) (past ++ [⟨.setCache entries, ()⟩]) s' r past' :=
  Surroundings.runs_determined (S := surroundings) (q := Ask.setCache entries) rfl (a := ())
    fun _ _ => by simp [surroundings, Answers]

@[simp] theorem runs_announce {c : StoreChange} {next : Unit → Operation Outcome} :
    surroundings.Runs s (.ask (.announce c) next) past s' r past' ↔
      surroundings.Runs s (next ()) (past ++ [⟨.announce c, ()⟩]) s' r past' :=
  Surroundings.runs_determined (S := surroundings) (q := Ask.announce c) rfl (a := ())
    fun _ _ => by simp [surroundings, Answers]

@[simp] theorem runs_now {next : Int → Operation Outcome} :
    surroundings.Runs s (.ask .now next) past s' r past' ↔
      ∃ now : Int, surroundings.Runs s (next now) (past ++ [⟨.now, now⟩]) s' r past' :=
  Surroundings.runs_unaltered (S := surroundings) (q := Ask.now) rfl fun _ _ => .rfl

/-- Announcing leaves everything else as it is. -/
@[simp] theorem runs_announceAll {k : Unit → Operation Outcome} :
    surroundings.Runs s ((announceAll cs).bind k) past s' r past' ↔
      surroundings.Runs s (k ()) (past ++ cs.map fun c => ⟨.announce c, ()⟩) s' r past' := by
  induction cs generalizing past with
  | nil => simp [announceAll, Process.pure_def]
  | cons c cs ih =>
    have first : (announceAll (c :: cs)).bind k = .ask (.announce c) fun _ => (announceAll cs).bind k := rfl
    rw [first, runs_announce, ih, List.map_cons, List.append_assoc, List.singleton_append]

@[simp] theorem announced_append (past new : List (Happening interface)) :
    announced (past ++ new) = announced past ++ announced new := List.filterMap_append

@[simp] theorem readings_append (past new : List (Happening interface)) :
    readings (past ++ new) = readings past ++ readings new := List.filterMap_append

@[simp] theorem announced_cons (h : Happening interface) (past : List (Happening interface)) :
    announced (h :: past) = match h.question with
      | .announce c => c :: announced past
      | _ => announced past := by
  rcases h with ⟨q, x⟩
  cases q <;> rfl

@[simp] theorem readings_cons (h : Happening interface) (past : List (Happening interface)) :
    readings (h :: past) = match h.question, h.answer with
      | .readFile, .ok bytes => bytes :: readings past
      | _, _ => readings past := by
  rcases h with ⟨q, x⟩
  cases q with
  | readFile => cases x <;> rfl
  | _ => rfl

@[simp] theorem announced_nil : announced [] = [] := rfl

@[simp] theorem readings_nil : readings [] = [] := rfl

@[simp] theorem announced_announces :
    announced (cs.map fun c => ⟨.announce c, ()⟩) = cs := by
  simp [announced, List.filterMap_map]

@[simp] theorem readings_announces :
    readings (cs.map fun c => ⟨.announce c, ()⟩) = [] := by
  simp [readings, List.filterMap_map]

@[simp] theorem Access.told_refusal (a : Access) (e : StoreError) : a.told (a.refusal e) = [] := by
  cases a <;> rfl

/-- At the end of a turn an access is done. -/
theorem leave_runs (silent : announced past = [])
    (runs : surroundings.Runs s (a.leave ticket o) past s' r past') :
    s' = s.handBack ticket ∧ (Stage.finished o (a.told o)).Stands r past' := by
  simp only [Access.leave, Access.conclude, runs_handBack, runs_announceAll,
    Surroundings.runs_done_iff] at runs
  obtain ⟨rfl, rfl, rfl⟩ := runs
  exact ⟨rfl, .of_access (by simp [silent, Stage.told]) rfl⟩

theorem proceed_runs (silent : announced past = [])
    (runs : surroundings.Runs s (a.proceed now ticket es) past s' r past') :
    s' = (a.works now ticket es s).1 ∧ (a.works now ticket es s).2.Stands r past' := by
  rw [Access.proceed] at runs
  rw [Access.works]
  rcases hw : a.work now es with ⟨o, _ | changed⟩
  · rw [hw] at runs
    exact leave_runs silent runs
  · rw [hw] at runs
    simp only [runs_setCache, Access.write] at runs
    obtain ⟨rfl, rfl, rfl⟩ := (Surroundings.runs_suspended_iff rfl).mp runs
    exact ⟨rfl, .of_access (by simp [silent, Stage.told]) rfl⟩

/-- What a call does after an answer is one of its moves. -/
theorem moves_of_runs {stage : Stage} {q : Ask} {next : Answer q → Operation Outcome} {x : Answer q}
    {s₁ : State} (stands : stage.Stands (.ask q next) past) (hx : Answers s q x s₁)
    (runs : surroundings.Runs s₁ (next x) (past ++ [⟨q, x⟩]) s' r past') :
    ∃ stage', Moves s stage s' stage' ∧ stage'.Stands r past' := by
  have told : stage.told = [] → announced past = [] := fun h => stands.told.trans h
  have read := stands.read
  cases stage with
  | waiting a now ticket =>
    obtain ⟨rfl, hnext⟩ := Process.ask.inj stands.process
    cases hnext
    obtain ⟨turn, rfl⟩ := hx
    rw [runs_cached] at runs
    cases cached : s₁.cache with
    | some es =>
      simp only [cached] at runs
      obtain ⟨rfl, stands'⟩ := proceed_runs (by simp [told rfl]) runs
      exact ⟨_, .found turn cached, stands'⟩
    | none =>
      simp only [cached, Access.load] at runs
      obtain ⟨rfl, rfl, rfl⟩ := (Surroundings.runs_suspended_iff rfl).mp runs
      exact ⟨_, .enter turn cached, .of_access (by simp [told rfl, Stage.told]) rfl⟩
  | loading a now ticket =>
    obtain ⟨rfl, hnext⟩ := Process.ask.inj stands.process
    cases hnext
    obtain ⟨rfl, rfl⟩ := hx
    have bound : (Except.ok s₁.file : Except StoreError (Option Bytes)).bind ofBytes =
      ofBytes s₁.file := rfl
    simp only [bound] at runs
    cases hb : ofBytes s₁.file with
    | error e =>
      simp only [hb] at runs
      obtain ⟨rfl, stands'⟩ := leave_runs (by simp [told rfl]) runs
      rw [Access.told_refusal] at stands'
      exact ⟨_, .unreadable hb, stands'⟩
    | ok es =>
      simp only [hb, runs_setCache] at runs
      obtain ⟨rfl, stands'⟩ := proceed_runs (by simp [told rfl]) runs
      exact ⟨_, .loaded hb, stands'⟩
  | writing a ticket o es =>
    obtain ⟨rfl, hnext⟩ := Process.ask.inj stands.process
    cases hnext
    obtain ⟨rfl, rfl⟩ := hx
    obtain ⟨rfl, stands'⟩ := leave_runs (by simp [told rfl]) runs
    exact ⟨_, .written, stands'⟩
  | finished | reloaded => cases stands.process
  | reading =>
    obtain ⟨rfl, hnext⟩ := Process.ask.inj stands.process
    cases hnext
    obtain ⟨rfl, rfl⟩ := hx
    have bound : (Except.ok s₁.file : Except StoreError (Option Bytes)).bind ofBytes =
      ofBytes s₁.file := rfl
    have unread : readings past = [] := read _ rfl
    simp only [bound] at runs
    cases hb : ofBytes s₁.file with
    | error e =>
      simp only [hb, Surroundings.runs_done_iff] at runs
      obtain ⟨rfl, rfl, rfl⟩ := runs
      exact ⟨_, .unread hb, rfl, by simp [told rfl, Stage.told], by simp [Stage.read, unread]⟩
    | ok fresh =>
      simp only [hb, runs_takeTicket, FileStore.takeOver] at runs
      obtain ⟨rfl, rfl, rfl⟩ := (Surroundings.runs_suspended_iff rfl).mp runs
      exact ⟨_, .arrive hb, rfl, by simp [told rfl, Stage.told], by simp [Stage.read, unread]⟩
  | arriving ticket bytes fresh =>
    obtain ⟨rfl, hnext⟩ := Process.ask.inj stands.process
    cases hnext
    obtain ⟨turn, rfl⟩ := hx
    have was : readings past = [bytes] := read _ rfl
    simp only [runs_cached, runs_now, runs_announceAll, runs_setCache, runs_handBack,
      Surroundings.runs_done_iff] at runs
    obtain ⟨now, rfl, rfl, rfl⟩ := runs
    exact ⟨_, .takeOver turn now, rfl, by simp [told rfl, Stage.told], by simp [Stage.read, was]⟩

theorem begins_of_runs {c : Call} (runs : surroundings.Runs s (perform c) [] s' r past') :
    ∃ stage, Begins s c s' stage ∧ stage.Stands r past' := by
  cases c with
  | access a =>
    rw [perform_access] at runs
    simp only [runs_now, runs_takeTicket, Stage.process, Access.turn] at runs
    obtain ⟨now, runs⟩ := runs
    obtain ⟨rfl, rfl, rfl⟩ := (Surroundings.runs_suspended_iff rfl).mp runs
    exact ⟨_, .access a now, .of_access (by simp [Stage.told]) rfl⟩
  | reload =>
    rw [perform_reload, Stage.process] at runs
    obtain ⟨rfl, rfl, rfl⟩ := (Surroundings.runs_suspended_iff rfl).mp runs
    exact ⟨_, .reload, rfl, rfl, by simp [Stage.read, readings]⟩

end Runs

end ScreenFlow.FileStore
