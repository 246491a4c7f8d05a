import Mathlib.Data.List.Induction
import ScreenFlow.Proofs.Process.Shared
import ScreenFlow.Proofs.Store.FileForm
import ScreenFlow.Proofs.Store.FileStages

/-!
# Reloading a file that nobody else writes

Calls of one store are under way side by side, and some of them reload the file. A reload reads the
file before it has its turn, so a call may come in between.

* `Run`: calls in any order of their answers, with those that have returned so far;
* `Kept`: every call has come to what the calls before it make of the store, and no reload has told
  anything;
* `Keeps.moved`: one move keeps the file, the cache and what has been set the same;
* `kept_iff`: that is so exactly if every reload has taken over what the file holds then;
* `not_reloadsKeep`: where a key is set in between, the reload takes it back.
-/

namespace ScreenFlow.FileStore

/-! ### Runs -/

abbrev Calls := Pool interface State Call Outcome

/-- A call that has returned: what it came to, all that it was told, and the state at its end. -/
structure Done where
  call : Call
  outcome : Outcome
  past : List (Happening interface)
  state : State

def returned (c : Call) (r : Operation Outcome) (past : List (Happening interface)) (s : State) :
    List Done :=
  match r with
  | .done o => [⟨c, o, past, s⟩]
  | .ask .. => []

/-- Calls side by side, and those that have returned, in the order in which they did. -/
inductive Run (s₀ : State) : List Done → Calls → Prop
  | start : Run s₀ [] ⟨s₀, []⟩
  | begin {log p c s r past} (run : Run s₀ log p)
      (runs : surroundings.Runs p.state (perform c) [] s r past) :
      Run s₀ (log ++ returned c r past s) ⟨s, p.threads ++ [⟨c, r, past, false⟩]⟩
  | resume {log p i t q x next s₁ s r past} (run : Run s₀ log p) (here : p.threads[i]? = some t)
      (waits : t.process = .ask q next) (hx : Answers p.state q x s₁)
      (runs : surroundings.Runs s₁ (next x) (t.past ++ [⟨q, x⟩]) s r past) :
      Run s₀ (log ++ returned t.call r past s)
        ⟨s, p.threads.set i { t with process := r, past }⟩

/-- The value of a key after a call. -/
def Call.value (key : String) (before : Option String) : Call → Option String
  | .access (.set k value) => if key = k then some value else before
  | .access (.delete k) => if key = k then none else before
  | _ => before

/-- What the last of these calls that has set or deleted a key has left of it. -/
def lastValue (log : List Done) (key : String) : Option String :=
  log.foldl (fun v d => d.call.value key v) none

/-- What a call comes to that returns after these. -/
def Call.expected (log : List Done) : Call → Outcome
  | .access (.get key) => .found (.ok (lastValue log key))
  | .access (.set ..) => .stored (.ok ())
  | .access (.delete key) => .removed (.ok (lastValue log key).isSome)
  | .reload => .reloaded (.ok 0)

def AtRest (p : Calls) : Prop := ∀ t ∈ p.threads, ∃ o, t.process = .done o

/-- Every call has come to what it should, and no reload has told anything. Once nothing is under way,
the file holds what is in the cache, and whatever is called next comes to what it should. -/
structure Kept (log : List Done) (p : Calls) : Prop where
  answers : ∀ before d after, log = before ++ d :: after → d.outcome = d.call.expected before
  silent : ∀ d ∈ log, d.call = .reload → announced d.past = []
  agrees : AtRest p → ofBytes p.state.file = .ok (p.state.cache.getD [])
  returns : AtRest p → ∀ c, ∃ s', surroundings.Leads (perform c) p.state (c.expected log) s'

/-- A reload has taken over what the file holds at its end. -/
def Done.Fresh (d : Done) : Prop :=
  d.call = .reload → ∀ bytes ∈ readings d.past, ofBytes bytes = ofBytes d.state.file

/-- A store on a path where there is no file yet. -/
structure State.New (s : State) : Prop where
  empty : s.cache = none
  free : s.lock.waiting = []
  missing : s.file = none

/-! ### What has been set -/

/-- What a call makes of the entries. -/
def Call.apply (es : Entries) : Call → Entries
  | .access (.set key value) => es.insert key { value }
  | .access (.delete key) => es.erase key
  | _ => es

/-- The entries that these calls have left. -/
def contents (log : List Done) : Entries := log.foldl (fun es d => d.call.apply es) []

section Contents

variable {log : List Done} {es : Entries} {c : Call} {key : String} {now : Int} {a : Access}

theorem find?_contents (log : List Done) (key : String) :
    (contents log).find? key = (lastValue log key).map fun value => { value } := by
  induction log using List.reverseRecOn with
  | nil => rfl
  | append_singleton log d ih =>
    have last : contents (log ++ [d]) = d.call.apply (contents log) := by simp [contents]
    have value : lastValue (log ++ [d]) key = d.call.value key (lastValue log key) := by
      simp [lastValue]
    rw [last, value]
    rcases d.call with (k | ⟨k, v⟩ | k) | _
    · exact ih
    · rw [Call.apply, Call.value, Entries.find?_insert, ih]
      split <;> rfl
    · rw [Call.apply, Call.value, Entries.find?_erase, ih]
      split <;> rfl
    · exact ih

theorem ascending_apply (h : es.Ascending) : (c.apply es).Ascending := by
  rcases c with (k | ⟨k, v⟩ | k) | _
  · exact h
  · exact Entries.ascending_insert h
  · exact Entries.ascending_erase h
  · exact h

theorem lasting_apply (h : es.Lasting) : (c.apply es).Lasting := by
  rcases c with (k | ⟨k, v⟩ | k) | _
  · exact h
  · exact h.insert k v
  · exact h.erase k
  · exact h

theorem erase_of_absent (absent : es.find? key = none) : es.erase key = es := by
  have none := Entries.find?_eq_none_iff.mp absent
  exact List.filter_eq_self.mpr fun e he => by simpa using none e he

/-- Among entries that do not expire, an access comes to what it should. -/
theorem work_spec (now : Int) (log : List Done) (a : Access) :
    (a.work now (contents log)).1 = (Call.access a).expected log ∧
      (a.work now (contents log)).2.getD (contents log) = (Call.access a).apply (contents log) := by
  have found := find?_contents log
  cases a with
  | get key =>
    cases value : lastValue log key <;>
      simp [Access.work, look, found, value, Call.expected, Call.apply, Entry.isExpired]
  | set key text => exact ⟨rfl, rfl⟩
  | delete key =>
    cases value : lastValue log key with
    | none =>
      have absent : (contents log).find? key = none := by simp [found, value]
      simp [Access.work, remove, absent, value, Call.expected, Call.apply, erase_of_absent absent]
    | some text =>
      simp [Access.work, remove, found, value, Call.expected, Call.apply, Entry.isExpired]

end Contents

/-! ### Stages of calls side by side -/

namespace Stage

def tickets : Stage → List Nat
  | .waiting _ _ ticket | .loading _ _ ticket | .writing _ ticket _ _ | .arriving ticket _ _ => [ticket]
  | .finished .. | .reading | .reloaded .. => []

/-- Whether the call has its turn at this stage. -/
def isInside : Stage → Bool
  | .loading .. | .writing .. => true
  | _ => false

/-- Which call stands at the stage. -/
def Of (c : Call) : Stage → Prop
  | .waiting a _ _ | .loading a _ _ | .writing a _ _ _ => c = .access a
  | .finished .. => ∃ a, c = .access a
  | .reading | .arriving .. | .reloaded .. => c = .reload

/-- What a call relies on where it stands. -/
def Fits (es : Entries) (s : State) : Stage → Prop
  | .loading _ _ ticket => s.lock.hasTurn ticket = true ∧ s.cache = none
  | .writing a ticket o changed =>
    s.lock.hasTurn ticket = true ∧ s.cache = some changed ∧ ∃ now, a.work now es = (o, some changed)
  | .arriving _ bytes fresh => ofBytes bytes = .ok fresh ∧ fresh.Ascending ∧ fresh.Lasting
  | _ => True

end Stage

structure Describes (stage : Stage) (t : Thread interface Call Outcome) : Prop where
  of : stage.Of t.call
  stands : stage.Stands t.process t.past

/-- The file holds these entries, and so does the cache unless somebody is inside. -/
structure Keeps (es : Entries) (s : State) (stages : List Stage) : Prop where
  ascending : es.Ascending
  lasting : es.Lasting
  file : ofBytes s.file = .ok es
  cached : (∀ stage ∈ stages, stage.isInside = false) → s.cache.getD [] = es
  serves : s.lock.Serves (stages.flatMap Stage.tickets) []
  held : s.lock.waiting ⊆ stages.flatMap Stage.tickets
  fits : ∀ stage ∈ stages, stage.Fits es s

section Stages

variable {es es' : Entries} {s s' : State} {stage stage' : Stage} {stages rest : List Stage}
  {c : Call} {a : Access} {ticket : Nat} {now : Int} {log : List Done}

theorem Begins.of (h : Begins s c s' stage) : stage.Of c := by
  cases h <;> rfl

theorem Access.works_of (h : c = .access a) : (a.works now ticket es s).2.Of c := by
  rw [Access.works]
  split
  · exact ⟨a, h⟩
  · exact h

theorem Moves.of (h : Moves s stage s' stage') (hof : stage.Of c) : stage'.Of c := by
  cases h with
  | found | loaded => exact Access.works_of hof
  | enter => exact hof
  | unreadable | written => exact ⟨_, hof⟩
  | arrive | unread | takeOver => exact hof

theorem Keeps.perm {stages' : List Stage} (h : Keeps es s stages) (same : stages.Perm stages') :
    Keeps es s stages' where
  ascending := h.ascending
  lasting := h.lasting
  file := h.file
  cached outside := h.cached fun stage hs => outside stage (same.mem_iff.mp hs)
  serves := h.serves.perm (same.flatMap_right _) .nil
  held _ hn := (same.flatMap_right _).mem_iff.mp (h.held hn)
  fits stage hs := h.fits stage (same.mem_iff.mpr hs)

/-- Whoever is not inside relies on nothing that may change. -/
theorem Stage.Fits.outside (h : stage.Fits es s) (outside : stage.isInside = false) :
    stage.Fits es' s' := by
  cases stage with
  | loading | writing => cases outside
  | waiting | finished | reading | arriving | reloaded => exact h

theorem Stage.Fits.inside (h : stage.Fits es s) (inside : stage.isInside = true) :
    ∃ n ∈ stage.tickets, s.lock.hasTurn n = true := by
  cases stage with
  | loading | writing => exact ⟨_, List.mem_singleton_self _, h.1⟩
  | waiting | finished | reading | arriving | reloaded => cases inside

/-- While one call has the turn, no other is inside. -/
theorem Keeps.alone (h : Keeps es s (stage :: rest)) (turn : s.lock.hasTurn ticket = true)
    (mine : ticket ∈ stage.tickets) : ∀ other ∈ rest, other.isInside = false := by
  intro other hother
  by_contra inside
  obtain ⟨n, hn, turn'⟩ :=
    (h.fits other (List.mem_cons_of_mem _ hother)).inside (by simpa using inside)
  obtain rfl := Turnstile.hasTurn_unique turn turn'
  have apart := (List.nodup_append.mp h.serves.held_nodup).2.2
  exact apart ticket mine ticket (List.mem_flatMap.mpr ⟨other, hother, hn⟩) rfl

/-- The call whose turn it is goes on inside. -/
theorem Keeps.goes (h : Keeps es s (stage :: rest)) (mine : stage.tickets = [ticket])
    (turn : s.lock.hasTurn ticket = true) (lock : s'.lock = s.lock) (file : s'.file = s.file)
    (inside : stage'.isInside = true) (same : stage'.tickets = [ticket])
    (fits : stage'.Fits es s') : Keeps es s' (stage' :: rest) where
  ascending := h.ascending
  lasting := h.lasting
  file := file ▸ h.file
  cached outside := by
    rw [outside stage' List.mem_cons_self] at inside
    cases inside
  serves := by
    have serves := h.serves
    rw [List.flatMap_cons, mine] at serves
    rwa [List.flatMap_cons, same, lock]
  held := by
    have held := h.held
    rw [List.flatMap_cons, mine] at held
    rwa [List.flatMap_cons, same, lock]
  fits := by
    have alone := h.alone turn (by simp [mine])
    refine List.forall_mem_cons.mpr ⟨fits, fun other hother => ?_⟩
    exact (h.fits other (List.mem_cons_of_mem _ hother)).outside (alone other hother)

/-- The call whose turn it is leaves. -/
theorem Keeps.leaves (h : Keeps es s (stage :: rest)) (mine : stage.tickets = [ticket])
    (turn : s.lock.hasTurn ticket = true) (lock : s'.lock = s.lock.handBack ticket)
    (ascending : es'.Ascending) (lasting : es'.Lasting) (file : ofBytes s'.file = .ok es')
    (cached : s'.cache.getD [] = es') (gone : stage'.tickets = []) (fits : stage'.Fits es' s') :
    Keeps es' s' (stage' :: rest) where
  ascending := ascending
  lasting := lasting
  file := file
  cached _ := cached
  serves := by
    have serves := h.serves
    rw [List.flatMap_cons, mine] at serves
    rw [List.flatMap_cons, gone, lock]
    exact serves.handBack.forget
  held := by
    have held := h.held
    rw [List.flatMap_cons, mine] at held
    rw [List.flatMap_cons, gone, lock]
    intro n hn
    have apart : n ≠ ticket := fun same => h.serves.nodup.not_mem_erase (same ▸ hn)
    exact (List.mem_cons.mp (held (List.mem_of_mem_erase hn))).resolve_left apart
  fits := by
    have alone := h.alone turn (by simp [mine])
    refine List.forall_mem_cons.mpr ⟨fits, fun other hother => ?_⟩
    exact (h.fits other (List.mem_cons_of_mem _ hother)).outside (alone other hother)

/-- Somebody takes a ticket. -/
theorem Keeps.takes (h : Keeps es s stages) (mine : stage'.tickets = [s.lock.next])
    (fits : stage'.Fits es s.take) :
    Keeps es s.take (stage' :: stages) where
  ascending := h.ascending
  lasting := h.lasting
  file := h.file
  cached all := h.cached fun stage hs => all stage (List.mem_cons_of_mem _ hs)
  serves := by
    rw [List.flatMap_cons, mine]
    exact h.serves.take
  held := by
    rw [List.flatMap_cons, mine]
    intro n hn
    rcases List.mem_append.mp hn with old | new
    · exact List.mem_cons_of_mem _ (h.held old)
    · rw [List.mem_singleton.mp new]
      exact List.mem_cons_self
  fits := by
    refine List.forall_mem_cons.mpr ⟨fits, fun other hother => ?_⟩
    have before := h.fits other hother
    cases other with
    | loading | writing => exact ⟨Turnstile.hasTurn_take before.1, before.2⟩
    | waiting | finished | reading | arriving | reloaded => exact before

/-- Somebody who reads the file for a reload is in nobody's way. -/
theorem keeps_reading_iff : Keeps es s (.reading :: rest) ↔ Keeps es s rest := by
  constructor
  · intro h
    exact ⟨h.ascending, h.lasting, h.file, fun all => h.cached (List.forall_mem_cons.mpr ⟨rfl, all⟩),
      h.serves, h.held, (List.forall_mem_cons.mp h.fits).2⟩
  · intro h
    exact ⟨h.ascending, h.lasting, h.file, fun all => h.cached (List.forall_mem_cons.mp all).2,
      h.serves, h.held, List.forall_mem_cons.mpr ⟨trivial, h.fits⟩⟩

theorem Keeps.begun (h : Keeps es s stages) (begins : Begins s c s' stage) :
    Keeps es s' (stage :: stages) := by
  cases begins with
  | access a now => exact h.takes rfl trivial
  | reload => exact keeps_reading_iff.mpr h

/-- What a move leads to, when these calls have returned before. -/
def Follows (log : List Done) (c : Call) (rest : List Stage) (s' : State) (stage' : Stage) : Prop :=
  match stage' with
  | .finished o _ =>
    o = c.expected log ∧ Keeps (c.apply (contents log)) s' (stage' :: rest)
  | .reloaded r told bytes =>
    (told = [] ↔ ofBytes bytes = ofBytes s'.file) ∧
      (told = [] → r = .ok 0 ∧ Keeps (contents log) s' (stage' :: rest))
  | _ => Keeps (contents log) s' (stage' :: rest)

/-- The call whose turn it is has the entries before it. -/
theorem Keeps.works {s₁ : State} (h : Keeps (contents log) s (stage :: rest))
    (mine : stage.tickets = [ticket]) (turn : s.lock.hasTurn ticket = true) (lock : s₁.lock = s.lock)
    (file : s₁.file = s.file) (cached : s₁.cache = some (contents log)) :
    Follows log (.access a) rest (a.works now ticket (contents log) s₁).1
      (a.works now ticket (contents log) s₁).2 := by
  obtain ⟨expected, applied⟩ := work_spec now log a
  rcases hw : a.work now (contents log) with ⟨o, _ | changed⟩
  · rw [hw] at expected applied
    have unchanged : (Call.access a).apply (contents log) = contents log := applied.symm
    simp only [Access.works, hw]
    refine ⟨expected, h.leaves mine turn (congrArg (·.handBack ticket) lock) ?_ ?_ ?_ ?_ rfl trivial⟩
    · exact ascending_apply h.ascending
    · exact lasting_apply h.lasting
    · rw [unchanged]
      exact (congrArg ofBytes file).trans h.file
    · rw [unchanged]
      exact congrArg (·.getD []) cached
  · simp only [Access.works, hw]
    exact h.goes mine turn lock file rfl rfl ⟨(congrArg (·.hasTurn ticket) lock).trans turn, rfl, now, hw⟩

theorem Keeps.moved (h : Keeps (contents log) s (stage :: rest)) (moves : Moves s stage s' stage')
    (of : stage.Of c) : Follows log c rest s' stage' := by
  cases moves with
  | @found a now ticket es turn cached =>
    obtain rfl : c = .access a := of
    have others := h.alone turn (List.mem_singleton_self _)
    have same := h.cached (List.forall_mem_cons.mpr ⟨rfl, others⟩)
    rw [cached, Option.getD_some] at same
    subst same
    exact h.works rfl turn rfl rfl cached
  | @enter a now ticket turn empty => exact h.goes rfl turn rfl rfl rfl rfl ⟨turn, empty⟩
  | @loaded a now ticket es read =>
    obtain rfl : c = .access a := of
    obtain rfl : contents log = es := Except.ok.inj (h.file.symm.trans read)
    exact h.works rfl (h.fits _ List.mem_cons_self).1 rfl rfl rfl
  | unreadable read | unread read => cases h.file.symm.trans read
  | @written a ticket o changed =>
    obtain rfl : c = .access a := of
    obtain ⟨turn, cached, now, hw⟩ := h.fits _ List.mem_cons_self
    obtain ⟨expected, applied⟩ := work_spec now log a
    rw [hw] at expected applied
    obtain rfl : changed = (Call.access a).apply (contents log) := applied
    have ascending := ascending_apply (c := .access a) h.ascending
    have lasting := lasting_apply (c := .access a) h.lasting
    exact ⟨expected, h.leaves rfl turn rfl ascending lasting
      (ofBytes_toBytes ascending lasting.fits) (congrArg (·.getD []) cached) rfl trivial⟩
  | @arrive fresh read =>
    obtain rfl : contents log = fresh := Except.ok.inj (h.file.symm.trans read)
    exact (keeps_reading_iff.mp h).takes rfl ⟨read, h.ascending, h.lasting⟩
  | @takeOver ticket bytes fresh turn now =>
    obtain ⟨read, ascending, lasting⟩ := h.fits _ List.mem_cons_self
    have others := h.alone turn (List.mem_singleton_self _)
    have cached := h.cached (List.forall_mem_cons.mpr ⟨rfl, others⟩)
    have silent : differences now (s.cache.getD []) fresh = [] ↔ contents log = fresh := by
      rw [cached]
      exact differences_eq_nil_iff now h.ascending ascending h.lasting lasting
    have agrees : ofBytes bytes = ofBytes s.file ↔ contents log = fresh := by
      rw [read, h.file]
      exact ⟨fun same => (Except.ok.inj same).symm, fun same => congrArg Except.ok same.symm⟩
    refine ⟨silent.trans agrees.symm, fun quiet => ⟨by rw [quiet]; rfl, ?_⟩⟩
    exact h.leaves rfl turn rfl h.ascending h.lasting h.file (silent.mp quiet).symm rfl trivial

end Stages

/-! ### What becomes of a run -/

/-- Each call has come to what it should after those before it. -/
def Answered (log : List Done) : Prop :=
  ∀ before d after, log = before ++ d :: after → d.outcome = d.call.expected before

/-- No reload has told anything. -/
def Silent (log : List Done) : Prop := ∀ d ∈ log, d.call = .reload → announced d.past = []

/-- Every reload has taken over what the file held then. -/
def Fresh (log : List Done) : Prop := ∀ d ∈ log, d.Fresh

/-- What is true of the calls of a run as long as every reload is fresh. -/
structure Intact (log : List Done) (p : Calls) : Prop where
  answered : Answered log
  stages : ∃ stages, List.Forall₂ Describes stages p.threads ∧ Keeps (contents log) p.state stages

section Runs

variable {s₀ s s' : State} {p p' : Calls} {log new : List Done} {d : Done} {c : Call} {stage : Stage}
  {rest : List Stage} {r : Operation Outcome} {past : List (Happening interface)}

theorem Answered.concat (h : Answered log) (answers : d.outcome = d.call.expected log) :
    Answered (log ++ [d]) := by
  intro before e after split
  rcases List.eq_nil_or_concat after with rfl | ⟨after, f, rfl⟩
  · obtain ⟨rfl, same⟩ := List.append_inj' split rfl
    cases same
    exact answers
  · rw [List.concat_eq_append, ← List.cons_append, ← List.append_assoc] at split
    exact h before e after (List.append_inj' split rfl).1

theorem contents_concat (log : List Done) (d : Done) :
    contents (log ++ [d]) = d.call.apply (contents log) := by
  simp [contents]

/-- Up to where a call returns, a run stays intact. -/
theorem Follows.returned (follows : Follows log c rest s stage) (of : stage.Of c)
    (stands : stage.Stands r past) (answered : Answered log) :
    (Silent (returned c r past s) ↔ Fresh (returned c r past s)) ∧
      (Fresh (returned c r past s) → Answered (log ++ returned c r past s) ∧
        Keeps (contents (log ++ returned c r past s)) s (stage :: rest)) := by
  obtain rfl := stands.process
  cases stage with
  | waiting | loading | writing | reading | arriving =>
    change (Silent [] ↔ Fresh []) ∧ (Fresh [] → Answered (log ++ []) ∧ Keeps (contents (log ++ [])) s _)
    rw [List.append_nil]
    exact ⟨iff_of_true (List.forall_mem_nil _) (List.forall_mem_nil _), fun _ => ⟨answered, follows⟩⟩
  | finished o told =>
    obtain ⟨a, rfl⟩ := of
    obtain ⟨expected, keeps⟩ := follows
    refine ⟨iff_of_true ?_ ?_, fun _ => ⟨answered.concat expected, ?_⟩⟩
    · exact List.forall_mem_singleton.mpr nofun
    · exact List.forall_mem_singleton.mpr nofun
    · exact (contents_concat log _).symm ▸ keeps
  | reloaded r told bytes =>
    obtain rfl : c = .reload := of
    obtain ⟨silent, keeps⟩ := follows
    have told' : announced past = told := stands.told
    have read : readings past = [bytes] := stands.read _ rfl
    have fresh : Silent [⟨.reload, .reloaded r, past, s⟩] ↔ Fresh [⟨.reload, .reloaded r, past, s⟩] := by
      simpa [Silent, Fresh, Done.Fresh, told', read] using silent
    refine ⟨fresh, fun h => ?_⟩
    have quiet : told = [] := by simpa [Silent, told'] using fresh.mpr h
    obtain ⟨rfl, keeps⟩ := keeps quiet
    exact ⟨answered.concat rfl, (contents_concat log _).symm ▸ keeps⟩

/-- One more step of a run: it is silent exactly if it is fresh, and then the run stays intact. -/
theorem Intact.step {threads : List (Thread interface Call Outcome)} {stages : List Stage}
    (h : Intact log p) (follows : Follows log c rest s stage) (of : stage.Of c)
    (stands : stage.Stands r past) (describes : List.Forall₂ Describes stages threads)
    (same : stages.Perm (stage :: rest)) :
    (Silent (FileStore.returned c r past s) ↔ Fresh (FileStore.returned c r past s)) ∧
      (Fresh (FileStore.returned c r past s) →
        Intact (log ++ FileStore.returned c r past s) ⟨s, threads⟩) := by
  obtain ⟨silent, intact⟩ := follows.returned of stands h.answered
  refine ⟨silent, fun fresh => ?_⟩
  obtain ⟨answered, keeps⟩ := intact fresh
  exact ⟨answered, stages, describes, keeps.perm same.symm⟩

/-- A run that was silent up to here is silent exactly if what is new is. -/
theorem silent_append (h : (Silent log ↔ Fresh log) ∧ (Fresh log → Intact log p))
    (step : Intact log p → (Silent new ↔ Fresh new) ∧ (Fresh new → Intact (log ++ new) p')) :
    (Silent (log ++ new) ↔ Fresh (log ++ new)) ∧ (Fresh (log ++ new) → Intact (log ++ new) p') := by
  simp only [Silent, Fresh, List.forall_mem_append] at h step ⊢
  constructor
  · constructor
    · rintro ⟨silent, last⟩
      have fresh := h.1.mp silent
      exact ⟨fresh, (step (h.2 fresh)).1.mp last⟩
    · rintro ⟨fresh, last⟩
      exact ⟨h.1.mpr fresh, (step (h.2 fresh)).1.mpr last⟩
  · rintro ⟨fresh, last⟩
    exact (step (h.2 fresh)).2 last

theorem Run.intact (begins : s₀.New) (run : Run s₀ log p) :
    (Silent log ↔ Fresh log) ∧ (Fresh log → Intact log p) := by
  induction run with
  | start =>
    refine ⟨iff_of_true (List.forall_mem_nil _) (List.forall_mem_nil _), fun _ => ⟨?_, [], .nil, ?_⟩⟩
    · intro before d after split
      simp at split
    · refine ⟨.nil, List.forall_mem_nil _, ?_, fun _ => ?_, .of_fresh begins.free, ?_, List.forall_mem_nil _⟩
      · rw [begins.missing]
        rfl
      · rw [begins.empty]
        rfl
      · rw [begins.free]
        exact List.nil_subset _
  | @begin log p c s r past _ runs ih =>
    refine silent_append ih fun intact => ?_
    obtain ⟨stages, describes, keeps⟩ := intact.stages
    obtain ⟨stage, begins, stands⟩ := begins_of_runs runs
    have follows : Follows log c stages s stage := by
      have begun := keeps.begun begins
      cases begins <;> exact begun
    exact intact.step follows begins.of stands
      (List.rel_append describes (.cons ⟨begins.of, stands⟩ .nil)) (List.perm_append_singleton _ _)
  | @resume log p i t q x next s₁ s r past _ here waits hx runs ih =>
    refine silent_append ih fun intact => ?_
    obtain ⟨stages, describes, keeps⟩ := intact.stages
    obtain ⟨stage, there, describes₁, replace⟩ := forall₂_set describes here
    obtain ⟨rest, same, same'⟩ := set_perm there
    obtain ⟨stage', moves, stands⟩ := moves_of_runs (waits ▸ describes₁.stands) hx runs
    have follows := (keeps.perm same).moved moves describes₁.of
    have of := moves.of describes₁.of
    exact intact.step follows of stands (replace stage' _ ⟨of, stands⟩) (same' stage')

end Runs

/-! ### A call by itself -/

section Alone

variable {s s' : State} {a : Access} {ticket : Nat} {now : Int} {es : Entries} {o : Outcome}
  {cs : List StoreChange} {k : Unit → Operation Outcome} {log : List Done} {p : Calls}

theorem leads_announceAll : surroundings.Leads ((announceAll cs).bind k) s o s' ↔
    surroundings.Leads (k ()) s o s' := by
  induction cs with
  | nil => rfl
  | cons c cs ih =>
    rw [← ih]
    exact Surroundings.leads_determined (S := surroundings) (q := Ask.announce c) (a := ())
      fun _ _ => by simp [surroundings, Answers]

theorem leave_leads (s : State) (a : Access) (ticket : Nat) (o : Outcome) :
    surroundings.Leads (a.leave ticket o) s o (s.handBack ticket) :=
  Surroundings.leads_ask_iff.mpr
    ⟨(), _, rfl, leads_announceAll.mpr (Surroundings.leads_done_iff.mpr ⟨rfl, rfl⟩)⟩

theorem proceed_leads (s : State) (a : Access) (now : Int) (ticket : Nat) (es : Entries) :
    ∃ s', surroundings.Leads (a.proceed now ticket es) s (a.work now es).1 s' := by
  rw [Access.proceed]
  rcases a.work now es with ⟨o, _ | changed⟩
  · exact ⟨_, leave_leads s a ticket o⟩
  · exact ⟨_, Surroundings.leads_ask_iff.mpr ⟨(), _, rfl,
      Surroundings.leads_ask_iff.mpr ⟨.ok (), _, ⟨rfl, rfl⟩, leave_leads _ a ticket o⟩⟩⟩

theorem turn_leads (now : Int) (turn : s.lock.hasTurn ticket = true)
    (file : ofBytes s.file = .ok es) (cached : s.cache.getD [] = es) :
    ∃ s', surroundings.Leads (a.turn now ticket) s (a.work now es).1 s' := by
  cases held : s.cache with
  | some fs =>
    obtain rfl : fs = es := by simpa [held] using cached
    obtain ⟨s', leads⟩ := proceed_leads s a now ticket fs
    exact ⟨s', Surroundings.leads_ask_iff.mpr ⟨(), s, ⟨turn, rfl⟩,
      Surroundings.leads_ask_iff.mpr ⟨some fs, s, ⟨held.symm, rfl⟩, leads⟩⟩⟩
  | none =>
    obtain ⟨s', leads⟩ := proceed_leads (s.caching (some es)) a now ticket es
    have loads : surroundings.Leads (a.load now ticket) s (a.work now es).1 s' := by
      refine Surroundings.leads_ask_iff.mpr ⟨.ok s.file, s, ⟨rfl, rfl⟩, ?_⟩
      have bound : (Except.ok s.file : Except StoreError (Option Bytes)).bind ofBytes = .ok es := file
      rw [bound]
      exact Surroundings.leads_ask_iff.mpr ⟨(), _, rfl, leads⟩
    exact ⟨s', Surroundings.leads_ask_iff.mpr ⟨(), s, ⟨turn, rfl⟩,
      Surroundings.leads_ask_iff.mpr ⟨none, s, ⟨held.symm, rfl⟩, loads⟩⟩⟩

theorem takeOver_leads (fresh : Entries) (now : Int) (turn : s.lock.hasTurn ticket = true) :
    surroundings.Leads (takeOver ticket fresh) s
      (.reloaded (.ok (differences now (s.cache.getD []) fresh).length))
      ((s.caching (some fresh)).handBack ticket) := by
  have takes (o : Outcome) : surroundings.Leads (Process.ask (I := interface)
      (.setCache (some fresh)) fun _ => .ask (.handBack ticket) fun _ => .done o) s o
      ((s.caching (some fresh)).handBack ticket) :=
    Surroundings.leads_ask_iff.mpr ⟨(), _, rfl, Surroundings.leads_ask_iff.mpr
      ⟨(), _, rfl, Surroundings.leads_done_iff.mpr ⟨rfl, rfl⟩⟩⟩
  exact Surroundings.leads_ask_iff.mpr ⟨(), s, ⟨turn, rfl⟩,
    Surroundings.leads_ask_iff.mpr ⟨s.cache, s, ⟨rfl, rfl⟩,
      Surroundings.leads_ask_iff.mpr ⟨now, s, rfl, leads_announceAll.mpr (takes _)⟩⟩⟩

/-- A call that nobody disturbs returns. -/
theorem perform_leads (h : Keeps (contents log) s []) (c : Call) :
    ∃ s', surroundings.Leads (perform c) s (c.expected log) s' := by
  have free : s.lock.waiting = [] := List.eq_nil_of_subset_nil h.held
  have turn : s.take.lock.hasTurn s.lock.next = true := Turnstile.hasTurn_take_of_free free
  have cached : s.take.cache.getD [] = contents log := h.cached (List.forall_mem_nil _)
  cases c with
  | access a =>
    obtain ⟨s', leads⟩ := turn_leads 0 turn h.file cached
    rw [(work_spec 0 log a).1] at leads
    rw [perform_access]
    exact ⟨s', Surroundings.leads_ask_iff.mpr ⟨(0 : Int), s, rfl,
      Surroundings.leads_ask_iff.mpr ⟨s.lock.next, s.take, ⟨rfl, rfl⟩, leads⟩⟩⟩
  | reload =>
    have leads := takeOver_leads (contents log) 0 turn
    have silent : differences 0 (contents log) (contents log) = [] :=
      (differences_eq_nil_iff 0 h.ascending h.ascending h.lasting h.lasting).mpr rfl
    rw [cached, silent] at leads
    rw [perform_reload, Stage.process]
    refine ⟨(s.take.caching (some (contents log))).handBack s.lock.next,
      Surroundings.leads_ask_iff.mpr ⟨.ok s.file, s, ⟨rfl, rfl⟩, ?_⟩⟩
    have bound : (Except.ok s.file : Except StoreError (Option Bytes)).bind ofBytes =
      .ok (contents log) := h.file
    rw [bound]
    exact Surroundings.leads_ask_iff.mpr ⟨s.lock.next, s.take, ⟨rfl, rfl⟩, leads⟩

end Alone

/-! ### What a reload keeps -/

section Results

variable {s₀ : State} {p : Calls} {log : List Done}

theorem Stage.Stands.idle {stage : Stage} {o : Outcome} {past : List (Happening interface)}
    (h : stage.Stands (.done o) past) : stage.tickets = [] ∧ stage.isInside = false := by
  cases stage with
  | finished | reloaded => exact ⟨rfl, rfl⟩
  | waiting | loading | writing | reading | arriving => cases h.process

/-- Calls that are done are in nobody's way. -/
theorem Keeps.of_idle {es : Entries} {s : State} {stages : List Stage} (h : Keeps es s stages)
    (idle : ∀ stage ∈ stages, stage.tickets = [] ∧ stage.isInside = false) : Keeps es s [] := by
  have none : stages.flatMap Stage.tickets = [] :=
    List.flatMap_eq_nil_iff.mpr fun stage hs => (idle stage hs).1
  have serves := h.serves
  have held := h.held
  rw [none] at serves held
  exact ⟨h.ascending, h.lasting, h.file, fun _ => h.cached fun stage hs => (idle stage hs).2,
    serves, held, List.forall_mem_nil _⟩

theorem Intact.kept (h : Intact log p) (silent : Silent log) : Kept log p := by
  have rests (rest : AtRest p) : Keeps (contents log) p.state [] := by
    obtain ⟨stages, describes, keeps⟩ := h.stages
    refine keeps.of_idle fun stage hs => ?_
    obtain ⟨i, bound, rfl⟩ := List.getElem_of_mem hs
    obtain ⟨same, each⟩ := List.forall₂_iff_get.mp describes
    obtain ⟨o, done⟩ := rest _ (List.get_mem p.threads ⟨i, same ▸ bound⟩)
    exact Stage.Stands.idle (done ▸ (each i bound (same ▸ bound)).stands)
  refine ⟨h.answered, silent, fun rest => ?_, fun rest c => perform_leads (rests rest) c⟩
  rw [(rests rest).cached (List.forall_mem_nil _)]
  exact (rests rest).file

end Results

/-! ### From stage to stage -/

section Reaching

/-- A call that can be answered now. -/
def Stage.Ready (s : State) : Stage → Prop
  | .waiting _ _ ticket | .arriving ticket _ _ => s.lock.hasTurn ticket = true
  | .loading .. | .writing .. | .reading => True
  | .finished .. | .reloaded .. => False

/-- Calls come to these stages. -/
def Reaches (s₀ : State) (log : List Done) (s : State) (stages : List Stage) : Prop :=
  ∃ threads, Run s₀ log ⟨s, threads⟩ ∧ List.Forall₂ Describes stages threads

variable {s₀ s : State} {log : List Done} {stages : List Stage} {stage : Stage} {i ticket : Nat}
  {now : Int} {fresh : Entries} {bytes : Option Bytes}

theorem exists_runs (r : Operation Outcome) (s : State) (past : List (Happening interface)) :
    ∃ s' r' past', surroundings.Runs s r past s' r' past' := by
  refine Surroundings.exists_runs (fun s q hq => ?_) r s past
  cases q with
  | turn | readFile | writeFile => cases hq
  | takeTicket => exact ⟨s.lock.next, s.take, rfl, rfl⟩
  | cached => exact ⟨s.cache, s, rfl, rfl⟩
  | now => exact ⟨(0 : Int), s, rfl⟩
  | handBack | setCache | announce => exact ⟨(), _, rfl⟩

theorem Stage.Ready.answered (h : stage.Ready s) :
    ∃ q next x s₁, stage.process = .ask q next ∧ Answers s q x s₁ := by
  cases stage with
  | waiting a now ticket => exact ⟨_, _, (), s, rfl, h, rfl⟩
  | arriving ticket bytes fresh => exact ⟨_, _, (), s, rfl, h, rfl⟩
  | loading | reading => exact ⟨_, _, Except.ok s.file, s, rfl, rfl, rfl⟩
  | writing a ticket o es => exact ⟨_, _, Except.ok (), _, rfl, rfl, rfl⟩
  | finished | reloaded => exact h.elim

theorem Reaches.begins (h : Reaches s₀ log s stages) (c : Call) :
    ∃ s' stage, Begins s c s' stage ∧ Reaches s₀ log s' (stages ++ [stage]) := by
  obtain ⟨threads, run, describes⟩ := h
  obtain ⟨s', r, past, runs⟩ := exists_runs (perform c) s []
  obtain ⟨stage, begins, stands⟩ := begins_of_runs runs
  have unreturned : returned c r past s' = [] := by
    rw [stands.process]
    cases begins <;> rfl
  have run' := run.begin runs
  rw [unreturned, List.append_nil] at run'
  exact ⟨s', stage, begins, _, run',
    List.rel_append describes (.cons ⟨begins.of, stands⟩ .nil)⟩

theorem Reaches.next (h : Reaches s₀ log s stages) (there : stages[i]? = some stage)
    (ready : stage.Ready s) :
    ∃ c past s' stage', stage.Of c ∧ Moves s stage s' stage' ∧ stage'.Stands stage'.process past ∧
      Reaches s₀ (log ++ returned c stage'.process past s') s' (stages.set i stage') := by
  obtain ⟨threads, run, describes⟩ := h
  obtain ⟨t, here, describes₁, replace⟩ := forall₂_set describes.flip there
  obtain ⟨q, next, x, s₁, asks, hx⟩ := ready.answered
  have waits := describes₁.stands.process.trans asks
  obtain ⟨s', r, past, runs⟩ := exists_runs (next x) s₁ (t.past ++ [⟨q, x⟩])
  obtain ⟨stage', moves, stands⟩ := moves_of_runs (waits ▸ describes₁.stands) hx runs
  obtain rfl := stands.process
  exact ⟨t.call, past, s', stage', describes₁.of, moves, stands, _, run.resume here waits hx runs,
    (replace { t with process := _, past } stage' ⟨moves.of describes₁.of, stands⟩).flip⟩

/-- A reload that reads the file takes a ticket. -/
theorem Reaches.arrives (h : Reaches s₀ log s stages) (there : stages[i]? = some .reading)
    (read : ofBytes s.file = .ok fresh) :
    Reaches s₀ log s.take (stages.set i (.arriving s.lock.next s.file fresh)) := by
  obtain ⟨c, past, s', stage', -, moves, -, reaches⟩ := h.next there trivial
  cases moves with
  | arrive read' =>
    obtain rfl := Except.ok.inj (read.symm.trans read')
    simpa [returned, Stage.process, FileStore.takeOver] using reaches
  | unread read' => cases read.symm.trans read'

theorem Reaches.takesOver (h : Reaches s₀ log s stages)
    (there : stages[i]? = some (.arriving ticket bytes fresh)) (turn : s.lock.hasTurn ticket = true) :
    ∃ d now stage, d.call = .reload ∧ readings d.past = [bytes] ∧ d.state.file = s.file ∧
      announced d.past = differences now (s.cache.getD []) fresh ∧
      Reaches s₀ (log ++ [d]) ((s.caching (some fresh)).handBack ticket) (stages.set i stage) := by
  obtain ⟨c, past, s', stage', of, moves, stands, reaches⟩ := h.next there turn
  cases moves with
  | takeOver _ now =>
    exact ⟨⟨c, _, past, (s.caching (some fresh)).handBack ticket⟩, now, _, of, stands.read _ rfl, rfl,
      stands.told, reaches⟩

/-- Where there is no file yet, setting a key makes one. -/
theorem Reaches.sets {key value : String} (h : Reaches s₀ log s stages)
    (there : stages[i]? = some (.waiting (.set key value) now ticket))
    (turn : s.lock.hasTurn ticket = true) (empty : s.cache = none) (missing : s.file = none) :
    ∃ d stage, d.call = .access (.set key value) ∧
      Reaches s₀ (log ++ [d])
        ((((s.caching (some [])).caching (some [(key, { value })])).writing
          (toBytes [(key, { value })])).handBack ticket)
        (stages.set i stage) := by
  have again (stages : List Stage) (stage : Stage) (bound : i < stages.length) :
      (stages.set i stage)[i]? = some stage := List.getElem?_set_self bound
  have bound := (List.getElem?_eq_some_iff.mp there).1
  obtain ⟨c, past, s₁, stage₁, of, moves, -, reaches⟩ := h.next there turn
  cases moves with
  | found _ cached => cases empty.symm.trans cached
  | enter =>
    have loading : Reaches s₀ log s (stages.set i (.loading (.set key value) now ticket)) := by
      simpa [returned, Stage.process, Access.load] using reaches
    obtain ⟨c, past, s₂, stage₂, of, moves, -, reaches⟩ := loading.next (again _ _ bound) trivial
    cases moves with
    | unreadable read => cases (missing ▸ read : ofBytes none = _)
    | loaded read =>
      obtain rfl := Except.ok.inj (missing ▸ read : ofBytes none = _)
      have writing : Reaches s₀ log ((s.caching (some [])).caching (some [(key, { value })]))
          (stages.set i (.writing (.set key value) ticket (.stored (.ok ())) [(key, { value })])) := by
        simpa [returned, Stage.process, Access.works, Access.work, Access.write, Entries.insert,
          Entries.erase] using reaches
      obtain ⟨c, past, s₃, stage₃, of, moves, -, reaches⟩ :=
        writing.next (again _ _ bound) trivial
      cases moves with
      | written =>
        rw [List.set_set] at reaches
        exact ⟨⟨c, _, past, _⟩, _, of, reaches⟩

end Reaching

/-- The entries in which one key has a value for good. -/
theorem singleton_lasts (key value : String) :
    Entries.Ascending [(key, { value })] ∧ Entries.Lasting [(key, { value })] := by
  refine ⟨List.pairwise_singleton _ _, ?_⟩
  simp [Entries.Lasting]

/-! ### When reloading keeps everything -/

/-- All calls come to what they should, and no reload tells anything, exactly if every reload has taken
over what the file held then. -/
theorem kept_iff {s₀ : State} {p : Calls} {log : List Done} (begins : s₀.New) (run : Run s₀ log p) :
    Kept log p ↔ ∀ d ∈ log, d.Fresh := by
  obtain ⟨silent, intact⟩ := run.intact begins
  exact ⟨fun kept => silent.mp kept.silent, fun fresh => (intact fresh).kept (silent.mpr fresh)⟩

/-- A key is set, and after that the file is reloaded. -/
theorem kept_iff_in_turn : ∃ log p, State.New {} ∧ Run {} log p ∧
    log.map (·.call) = [.access (.set "k" "v"), .reload] ∧ Kept log p ∧
    (Kept log p ↔ ∀ d ∈ log, d.Fresh) := by
  have new : State.New {} := ⟨rfl, rfl, rfl⟩
  obtain ⟨ascending, lasting⟩ := singleton_lasts "k" "v"
  have start : Reaches {} [] {} [] := ⟨[], .start, .nil⟩
  obtain ⟨_, _, ⟨_, now⟩, waits⟩ := start.begins (.access (.set "k" "v"))
  obtain ⟨d, _, sets, written⟩ := waits.sets (i := 0) rfl rfl rfl rfl
  obtain ⟨_, _, ⟨⟩, reads⟩ := written.begins .reload
  have arrives := reads.arrives (i := 1) rfl (ofBytes_toBytes ascending lasting.fits)
  obtain ⟨e, _, _, reloads, read, file, -, threads, run, -⟩ := arrives.takesOver (i := 1) rfl rfl
  have fresh : ∀ f ∈ [] ++ [d] ++ [e], f.Fresh := by
    refine List.forall_mem_append.mpr ⟨by simp [Done.Fresh, sets],
      List.forall_mem_singleton.mpr fun _ bytes hb => ?_⟩
    rw [read] at hb
    rw [List.mem_singleton.mp hb, file]
    rfl
  have kept := kept_iff new run
  exact ⟨_, _, new, run, by simp [sets, reloads], kept.mpr fresh, kept⟩

/-- Whatever the order of the answers, reloading loses nothing and tells nothing. -/
def ReloadsKeep : Prop := ∀ s₀ log p, State.New s₀ → Run s₀ log p → Kept log p

/-- Where a key is set after a reload has read the file and before it has its turn, the reload takes the
key out of the cache and tells that it was deleted. -/
theorem not_reloadsKeep : ¬ ReloadsKeep := by
  intro keeps
  obtain ⟨ascending, lasting⟩ := singleton_lasts "k" "v"
  have start : Reaches {} [] {} [] := ⟨[], .start, .nil⟩
  obtain ⟨_, _, ⟨⟩, reads⟩ := start.begins .reload
  obtain ⟨_, _, ⟨_, now⟩, waits⟩ := reads.begins (.access (.set "k" "v"))
  have arrives := waits.arrives (i := 0) rfl (show ofBytes none = .ok [] from rfl)
  obtain ⟨d, _, sets, written⟩ := arrives.sets (i := 1) rfl rfl rfl rfl
  obtain ⟨e, now, _, reloads, -, -, told, threads, run, -⟩ := written.takesOver (i := 0) rfl rfl
  have silent := (keeps _ _ _ ⟨rfl, rfl, rfl⟩ run).silent e (by simp) reloads
  rw [told] at silent
  cases (differences_eq_nil_iff now ascending Entries.ascending_nil lasting (List.forall_mem_nil _)).mp
    silent

end ScreenFlow.FileStore
