import ScreenFlow.Proofs.Execute.Routing
import ScreenFlow.Proofs.Execute.Targets
import ScreenFlow.Proofs.Json.Decoding
import ScreenFlow.Proofs.Json.Yielding

/-!
# Kept reads and the calls that they answer

Without a connection a read is answered with what was kept of the latest one with the same key. Calls
are made one after another, while others do what they like but leave the kept reads alone.

* `Call.Done`, `done_of_ends`: what a call does to the kept reads;
* `Calls.kept`, `Calls.answered`: what is kept after many calls, and what a call is answered with;
* `kept_read_belongs_iff`: whose read it is that answers a call, and exactly when it is the latest one
  of the same target;
* `not_answersBelong`: the answer can be that of another request.
-/

namespace ScreenFlow

namespace Executor

open OfflineQueue (State)

variable {x : Executor} {r : Request} {expected : Option ResponseType}
  {history went : List (Happening interface)} {result reached : Except Fault Response}
  {o : OfflineSettings} {s s' s₁ : State}

/-! ### Calls beside others -/

/-- All reads are kept as before. -/
def SameReads (o : OfflineSettings) (s s' : State) : Prop :=
  ∀ key, s'.stored (OfflineQueue.cacheKey o key) = s.stored (OfflineQueue.cacheKey o key)

theorem SameReads.trans (h : SameReads o s s₁) (h' : SameReads o s₁ s') : SameReads o s s' :=
  fun key => (h' key).trans (h key)

/-- What the questions of a call do. The operations on the queue are its own, with a store that does
not fail. Others do what they like before each answer, but leave the kept reads as they are. -/
def BesideAnswers (o : OfflineSettings) (s : State) : (q : Ask) → Answer q → State → Prop
  | .enqueue e, a, s' => ∃ s₁, SameReads o s s₁ ∧
    (OfflineQueue.surroundings False).Leads (OfflineQueue.enqueue o e) s₁ a s'
  | .cached key, a, s' => ∃ s₁, SameReads o s s₁ ∧
    (OfflineQueue.surroundings False).Leads (OfflineQueue.cached o key) s₁ a s'
  | .keep key value, _, s' => ∃ s₁ a, SameReads o s s₁ ∧
    (OfflineQueue.surroundings False).Leads (OfflineQueue.keep o key value) s₁ a s'
  | .isOnline, b, s' => b = s'.queue.online ∧ SameReads o s s'
  | _, _, s' => SameReads o s s'

def beside (o : OfflineSettings) : Surroundings interface State where
  suspends _ := true
  answers := BesideAnswers o

/-- No kept read stands where the queue is stored. -/
def Apart (o : OfflineSettings) : Prop := ∀ key, OfflineQueue.cacheKey o key ≠ o.queueKey

theorem sameReads_of_enqueue (apart : Apart o) {e : OfflineEvent} {a : Except OfflineError String}
    (h : (OfflineQueue.surroundings False).Leads (OfflineQueue.enqueue o e) s a s') :
    SameReads o s s' := by
  have queueing := (OfflineQueue.leads_enqueue_iff.mp h).2
  intro key
  cases a with
  | ok id =>
    obtain ⟨-, queued, stamp, -, -, stored⟩ := adds_of_queueing queueing
    rw [stored]
    exact if_neg (apart key)
  | error f => rw [(refused_of_queueing queueing).2]

/-- Only keeping a read changes what is kept. -/
theorem sameReads_of_unkept (apart : Apart o) (allows : (beside o).Allows s history s')
    (unkept : ∀ e ∈ history, ∀ key value, e.question ≠ .keep key value) : SameReads o s s' := by
  induction allows with
  | nil => exact fun _ => rfl
  | @cons s s₁ s₂ q a history here rest ih =>
    rw [List.forall_mem_cons] at unkept
    refine SameReads.trans ?_ (ih unkept.2)
    cases q with
    | enqueue e =>
      obtain ⟨s₀, same, leads⟩ := here
      exact same.trans (sameReads_of_enqueue apart leads)
    | cached key =>
      obtain ⟨s₀, same, leads⟩ := here
      rw [(OfflineQueue.leads_cached_iff.mp leads).2]
      exact same
    | keep key value => exact absurd rfl (unkept.1 key value)
    | isOnline => exact here.2
    | _ => exact here

theorem unkept_of_unasked (unasked : asked history = []) :
    ∀ e ∈ history, ∀ key value, e.question ≠ .keep key value := by
  intro e he key value same
  have := asked_eq_nil_iff.mp unasked e he
  rw [same] at this
  cases this

/-! ### What one call does -/

/-- A call as others see it. -/
structure Call where
  request : Request
  expected : Option ResponseType := none
  result : Except Fault Response

/-- The call has read the value from the server, in a form that is kept. -/
def Call.Reads (c : Call) (v : Json) : Prop :=
  c.request.isMutating = false ∧ ∃ response, c.result = .ok response ∧
    response.fromCache = false ∧ isKept response.body = true ∧ response.value = v

theorem Call.Reads.unique {c : Call} {v w : Json} (h : c.Reads v) (h' : c.Reads w) : v = w := by
  obtain ⟨-, response, good, -, -, rfl⟩ := h
  obtain ⟨-, response', good', -, -, rfl⟩ := h'
  rw [Except.ok.inj (good.symm.trans good')]

/-- All that a call can do to the kept reads. -/
inductive Call.Done (o : OfflineSettings) (c : Call) (s s' : State) : Prop
  | read {v : Json} (reads : c.Reads v) (settled : v.Settled)
      (kept : ∀ key, s'.stored (OfflineQueue.cacheKey o key) =
        if key = cacheKey c.request then some v.render
        else s.stored (OfflineQueue.cacheKey o key))
  | answered {v : Json}
      (result : c.result = .ok { status := 200, body := .json v, fromCache := true })
      (there : keptRead o (cacheKey c.request) s = .ok (some v)) (same : SameReads o s s')
  | other (unread : ∀ v, ¬ c.Reads v)
      (uncached : ∀ response, c.result = .ok response → response.fromCache = false)
      (same : SameReads o s s')

/-! ### What the server replies -/

/-- The body is one whose value normalizing does not change. -/
def SettledBody (body : ResponseBody) : Prop := isKept body = true → body.toValue.Settled

theorem settled_asJson (reply : Reply) : SettledBody reply.asJson := by
  intro _
  rw [Reply.asJson]
  split
  · exact Json.settled_ofBytes? ‹_›
  · rfl

theorem settled_decode (reply : Reply) (expected : Option ResponseType) :
    SettledBody (reply.decode expected) := by
  rw [Reply.decode]
  dsimp only
  split
  · exact nofun
  · split
    · exact nofun
    · split
      · exact settled_asJson reply
      · split
        · exact settled_asJson reply
        · exact fun _ => rfl
      · exact nofun

theorem settled_openBody {body opened : ResponseBody} (settled : SettledBody body)
    (h : GraphqlCall.openBody body = .ok opened) : SettledBody opened := by
  cases body with
  | json envelope =>
    obtain ⟨data, opens, rfl⟩ : ∃ data, GraphqlCall.openEnvelope envelope = .ok data ∧
        opened = .json data := by
      cases opens : GraphqlCall.openEnvelope envelope with
      | error f => simp [GraphqlCall.openBody, opens, Except.map] at h
      | ok data =>
        exact ⟨data, rfl, by simpa [GraphqlCall.openBody, opens, Except.map, eq_comm] using h⟩
    rw [GraphqlCall.openEnvelope] at opens
    intro _
    split at opens
    · rename_i found
      cases opens
      exact Json.settled_get? (settled rfl) (Option.filter_eq_some_iff.mp found).1
    · split at opens
      · cases opens
        rfl
      · cases opens
  | _ =>
    cases h
    exact settled

/-- A reply of success is no kept read, and its value is settled. -/
theorem toResponse_ok {reply : Reply} {graphql : Bool} {response : Response}
    (h : reply.toResponse graphql expected = .ok response) :
    response.fromCache = false ∧ SettledBody response.body := by
  rw [Reply.toResponse] at h
  split at h
  · cases h
  · have decoded := settled_decode reply expected
    cases graphql with
    | false =>
      cases h
      exact ⟨rfl, decoded⟩
    | true =>
      simp only [↓reduceIte] at h
      cases opens : GraphqlCall.openBody (reply.decode expected) with
      | error f => simp [opens, Except.map] at h
      | ok opened =>
        rw [opens] at h
        cases h
        exact ⟨rfl, settled_openBody decoded opens⟩

theorem outcome_ok {s : Sent} {response : Response} (h : x.outcome r expected s = .ok response) :
    ∃ reply : Reply, reply.toResponse r.graphql.isSome expected = .ok response := by
  cases s with
  | replied reply => exact ⟨reply, h⟩
  | failed | elapsed => cases h

theorem Tries.replied {left : Nat} (h : Tries x r expected left history result)
    {response : Response} (good : result = .ok response) :
    ∃ reply : Reply, reply.toResponse r.graphql.isSome expected = .ok response := by
  induction h with
  | stopped | cut | exhausted | woken => cases good
  | settled s => exact outcome_ok good
  | again _ _ _ _ _ ih => exact ih good

/-- What a call comes to without an error is a reply of the server. -/
theorem Attempts.replied (h : Attempts x r expected history result) {response : Response}
    (good : result = .ok response) :
    ∃ reply : Reply, reply.toResponse r.graphql.isSome expected = .ok response := by
  cases h with
  | tried tries => exact tries.replied good
  | denied => cases good
  | renewed _ renews =>
    cases renews with
    | again token s => exact outcome_ok good
    | _ => cases good

/-! ### One call -/

theorem allows_keep {key : String} {value : Json}
    (allows : (beside o).Allows s [⟨.keep key value, ()⟩] s') (k : String) :
    s'.stored (OfflineQueue.cacheKey o k) =
      if k = key then some value.render else s.stored (OfflineQueue.cacheKey o k) := by
  obtain ⟨s₂, ⟨s₁, a, same, leads⟩, rest⟩ := Surroundings.allows_cons_iff.mp allows
  obtain rfl := Surroundings.allows_nil_iff.mp rest
  rcases OfflineQueue.leads_keep_iff.mp leads with ⟨-, rfl⟩ | ⟨may, -⟩
  · rw [← same k]
    simp only [State.put, OfflineQueue.cacheKey, String.append_right_inj]
  · exact may.elim

theorem Call.Done.after {c : Call} (same : SameReads o s s₁) (h : c.Done o s₁ s') :
    c.Done o s s' := by
  cases h with
  | read reads settled kept =>
    refine .read reads settled fun key => ?_
    rw [kept, same]
  | answered result there later =>
    refine .answered result ?_ (same.trans later)
    rwa [keptRead, same] at there
  | other unread uncached later => exact .other unread uncached (same.trans later)

theorem done_of_error {f : Fault} (same : SameReads o s s') :
    Call.Done o ⟨r, expected, .error f⟩ s s' := by
  refine .other (fun v reads => ?_) nofun same
  obtain ⟨-, response, good, -⟩ := reads
  cases good

/-- What a call does that gets no answer from the server. -/
theorem done_of_fallsBack (apart : Apart o) {cause : Option Fault}
    (falls : FallsBack r cause history result) (allows : (beside o).Allows s history s') :
    Call.Done o ⟨r, expected, result⟩ s s' := by
  have same : SameReads o s s' := sameReads_of_unkept apart allows (by cases falls <;> simp)
  cases falls with
  | queued mutating token id a =>
    cases a with
    | error f => exact done_of_error same
    | ok id' =>
      refine .other (fun v reads => ?_) (fun response good => ?_) same
      · exact absurd (mutating.symm.trans reads.1) (by decide)
      · cases good
        rfl
  | read reads a =>
    obtain ⟨s₂, ⟨s₁, before, leads⟩, rest⟩ := Surroundings.allows_cons_iff.mp allows
    have looks := (OfflineQueue.leads_cached_iff.mp leads).1
    rcases a with f | _ | v
    · exact done_of_error same
    · exact done_of_error same
    · refine .answered rfl ?_ same
      rcases looks with looked | ⟨may, -⟩
      · rw [keptRead, ← before (cacheKey r), ← looked]
      · exact may.elim

/-- What a call does when its attempts have come to something. -/
theorem done_of_settles (apart : Apart o) (caches : x.settings.cacheReads = true)
    (goes : (x.send r expected).Ends went reached)
    (settles : Settles x r true reached history result) (allows : (beside o).Allows s history s') :
    Call.Done o ⟨r, expected, result⟩ s s' := by
  have replied {response : Response} (good : reached = .ok response) :
      response.fromCache = false ∧ SettledBody response.body := by
    obtain ⟨reply, came⟩ := (attempts_of_ends goes).replied good
    exact toResponse_ok came
  cases settles with
  | @kept _ kept response good =>
    obtain ⟨reads, response', good', -, keeps⟩ := kept
    obtain rfl : response = response' := Except.ok.inj (good.symm.trans good')
    obtain ⟨fresh, settled⟩ := replied good
    exact .read ⟨reads, response, good, fresh, keeps, rfl⟩ (settled keeps) (allows_keep allows)
  | fellBack _ _ falls => exact done_of_fallsBack apart falls allows
  | plain other =>
    obtain rfl := Surroundings.allows_nil_iff.mp allows
    refine .other (fun v reads => ?_) (fun response good => (replied good).1) fun _ => rfl
    obtain ⟨plain, response, good, -, keeps, -⟩ := reads
    exact (other rfl).1 ⟨plain, response, good, caches, keeps⟩

/-- All that a call does to the kept reads. -/
theorem done_of_ends (apart : Apart o) (queueing : x.queueing = true)
    (caches : x.settings.cacheReads = true) (ends : (x.execute r expected).Ends history result)
    (allows : (beside o).Allows s history s') : Call.Done o ⟨r, expected, result⟩ s s' := by
  rw [execute, queueing] at ends
  cases course_of_ends ends with
  | streaming => exact done_of_error (sameReads_of_unkept apart allows (by simp))
  | cancelled => exact done_of_error (sameReads_of_unkept apart allows (by simp))
  | @unconnected _ _ fell _ falls =>
    have parted : (beside o).Allows s ([⟨.cancelled, false⟩, ⟨.isOnline, false⟩] ++ fell) s' := allows
    obtain ⟨s₁, begun, rest⟩ := Surroundings.allows_append_iff.mp parted
    exact (done_of_fallsBack apart falls rest).after (sameReads_of_unkept apart begun (by simp))
  | @connected _ went rest _ _ goes settles =>
    have parted : (beside o).Allows s
        (([⟨.cancelled, false⟩, ⟨.isOnline, true⟩] ++ went) ++ rest) s' := by
      simpa [found] using allows
    obtain ⟨s₁, begun, ending⟩ := Surroundings.allows_append_iff.mp parted
    refine (done_of_settles apart caches goes settles ending).after
      (sameReads_of_unkept apart begun ?_)
    exact List.forall_mem_append.mpr
      ⟨by simp, unkept_of_unasked (attempts_of_ends goes).unasked⟩

/-! ### Calls one after another -/

/-- Calls of one executor, each after the end of the one before it. -/
inductive Calls (x : Executor) (o : OfflineSettings) (s : State) : List Call → State → Prop
  | start : Calls x o s [] s
  | call {calls : List Call} {s₁ s₂ : State} {c : Call} {history : List (Happening interface)}
      (before : Calls x o s calls s₁)
      (ends : (x.execute c.request c.expected).Ends history c.result)
      (allows : (beside o).Allows s₁ history s₂) : Calls x o s (calls ++ [c]) s₂

/-- The last of the calls of some kind that has read a value, and the value. -/
def Latest (kind : Request → Prop) (calls : List Call) (c : Call) (v : Json) : Prop :=
  ∃ earlier later, calls = earlier ++ c :: later ∧ kind c.request ∧ c.Reads v ∧
    ∀ d ∈ later, kind d.request → ∀ w, ¬ d.Reads w

variable {kind : Request → Prop} {calls before after : List Call} {c d : Call} {v : Json}

theorem latest_new (reads : c.Reads v) (of : kind c.request) : Latest kind (calls ++ [c]) c v :=
  ⟨calls, [], rfl, of, reads, List.forall_mem_nil _⟩

theorem Latest.of (h : Latest kind calls c v) : kind c.request :=
  let ⟨_, _, _, of, _⟩ := h
  of

theorem Latest.reads (h : Latest kind calls c v) : c.Reads v :=
  let ⟨_, _, _, _, reads, _⟩ := h
  reads

theorem Latest.append (h : Latest kind calls c v) (unread : kind d.request → ∀ w, ¬ d.Reads w) :
    Latest kind (calls ++ [d]) c v := by
  obtain ⟨earlier, later, rfl, of, reads, none⟩ := h
  refine ⟨earlier, later ++ [d], by simp, of, reads, ?_⟩
  exact List.forall_mem_append.mpr ⟨none, List.forall_mem_singleton.mpr unread⟩

theorem Latest.imp {kind' : Request → Prop} (h : Latest kind calls c v) (of : kind' c.request)
    (imp : ∀ r, kind' r → kind r) : Latest kind' calls c v := by
  obtain ⟨earlier, later, split, -, reads, none⟩ := h
  exact ⟨earlier, later, split, of, reads, fun d hd is => none d hd (imp _ is)⟩

section Runs

variable (apart : Apart o) (queueing : x.queueing = true) (caches : x.settings.cacheReads = true)

include apart queueing caches

/-- Every call before the end has had its turn. -/
theorem Calls.done (run : Calls x o s (before ++ c :: after) s') :
    ∃ s₁ s₂, Calls x o s before s₁ ∧ c.Done o s₁ s₂ := by
  generalize split : before ++ c :: after = calls at run
  induction run generalizing after with
  | start => simp at split
  | @call calls s₁ s₂ d history earlier ends allows ih =>
    rcases List.eq_nil_or_concat after with rfl | ⟨rest, last, rfl⟩
    · obtain ⟨rfl, rfl⟩ : before = calls ∧ c = d := by simpa using split
      exact ⟨s₁, s₂, earlier, done_of_ends apart queueing caches ends allows⟩
    · have parted : (before ++ c :: rest) ++ [last] = calls ++ [d] := by simpa using split
      exact ih (List.append_inj_left' parted rfl)

variable (nothing : ∀ key, s.stored (OfflineQueue.cacheKey o key) = none)

include nothing

/-- What is kept under a key is what the latest call with that key has read. -/
theorem Calls.kept (run : Calls x o s calls s') (key : String) :
    s'.stored (OfflineQueue.cacheKey o key) = none ∨
      ∃ c v, Latest (fun r => cacheKey r = key) calls c v ∧ v.Settled ∧
        s'.stored (OfflineQueue.cacheKey o key) = some v.render := by
  induction run with
  | start => exact .inl (nothing key)
  | @call calls s₁ s₂ d history _ ends allows ih =>
    have unchanged (same : SameReads o s₁ s₂) (unread : ∀ v, ¬ d.Reads v) :
        s₂.stored (OfflineQueue.cacheKey o key) = none ∨
          ∃ c v, Latest (fun r => cacheKey r = key) (calls ++ [d]) c v ∧ v.Settled ∧
            s₂.stored (OfflineQueue.cacheKey o key) = some v.render := by
      rw [same key]
      refine ih.imp_right ?_
      rintro ⟨c, v, latest, settled, stored⟩
      exact ⟨c, v, latest.append fun _ => unread, settled, stored⟩
    cases done_of_ends apart queueing caches ends allows with
    | @read v reads settled kept =>
      rw [kept]
      by_cases mine : key = cacheKey d.request
      · rw [if_pos mine]
        exact .inr ⟨d, v, latest_new reads mine.symm, settled, rfl⟩
      · rw [if_neg mine]
        refine ih.imp_right ?_
        rintro ⟨c, v, latest, settled, stored⟩
        exact ⟨c, v, latest.append fun of => absurd of.symm mine, settled, stored⟩
    | answered result _ same =>
      refine unchanged same fun v reads => ?_
      obtain ⟨-, response, good, fresh, -⟩ := reads
      rw [result] at good
      cases good
      cases fresh
    | other unread _ same => exact unchanged same unread

/-- A kept read that answers a call is what the latest call with the same key has read. -/
theorem Calls.answered (run : Calls x o s (before ++ c :: after) s') {response : Response}
    (good : c.result = .ok response) (kept : response.fromCache = true) :
    ∃ c₀ v, Latest (fun r => cacheKey r = cacheKey c.request) before c₀ v ∧ v.Settled ∧
      Json.ofText v.render = .ok response.value := by
  obtain ⟨s₁, s₂, earlier, done⟩ := run.done apart queueing caches
  cases done with
  | read reads =>
    obtain ⟨-, response', good', fresh, -⟩ := reads
    obtain rfl : response = response' := Except.ok.inj (good.symm.trans good')
    rw [kept] at fresh
    cases fresh
  | other _ uncached =>
    rw [uncached response good] at kept
    cases kept
  | @answered w result there =>
    obtain rfl := Except.ok.inj (good.symm.trans result)
    rcases earlier.kept apart queueing caches nothing (cacheKey c.request) with
      none | ⟨c₀, v, latest, settled, stored⟩
    · simp [keptRead, none, Store.readJson, Except.mapError] at there
    · refine ⟨c₀, v, latest, settled, ?_⟩
      rw [keptRead, stored] at there
      cases read : Json.ofText v.render with
      | error e => simp [Store.readJson, read, Except.mapError] at there
      | ok u =>
        obtain rfl : u = w := by simpa [Store.readJson, read, Except.mapError] using there
        rfl

end Runs

/-! ### Targets that share their key -/

/-- A read that is answered by the server, and kept. -/
theorem ends_of_reply (queueing : x.queueing = true) (caches : x.settings.cacheReads = true)
    (plain : r.isStreaming = false) (reads : r.isMutating = false) {reply : Reply}
    {response : Response} (good : reply.toResponse r.graphql.isSome expected = .ok response)
    (keeps : isKept response.body = true) :
    (x.execute r expected).Ends
      [⟨.cancelled, false⟩, ⟨.isOnline, true⟩, ⟨.cancelled, false⟩,
        ⟨.send r (x.budget r), some (.replied reply)⟩, ⟨.keep (cacheKey r) response.value, ()⟩]
      (.ok response) := by
  have attempts : (x.withRetry r expected).Ends
      [⟨.cancelled, false⟩, ⟨.send r (x.budget r), some (.replied reply)⟩] (.ok response) := by
    show (x.attempting r expected (x.policy r) (x.policy r).maxAttempts 0).Ends _ _
    obtain ⟨left, hleft⟩ : ∃ left, (x.policy r).maxAttempts = left + 1 :=
      Nat.exists_eq_succ_of_ne_zero (Nat.ne_of_gt (x.policy r).maxAttempts_pos)
    rw [hleft, attempting_succ]
    have came : x.outcome r expected (.replied reply) = .ok response := good
    iterate 2 apply Process.Ends.asked
    simp only [Option.map_some, came]
    exact .done _
  have sends : (x.send r expected).Ends
      [⟨.cancelled, false⟩, ⟨.send r (x.budget r), some (.replied reply)⟩] (.ok response) :=
    Process.ends_bind_iff.mpr ⟨_, _, [], rfl, attempts, .done _⟩
  have settles : (x.settle r true (.ok response)).Ends
      [⟨.keep (cacheKey r) response.value, ()⟩] (.ok response) := by
    simp only [settle, keepRead, reads, caches, keeps, Bool.not_false, Bool.and_self, ↓reduceIte]
    apply Process.Ends.asked
    exact .done _
  simp only [execute, run, queueing, plain, Bool.false_eq_true, ↓reduceIte, ask, Process.call,
    Process.bind_def, Process.ask_bind, Process.done_bind, Process.pure_def]
  iterate 2 apply Process.Ends.asked
  exact Process.ends_bind_iff.mpr ⟨_, _, _, rfl, sends, settles⟩

/-- A read that is answered with what was kept of one. -/
theorem ends_of_kept (queueing : x.queueing = true) (plain : r.isStreaming = false)
    (reads : r.isMutating = false) (v : Json) :
    (x.execute r expected).Ends
      [⟨.cancelled, false⟩, ⟨.isOnline, false⟩, ⟨.cached (cacheKey r), .ok (some v)⟩]
      (.ok { status := 200, body := .json v, fromCache := true }) := by
  simp only [execute, run, queueing, plain, Bool.false_eq_true, ↓reduceIte]
  iterate 2 apply Process.Ends.asked
  simp only [fallBack, reads, Bool.false_eq_true, ↓reduceIte]
  apply Process.Ends.asked
  exact .done _

/-- Where nothing has been stored, and with a connection. -/
def fresh : State := ⟨{}, fun _ => none⟩

/-- Of two reads that share their key, the second one can be answered with what the first one has
brought. -/
theorem calls_of_shared (o : OfflineSettings) {r r' : Request} (shared : cacheKey r = cacheKey r')
    (plain : r.isStreaming = false) (plain' : r'.isStreaming = false)
    (reads : r.isMutating = false) (reads' : r'.isMutating = false) {reply : Reply}
    {response : Response} (good : reply.toResponse r.graphql.isSome none = .ok response)
    (keeps : isKept response.body = true) {v : Json}
    (read : Json.ofText response.value.render = .ok v) :
    ∃ s', Calls { queueing := true } o fresh
      [⟨r, none, .ok response⟩,
        ⟨r', none, .ok { status := 200, body := .json v, fromCache := true }⟩] s' := by
  have same {s : State} : SameReads o s s := fun _ => rfl
  let kept := fresh.put (OfflineQueue.cacheKey o (cacheKey r)) (some response.value.render)
  let unplugged : State := { kept with queue := { kept.queue with online := false } }
  have first : Calls { queueing := true } o fresh [⟨r, none, .ok response⟩] kept := by
    refine .call .start (ends_of_reply rfl rfl plain reads good keeps) ?_
    refine .cons same (.cons ⟨rfl, same⟩ (.cons same (.cons same (.cons ?_ (.nil _)))))
    exact ⟨fresh, .ok (), same, OfflineQueue.leads_keep_iff.mpr (.inl ⟨rfl, rfl⟩)⟩
  refine ⟨unplugged, .call first (ends_of_kept rfl plain' reads' v) ?_⟩
  have stored : unplugged.stored (OfflineQueue.cacheKey o (cacheKey r')) =
      some response.value.render := by
    rw [← shared]
    exact if_pos rfl
  have looks : unplugged.Looks o False (cacheKey r') (.ok (some v)) := by
    refine .inl ?_
    simp [stored, Store.readJson, read, Except.mapError]
  have switched : SameReads o kept unplugged := same
  refine .cons switched (.cons ⟨rfl, same⟩ (.cons ?_ (.nil _)))
  exact ⟨unplugged, same, OfflineQueue.leads_cached_iff.mpr ⟨looks, rfl⟩⟩

/-! ### Whose read it is -/

/-- A call that is answered with a kept read gets what the latest read has brought whose target is the
same or overlaps, for these are the targets with the same key. It is the latest read of its own
target exactly if the targets do not overlap, with the very value if, besides, the numbers in it are
what their digits say. -/
theorem kept_read_belongs_iff (apart : Apart o) (queueing : x.queueing = true)
    (caches : x.settings.cacheReads = true)
    (nothing : ∀ key, s.stored (OfflineQueue.cacheKey o key) = none)
    (run : Calls x o s (before ++ c :: after) s') {response : Response}
    (good : c.result = .ok response) (kept : response.fromCache = true) :
    (∀ r r' : Request, cacheKey r = cacheKey r' ↔
      r.target = r'.target ∨ r.target.Overlaps r'.target ∨ r'.target.Overlaps r.target) ∧
    ∃ c₀ v, Latest (fun r => r.target = c.request.target ∨ r.target.Overlaps c.request.target ∨
        c.request.target.Overlaps r.target) before c₀ v ∧
      Json.ofText v.render = .ok response.value ∧
      (Latest (fun r => r.target = c.request.target) before c₀ response.value ↔
        ¬ (c₀.request.target.Overlaps c.request.target ∨
          c.request.target.Overlaps c₀.request.target) ∧ v.Exact) := by
  have keys (r r' : Request) : cacheKey r = cacheKey r' ↔
      r.target = r'.target ∨ r.target.Overlaps r'.target ∨ r'.target.Overlaps r.target := by
    rw [cacheKey_eq, cacheKey_eq, Target.key_eq_iff]
  obtain ⟨c₀, v, latest, settled, read⟩ := run.answered apart queueing caches nothing good kept
  have near := (keys c₀.request c.request).mp latest.of
  refine ⟨keys, c₀, v, latest.imp near fun r => (keys r c.request).mpr, read, ?_⟩
  constructor
  · intro own
    refine ⟨?_, (Json.ofText_render_iff settled read).mp (own.reads.unique latest.reads)⟩
    rintro (overlaps | overlaps)
    · exact overlaps.ne own.of
    · exact overlaps.ne own.of.symm
  · rintro ⟨alone, exacts⟩
    rw [(Json.ofText_render_iff settled read).mpr exacts]
    refine latest.imp (near.resolve_right alone) fun r same => ?_
    exact (keys r c.request).mpr (.inl same)

theorem apart_default : Apart {} := by
  intro key same
  have texts := congrArg String.toList same
  simp [OfflineQueue.cacheKey] at texts

/-- A document that begins with a comment. -/
def commented : Request where
  dataSourceId := "ds"
  method := .graphql
  url := "https://a/g"
  graphql := some ⟨.query, "#todos:\n\x7btodos\x7bid\x7d\x7d", .empty⟩

/-- What the server has to say. -/
def todos : Json := .obj [("todos", .arr [.obj [("id", .num (.int 1))]])]

def served : Reply where
  status := 200
  headers := [("content-type", "application/json")]
  body := Utf8.encode (Json.obj [("data", todos)]).render

def fetched : Response where
  status := 200
  headers := [("content-type", "application/json")]
  body := .json todos

def recalled : Response where
  status := 200
  body := .json todos
  fromCache := true

theorem served_fetched : served.toResponse true none = .ok fetched := by decide +kernel

theorem todos_reread : Json.ofText todos.render = .ok todos := by decide +kernel

theorem kept_read_belongs_iff_todos : ∃ s',
    Calls { queueing := true } {} fresh
      [⟨commented, none, .ok fetched⟩, ⟨commented, none, .ok recalled⟩] s' ∧
    ∃ c₀ v, Latest (fun r => r.target = commented.target ∨ r.target.Overlaps commented.target ∨
        commented.target.Overlaps r.target) [⟨commented, none, .ok fetched⟩] c₀ v ∧
      Json.ofText v.render = .ok todos ∧
      (Latest (fun r => r.target = commented.target) [⟨commented, none, .ok fetched⟩] c₀ todos ↔
        ¬ (c₀.request.target.Overlaps commented.target ∨
          commented.target.Overlaps c₀.request.target) ∧ v.Exact) := by
  obtain ⟨s', run⟩ := calls_of_shared {} (r := commented) rfl rfl rfl rfl rfl served_fetched rfl
    todos_reread
  have parted : Calls { queueing := true } {} fresh
      ([⟨commented, none, .ok fetched⟩] ++ ⟨commented, none, .ok recalled⟩ :: []) s' := run
  exact ⟨s', run, (kept_read_belongs_iff apart_default rfl rfl (fun _ => rfl) parted rfl rfl).2⟩

/-- Every kept read that answers a call is the latest one of the same target. -/
def AnswersBelong : Prop :=
  ∀ (x : Executor) (o : OfflineSettings) (s s' : State) (before after : List Call) (c : Call)
    (response : Response), Apart o → x.queueing = true → x.settings.cacheReads = true →
    (∀ key, s.stored (OfflineQueue.cacheKey o key) = none) → Calls x o s (before ++ c :: after) s' →
    c.result = .ok response → response.fromCache = true →
    ∃ c₀, Latest (fun r => r.target = c.request.target) before c₀ response.value

/-- The same document without its comment, at an endpoint that ends with it. -/
def uncommented : Request where
  dataSourceId := "ds"
  method := .graphql
  url := "https://a/g:#todos"
  graphql := some ⟨.query, "\n\x7btodos\x7bid\x7d\x7d", .empty⟩

/-- What was read at one endpoint is given to the other one, which has never been read. -/
theorem not_answersBelong : ¬ AnswersBelong := by
  intro belong
  have overlaps : commented.target.Overlaps uncommented.target :=
    .documents "https://a/g" "#todos" "\n\x7btodos\x7bid\x7d\x7d" .empty
  have shared : cacheKey commented = cacheKey uncommented := by
    rw [cacheKey_eq, cacheKey_eq, overlaps.key_eq]
  obtain ⟨s', run⟩ := calls_of_shared {} shared rfl rfl rfl rfl served_fetched rfl todos_reread
  obtain ⟨c₀, earlier, later, split, same, -⟩ := belong _ _ _ _ [_] [] _ recalled apart_default rfl
    rfl (fun _ => rfl) run rfl rfl
  have only : c₀ ∈ [(⟨commented, none, .ok fetched⟩ : Call)] := by
    rw [split]
    simp
  rw [List.mem_singleton.mp only] at same
  exact overlaps.ne same

end Executor

end ScreenFlow
