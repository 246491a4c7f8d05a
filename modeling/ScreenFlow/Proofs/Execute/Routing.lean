import ScreenFlow.Proofs.Execute.Effects
import ScreenFlow.Proofs.Execute.Outside

/-!
# Offline routing

Where a call goes while there is no connection, and where it goes when no answer can be got.

* `Falls`, `Ended`: what becomes of a call and of the queue, without an answer from the server and
  after all attempts;
* `offline_routed`: mutations are queued and reads looked up in these two cases only, reads are kept
  only if they succeed, and a cancelled call changes nothing;
* `not_queuesOffline_answersOffline`: a mutation is not queued if the queue cannot be read, and a
  kept read is no answer if it cannot.
-/

namespace ScreenFlow.Executor

open OfflineQueue (State Queueing)

variable {x : Executor} {r : Request} {expected : Option ResponseType} {offline : Bool}
  {history : List (Happening interface)} {result reached : Except Fault Response}
  {o : OfflineSettings} {mayFail others : Prop} {s s' : Outside}

/-! ### Without an answer from the server -/

/-- The event was put at the end of the queue, with a later stamp than all others. -/
def Adds (o : OfflineSettings) (e : OfflineEvent) (s s' : State) : Prop :=
  ∃ queued stamp, OfflineQueue.queueOf (.ok (s.stored o.queueKey)) = .ok queued ∧
    (∀ q ∈ queued, q.createdAt < stamp) ∧
    s'.stored = (s.saved o (queued ++ [{ e with createdAt := stamp }])).stored

theorem adds_of_queueing {e : OfflineEvent} {id : String} {s s' : State}
    (h : Queueing o mayFail e s (.ok id) s') : id = e.id ∧ Adds o e s s' := by
  cases h with
  | queued reads now =>
    rcases reads with same | ⟨-, f, failed⟩
    · exact ⟨rfl, _, _, same.symm, fun q hq => OfflineQueue.lt_nextStamp now _ hq, rfl⟩
    · cases failed

/-- The queue cannot be read, or the store fails. -/
theorem refused_of_queueing {e : OfflineEvent} {f : OfflineError} {s s' : State}
    (h : Queueing o mayFail e s (.error f) s') :
    (mayFail ∨ OfflineQueue.queueOf (.ok (s.stored o.queueKey)) = .error f) ∧
      s'.stored = s.stored := by
  cases h with
  | unread reads =>
    rcases reads with same | ⟨may, -⟩
    · exact ⟨.inr same.symm, rfl⟩
    · exact ⟨.inl may, rfl⟩
  | unwritten _ _ may => exact ⟨.inl may, rfl⟩

/-- What was kept of earlier reads with this key. -/
def keptRead (o : OfflineSettings) (key : String) (s : State) : Except OfflineError (Option Json) :=
  (Store.readJson (.ok (s.stored (OfflineQueue.cacheKey o key)))).mapError .store

/-- All that can become of a call without an answer from the server, after the fault `cause` if
there was one: what it asks the queue, what it returns, and what it leaves. -/
inductive Falls (o : OfflineSettings) (mayFail : Prop) (r : Request) (cause : Option Fault)
    (s : Outside) : Ask → Except Fault Response → Outside → Prop
  | added {s' : Outside} (mutating : r.isMutating = true) (id : String)
      (adds : Adds o (OfflineEvent.ofRequest id r s.live) s.queue s'.queue) :
      Falls o mayFail r cause s (.enqueue (OfflineEvent.ofRequest id r s.live))
        (.ok (.accepted id)) s'
  | refused {s' : Outside} (mutating : r.isMutating = true) (id : String) {f : OfflineError}
      (why : mayFail ∨ OfflineQueue.queueOf (.ok (s.queue.stored o.queueKey)) = .error f)
      (same : s'.queue.stored = s.queue.stored) :
      Falls o mayFail r cause s (.enqueue (OfflineEvent.ofRequest id r s.live))
        (.error f.toFault) s'
  | found (reads : r.isMutating = false) {value : Json}
      (there : keptRead o (cacheKey r) s.queue = .ok (some value)) :
      Falls o mayFail r cause s (.cached (cacheKey r))
        (.ok { status := 200, body := .json value, fromCache := true }) s
  | missing (reads : r.isMutating = false) (absent : keptRead o (cacheKey r) s.queue = .ok none) :
      Falls o mayFail r cause s (.cached (cacheKey r)) (.error (cause.getD (uncached r))) s
  | unreadable (reads : r.isMutating = false) {f : OfflineError}
      (why : mayFail ∨ keptRead o (cacheKey r) s.queue = .error f) :
      Falls o mayFail r cause s (.cached (cacheKey r)) (.error (cause.getD f.toFault)) s

theorem ofRequest_id (id : String) (r : Request) (token : Option String) :
    (OfflineEvent.ofRequest id r token).id = id := by
  cases hg : r.graphql <;> simp [OfflineEvent.ofRequest, hg]

theorem falls_of_allows {cause : Option Fault} (falls : FallsBack r cause history result)
    (allows : (outside o mayFail others).Allows s history s') :
    ∃ q, asked history = [q] ∧ Falls o mayFail r cause s q result s' := by
  cases falls with
  | queued mutating token id a =>
    obtain ⟨rfl, named⟩ := allows_token_iff.mp allows
    obtain ⟨queue, leads, closed⟩ := allows_enqueue_iff.mp (allows_newEventId_iff.mp named)
    obtain rfl := Surroundings.allows_nil_iff.mp closed
    obtain ⟨-, queueing⟩ := OfflineQueue.leads_enqueue_iff.mp leads
    refine ⟨_, rfl, ?_⟩
    cases a with
    | ok id' =>
      obtain ⟨same, adds⟩ := adds_of_queueing queueing
      obtain rfl : id' = id := same.trans (ofRequest_id ..)
      exact .added mutating id' adds
    | error f =>
      obtain ⟨why, same⟩ := refused_of_queueing queueing
      exact .refused mutating id why same
  | read reads a =>
    obtain ⟨s₁, ⟨live, leads⟩, rest⟩ := Surroundings.allows_cons_iff.mp allows
    obtain rfl : s' = s₁ := Surroundings.allows_nil_iff.mp rest
    obtain ⟨looks, queue⟩ := OfflineQueue.leads_cached_iff.mp leads
    obtain rfl : s' = s := by
      cases s'
      cases s
      cases live
      cases queue
      rfl
    refine ⟨_, rfl, ?_⟩
    cases a with
    | error f =>
      refine .unreadable reads ?_
      rcases looks with same | ⟨may, -⟩
      · exact .inr same.symm
      · exact .inl may
    | ok got =>
      have there : keptRead o (cacheKey r) s'.queue = .ok got := by
        rcases looks with same | ⟨-, f, failed⟩
        · exact same.symm
        · cases failed
      cases got with
      | none => exact .missing reads there
      | some value => exact .found reads there

/-! ### After the attempts -/

/-- All that can become of a call whose attempts have come to something. -/
inductive Ended (o : OfflineSettings) (mayFail : Prop) (x : Executor) (r : Request)
    (reached : Except Fault Response) (s : Outside) :
    List Ask → Except Fault Response → Outside → Prop
  | lost {m : String} (none : reached = .error (.transport m)) {q : Ask}
      {result : Except Fault Response} {s' : Outside}
      (falls : Falls o mayFail r (some (.transport m)) s q result s') :
      Ended o mayFail x r reached s [q] result s'
  | kept (kept : Kept x r reached) {response : Response} (good : reached = .ok response)
      {s' : Outside}
      (keeps : s'.queue = s.queue.put (OfflineQueue.cacheKey o (cacheKey r))
        (some response.value.render) ∨ mayFail ∧ s'.queue = s.queue) :
      Ended o mayFail x r reached s [.keep (cacheKey r) response.value] reached s'
  | left (unkept : ¬ Kept x r reached) (answered : ¬ Unanswered reached) :
      Ended o mayFail x r reached s [] reached s

theorem ended_of_allows (settles : Settles x r true reached history result)
    (allows : (outside o mayFail others).Allows s history s') :
    Ended o mayFail x r reached s (asked history) result s' := by
  cases settles with
  | kept _ kept good =>
    obtain ⟨s₁, ⟨-, a, leads⟩, rest⟩ := Surroundings.allows_cons_iff.mp allows
    obtain rfl : s' = s₁ := Surroundings.allows_nil_iff.mp rest
    refine .kept kept good ?_
    rcases OfflineQueue.leads_keep_iff.mp leads with ⟨-, same⟩ | ⟨may, _, -, same⟩
    · exact .inl same
    · exact .inr ⟨may, same⟩
  | fellBack _ lost falls =>
    obtain ⟨q, asks, falls⟩ := falls_of_allows falls allows
    rw [asks]
    exact .lost lost falls
  | plain other =>
    obtain rfl : s' = s := Surroundings.allows_nil_iff.mp allows
    exact .left (other rfl).1 (other rfl).2

theorem Falls.enqueues_iff {cause : Option Fault} {q : Ask}
    (h : Falls o mayFail r cause s q result s') : (∃ e, q = .enqueue e) ↔ r.isMutating = true := by
  cases h with
  | added mutating id | refused mutating id => exact ⟨fun _ => mutating, fun _ => ⟨_, rfl⟩⟩
  | found reads | missing reads | unreadable reads =>
    constructor
    · rintro ⟨e, same⟩
      cases same
    · intro mutating
      rw [reads] at mutating
      cases mutating

theorem Falls.ne_keep {cause : Option Fault} {q : Ask}
    (h : Falls o mayFail r cause s q result s') (key : String) (value : Json) :
    q ≠ .keep key value := by
  cases h <;> exact fun same => by cases same

/-- An event is handed to the queue exactly if a mutation got no answer. -/
theorem Ended.enqueues_iff {qs : List Ask} (h : Ended o mayFail x r reached s qs result s') :
    (∃ e, .enqueue e ∈ qs) ↔ r.isMutating = true ∧ Unanswered reached := by
  cases h with
  | @lost m none q result s' falls =>
    rw [← falls.enqueues_iff]
    simp [Unanswered, none, eq_comm]
  | kept kept good =>
    constructor
    · rintro ⟨e, he⟩
      cases List.mem_singleton.mp he
    · rintro ⟨-, m, none⟩
      rw [good] at none
      cases none
  | left unkept answered =>
    constructor
    · rintro ⟨e, he⟩
      cases he
    · exact fun h => absurd h.2 answered

/-- A read is kept exactly if it has succeeded, and if that is wanted and can be done. -/
theorem Ended.keeps_iff {qs : List Ask} (h : Ended o mayFail x r reached s qs result s') :
    (∃ key value, .keep key value ∈ qs) ↔ Kept x r reached := by
  cases h with
  | lost none falls =>
    constructor
    · rintro ⟨key, value, hmem⟩
      exact absurd (List.mem_singleton.mp hmem).symm (falls.ne_keep key value)
    · rintro ⟨-, response, good, -⟩
      rw [none] at good
      cases good
  | kept kept good => exact ⟨fun _ => kept, fun _ => ⟨_, _, List.mem_singleton.mpr rfl⟩⟩
  | left unkept answered =>
    constructor
    · rintro ⟨key, value, hmem⟩
      cases hmem
    · exact fun kept => absurd kept unkept

/-! ### Cancelled calls -/

/-- The call was told that it is cancelled. -/
def Interrupts : Happening interface → Prop
  | ⟨.cancelled, a⟩ => a = true
  | ⟨.send .., a⟩ => a = none
  | ⟨.pause _, a⟩ => a = false
  | ⟨.refresh, a⟩ => a = none
  | _ => False

theorem Drawn.goes_on (h : Drawn history) : ∀ e ∈ history, ¬ Interrupts e := by
  intro e he
  obtain ⟨q, a⟩ := e
  obtain rfl : q = .draw := h _ he
  exact not_false

theorem Tries.cancelled {left : Nat} (h : Tries x r expected left history result)
    {e : Happening interface} (he : e ∈ history) (interrupts : Interrupts e) :
    result = .error .cancelled := by
  have attempt {s : Sent} (he : e ∈ x.attempted r s) : False := by
    simp only [attempted, List.mem_cons, List.not_mem_nil, or_false] at he
    rcases he with rfl | rfl
    · cases interrupts
    · cases interrupts
  induction h with
  | stopped | cut | woken => rfl
  | settled => exact (attempt he).elim
  | exhausted =>
    rcases List.mem_append.mp he with he | he
    · exact (attempt he).elim
    · obtain rfl := List.mem_singleton.mp he
      exact interrupts.elim
  | again _ _ draws d _ ih =>
    rcases List.mem_append.mp he with he | he
    · exact (attempt he).elim
    rcases List.mem_append.mp he with he | he
    · exact absurd interrupts (draws.goes_on e he)
    rcases List.mem_cons.mp he with rfl | he
    · cases interrupts
    · exact ih he

theorem Renews.cancelled (h : Renews x r expected history result) {e : Happening interface}
    (he : e ∈ history) (interrupts : Interrupts e) : result = .error .cancelled := by
  cases h with
  | stopped | cut | stoppedAgain | cutAgain => rfl
  | failed | again =>
    simp only [List.mem_cons, List.not_mem_nil, or_false] at he
    rcases he with rfl | rfl | rfl | rfl <;> cases interrupts

theorem Attempts.cancelled (h : Attempts x r expected history result) {e : Happening interface}
    (he : e ∈ history) (interrupts : Interrupts e) : result = .error .cancelled := by
  cases h with
  | tried tries => exact tries.cancelled he interrupts
  | denied tries =>
    rcases List.mem_append.mp he with he | he
    · cases tries.cancelled he interrupts
    · obtain rfl := List.mem_singleton.mp he
      exact interrupts.elim
  | renewed tries renews =>
    rcases List.mem_append.mp he with he | he
    · cases tries.cancelled he interrupts
    rcases List.mem_cons.mp he with rfl | he
    · exact interrupts.elim
    · exact renews.cancelled he interrupts

theorem FallsBack.goes_on {cause : Option Fault} (h : FallsBack r cause history result) :
    ∀ e ∈ history, ¬ Interrupts e := by
  intro e he
  cases h <;> simp only [List.mem_cons, List.not_mem_nil, or_false] at he
  · rcases he with rfl | rfl | rfl <;> exact not_false
  · rcases he with rfl
    exact not_false

theorem Settles.goes_on (h : Settles x r offline reached history result) :
    ∀ e ∈ history, ¬ Interrupts e := by
  cases h with
  | kept =>
    intro e he
    obtain rfl := List.mem_singleton.mp he
    exact not_false
  | fellBack _ _ falls => exact falls.goes_on
  | plain => exact fun e he => (List.not_mem_nil he).elim

/-- Whoever is told that the call is cancelled stops at once. -/
theorem cancelled_of_interrupts (h : (x.run r expected offline).Ends history result)
    {e : Happening interface} (he : e ∈ history) (interrupts : Interrupts e) :
    result = .error .cancelled := by
  cases course_of_ends h with
  | streaming => cases he
  | cancelled => rfl
  | unconnected _ _ falls =>
    rcases List.mem_cons.mp he with rfl | he
    · cases interrupts
    rcases List.mem_cons.mp he with rfl | he
    · exact interrupts.elim
    · exact absurd interrupts (falls.goes_on e he)
  | connected _ goes settles =>
    rcases List.mem_cons.mp he with rfl | he
    · cases interrupts
    rcases List.mem_append.mp he with he | he
    · cases offline with
      | false => cases he
      | true =>
        obtain rfl := List.mem_singleton.mp he
        exact interrupts.elim
    rcases List.mem_append.mp he with he | he
    · obtain rfl := (attempts_of_ends goes).cancelled he interrupts
      exact settles.of_cancelled.2
    · exact absurd interrupts (settles.goes_on e he)

/-- Falling back has some other outcome. -/
theorem FallsBack.ne_cancelled {cause : Option Fault} (h : FallsBack r cause history result)
    (other : cause ≠ some .cancelled) : result ≠ .error .cancelled := by
  cases h with
  | queued _ _ _ a => cases a <;> simp [queueAnswer, OfflineError.toFault]
  | read _ a =>
    rcases a with f | _ | value
    · cases cause with
      | none => simp [readAnswer, OfflineError.toFault]
      | some c => simpa [readAnswer] using other
    · cases cause with
      | none => simp [readAnswer, uncached]
      | some c => simpa [readAnswer] using other
    · simp [readAnswer]

/-- A cancelled call hands no event to the queue and keeps nothing. -/
theorem asked_of_cancelled (h : (x.run r expected offline).Ends history (.error .cancelled)) :
    ∀ q ∈ asked history, q = .isOnline := by
  cases course_of_ends h with
  | cancelled => exact fun q hq => (List.not_mem_nil hq).elim
  | unconnected _ _ falls => exact absurd rfl (falls.ne_cancelled nofun)
  | @connected _ went rest _ _ goes settles =>
    have closed : rest = [] := by
      cases settles with
      | kept _ _ good => cases good
      | fellBack _ _ falls => exact absurd rfl (falls.ne_cancelled (by simp))
      | plain => rfl
    have asks : asked (⟨.cancelled, false⟩ :: (found offline ++ (went ++ rest))) =
        asked (found offline) := by
      change asked (found offline ++ (went ++ rest)) = _
      rw [closed, asked_append, asked_append, (attempts_of_ends goes).unasked]
      simp [asked]
    rw [asks]
    intro q hq
    cases offline with
    | false => cases hq
    | true => exact List.mem_singleton.mp hq

/-! ### Whole calls -/

/-- A call that begins while there is no connection. -/
structure Unconnected (o : OfflineSettings) (mayFail : Prop) (r : Request) (s : Outside)
    (history : List (Happening interface)) (result : Except Fault Response) (s' : Outside) :
    Prop where
  unsent : sent history = []
  falls : ∃ q, asked history = [.isOnline, q] ∧ Falls o mayFail r none s q result s'

/-- A call that begins while there is a connection. Its attempts come to `reached`, and lead to the
state `s₁`; then it asks the queue `qs`. -/
structure Connected (o : OfflineSettings) (mayFail others : Prop) (x : Executor) (r : Request)
    (expected : Option ResponseType) (s : Outside) (history : List (Happening interface))
    (result : Except Fault Response) (s' : Outside) (reached : Except Fault Response) (s₁ : Outside)
    (qs : List Ask) : Prop where
  attempts : ∃ went rest, history = ⟨.cancelled, false⟩ :: ⟨.isOnline, true⟩ :: (went ++ rest) ∧
    (x.send r expected).Ends went reached ∧ asked went = []
  same : others ∨ s₁.queue = s.queue
  asked : asked history = .isOnline :: qs
  ended : Ended o mayFail x r reached s₁ qs result s'
  enqueues_iff : (∃ e, .enqueue e ∈ qs) ↔ r.isMutating = true ∧ Unanswered reached
  keeps_iff : (∃ key value, .keep key value ∈ qs) ↔ Kept x r reached

section Whole

variable (ends : (x.run r expected true).Ends history result)
  (allows : (outside o mayFail others).Allows s history s')
include ends allows

theorem unconnected_of_ends (plain : r.isStreaming = false) (gone : s.queue.queue.online = false)
    (begun : history.head? = some ⟨.cancelled, false⟩) :
    Unconnected o mayFail r s history result s' := by
  cases course_of_ends ends with
  | streaming streams =>
    rw [plain] at streams
    cases streams
  | cancelled => cases begun
  | unconnected _ _ falls =>
    obtain ⟨-, falling⟩ := allows_isOnline_iff.mp (allows_cancelled_iff.mp allows)
    obtain ⟨q, asks, falls'⟩ := falls_of_allows falls falling
    refine ⟨falls.silent.sent, q, ?_, falls'⟩
    rw [← asks]
    rfl
  | connected =>
    obtain ⟨there, -⟩ := allows_isOnline_iff.mp (allows_cancelled_iff.mp allows)
    rw [gone] at there
    cases there

theorem connected_of_ends (plain : r.isStreaming = false) (there : s.queue.queue.online = true)
    (begun : history.head? = some ⟨.cancelled, false⟩) :
    ∃ reached s₁ qs, Connected o mayFail others x r expected s history result s' reached s₁ qs := by
  cases course_of_ends ends with
  | streaming streams =>
    rw [plain] at streams
    cases streams
  | cancelled => cases begun
  | unconnected =>
    obtain ⟨gone, -⟩ := allows_isOnline_iff.mp (allows_cancelled_iff.mp allows)
    rw [there] at gone
    cases gone
  | @connected _ went rest reached _ goes settles =>
    obtain ⟨-, tail⟩ := allows_isOnline_iff.mp (allows_cancelled_iff.mp allows)
    have going : (outside o mayFail others).Allows s (went ++ rest) s' := tail
    obtain ⟨s₁, attempting, settling⟩ := Surroundings.allows_append_iff.mp going
    have unasked := (attempts_of_ends goes).unasked
    have same : others ∨ s₁.queue = s.queue := by
      refine queue_of_only attempting fun q hq => ?_
      rw [unasked] at hq
      cases hq
    have ended := ended_of_allows settles settling
    refine ⟨reached, s₁, asked rest, ⟨went, rest, rfl, goes, unasked⟩, same, ?_, ended,
      ended.enqueues_iff, ended.keeps_iff⟩
    have whole : asked (went ++ rest) = asked rest := by
      rw [asked_append, unasked, List.nil_append]
    rw [← whole]
    rfl

end Whole

/-- Without a queue, nothing is asked of one. -/
theorem unasked_of_ends (h : (x.run r expected false).Ends history result) :
    asked history = [] := by
  cases course_of_ends h with
  | streaming | cancelled => rfl
  | unconnected _ on => cases on
  | @connected _ went rest _ _ goes settles =>
    have closed : rest = [] := by
      cases settles with
      | kept on => cases on
      | fellBack on => cases on
      | plain => rfl
    change asked (went ++ rest) = []
    rw [closed, asked_append, (attempts_of_ends goes).unasked]
    rfl

/-- A call ends, and while there is no connection it sends nothing: a mutation is queued and a read
is looked up. With a connection this happens only if the attempts end without an answer, and a read
is kept only if they end well. A cancelled call neither queues nor keeps anything, and a call
without the queue asks nothing of it. -/
theorem offline_routed (x : Executor) (r : Request) (expected : Option ResponseType)
    (o : OfflineSettings) (mayFail others : Prop) (s : Outside) (on : x.queueing = true)
    (plain : r.isStreaming = false) :
    (s.queue.Free → ∃ result s',
      (outside o mayFail others).Leads (x.execute r expected) s result s') ∧
    (∀ history result s', (x.execute r expected).Ends history result →
      (outside o mayFail others).Allows s history s' →
      (s.queue.queue.online = false → history.head? = some ⟨.cancelled, false⟩ →
        Unconnected o mayFail r s history result s') ∧
      (s.queue.queue.online = true → history.head? = some ⟨.cancelled, false⟩ →
        ∃ reached s₁ qs,
          Connected o mayFail others x r expected s history result s' reached s₁ qs) ∧
      ((∃ e ∈ history, Interrupts e) → result = .error .cancelled) ∧
      (result = .error .cancelled →
        (∀ q ∈ asked history, q = .isOnline) ∧ (others ∨ s'.queue = s.queue))) ∧
    (∀ history result s', (x.executeOnline r expected).Ends history result →
      (outside o mayFail others).Allows s history s' →
      asked history = [] ∧ (others ∨ s'.queue = s.queue)) := by
  refine ⟨fun free => ?_, fun history result s' ends allows => ?_,
    fun history result s' ends allows => ?_⟩
  · obtain ⟨result, s', leads, -⟩ := Surroundings.exists_leads (S := outside o mayFail others)
      (fun s free q => answered s free q) (x.execute r expected) free
    exact ⟨result, s', leads⟩
  · rw [execute, on] at ends
    refine ⟨unconnected_of_ends ends allows plain, connected_of_ends ends allows plain, ?_, ?_⟩
    · rintro ⟨e, he, interrupts⟩
      exact cancelled_of_interrupts ends he interrupts
    · rintro rfl
      have only := asked_of_cancelled ends
      exact ⟨only, queue_of_only allows only⟩
  · have unasked := unasked_of_ends ends
    refine ⟨unasked, queue_of_only allows fun q hq => ?_⟩
    rw [unasked] at hq
    cases hq

/-- A place without connection, where this is stored. -/
def unplugged (text : Option String) : Outside where
  queue := { queue := { online := false }, stored := fun _ => text }
  live := none

theorem offline_routed_unplugged :
    ∃ result s', (outside {} False False).Leads
      (({ queueing := true } : Executor).execute posting none) (unplugged none) result s' :=
  (offline_routed { queueing := true } posting none {} False False (unplugged none) rfl rfl).1 rfl

/-- A mutation that begins without a connection is always accepted. -/
def QueuesOffline : Prop :=
  ∀ (x : Executor) (r : Request) (expected : Option ResponseType) (o : OfflineSettings)
    (s : Outside) (history : List (Happening interface)) (result : Except Fault Response)
    (s' : Outside),
    x.queueing = true → r.isStreaming = false → r.isMutating = true → s.queue.queue.online = false →
    (x.execute r expected).Ends history result → (outside o False False).Allows s history s' →
    history.head? = some ⟨.cancelled, false⟩ → ∃ id, result = .ok (.accepted id)

/-- What happens if an event is not taken. -/
def refusing (f : OfflineError) : List (Happening interface) :=
  [⟨.cancelled, false⟩, ⟨.isOnline, false⟩, ⟨.token, none⟩, ⟨.newEventId, "e"⟩,
    ⟨.enqueue (OfflineEvent.ofRequest "e" posting none), .error f⟩]

/-- A read that begins without a connection is answered with what was kept of it, if it was kept. -/
def AnswersOffline : Prop :=
  ∀ (x : Executor) (r : Request) (expected : Option ResponseType) (o : OfflineSettings)
    (s : Outside) (history : List (Happening interface)) (result : Except Fault Response)
    (s' : Outside),
    x.queueing = true → r.isStreaming = false → r.isMutating = false → s.queue.queue.online = false →
    (x.execute r expected).Ends history result → (outside o False False).Allows s history s' →
    history.head? = some ⟨.cancelled, false⟩ →
      (∃ value, result = .ok { status := 200, body := .json value, fromCache := true }) ∨
        result = .error (uncached r)

/-- A request that reads what was posted. -/
def listing : Request where
  dataSourceId := "todos"
  method := .get
  url := "https://a/todos"

/-- A stored queue that cannot be read takes no event, and a kept read that cannot be read is no
answer. -/
theorem not_queuesOffline_answersOffline : ¬ QueuesOffline ∧ ¬ AnswersOffline := by
  constructor
  · intro queues
    obtain ⟨f, corrupt⟩ : ∃ f, OfflineQueue.queueOf (.ok (some "not json")) = .error f := ⟨_, rfl⟩
    have ends : (({ queueing := true } : Executor).execute posting none).Ends
        (refusing f) (.error f.toFault) := by
      iterate 5 apply Process.Ends.asked
      exact .done _
    have free : (unplugged (some "not json")).queue.Free := rfl
    have refused : Queueing {} False (OfflineEvent.ofRequest "e" posting none)
        (unplugged (some "not json")).queue (.error f) _ := .unread (.inl corrupt.symm)
    have leads := OfflineQueue.leads_enqueue_iff.mpr ⟨OfflineQueue.hasTurn_of_free free, refused⟩
    have allows :
        (outside {} False False).Allows (unplugged (some "not json")) (refusing f) ⟨_, none⟩ :=
      allows_cancelled_iff.mpr (allows_isOnline_iff.mpr ⟨rfl, allows_token_iff.mpr ⟨rfl,
        allows_newEventId_iff.mpr (allows_enqueue_iff.mpr ⟨_, leads, .nil _⟩)⟩⟩)
    obtain ⟨id, accepted⟩ := queues _ _ _ _ _ _ _ _ rfl rfl rfl rfl ends allows rfl
    cases accepted
  · intro answers
    obtain ⟨f, corrupt⟩ : ∃ f, keptRead {} (cacheKey listing) (unplugged (some "not json")).queue =
        .error (.store f) := ⟨_, rfl⟩
    have ends : (({ queueing := true } : Executor).execute listing none).Ends
        [⟨.cancelled, false⟩, ⟨.isOnline, false⟩, ⟨.cached (cacheKey listing), .error (.store f)⟩]
        (.error (OfflineError.store f).toFault) := by
      iterate 3 apply Process.Ends.asked
      exact .done _
    have looks : (unplugged (some "not json")).queue.Looks {} False (cacheKey listing)
        (.error (.store f)) := .inl corrupt.symm
    have leads := OfflineQueue.leads_cached_iff.mpr ⟨looks, rfl⟩
    have allows : (outside {} False False).Allows (unplugged (some "not json"))
        [⟨.cancelled, false⟩, ⟨.isOnline, false⟩, ⟨.cached (cacheKey listing), .error (.store f)⟩]
        (unplugged (some "not json")) :=
      allows_cancelled_iff.mpr (allows_isOnline_iff.mpr ⟨rfl,
        Surroundings.allows_cons_iff.mpr ⟨_, ⟨rfl, leads⟩, .nil _⟩⟩)
    rcases answers _ _ _ _ _ _ _ _ rfl rfl rfl rfl ends allows rfl with ⟨value, same⟩ | same
    · cases same
    · cases same

end ScreenFlow.Executor
