import ScreenFlow.Dispatch.Replay
import ScreenFlow.Proofs.Execute.Effects
import ScreenFlow.Proofs.Resolve.HeaderFields
import ScreenFlow.Proofs.Offline.Replaying

/-!
# Spellings of replayed headers

A queued event becomes a request from what it has stored, or is resolved again, and then the headers
that it has stored are added. The latter are compared by their very spelling.

* `Executor.sent_cases`, `Executor.exists_sent`: what a call hands to the transport;
* `Replay.executed_of_ends`, `Replay.exists_ends`: what a replay executes;
* `Replay.handed_oneSpelling_iff`: when everything that a replay hands to the transport has one
  spelling of each header;
* `Replay.not_keepsSpellings`: a stored header in another spelling than the resolved one.
-/

namespace ScreenFlow

namespace Executor

variable {x : Executor} {r q : Request} {expected : Option ResponseType} {offline : Bool}
  {history : List (Happening interface)} {result : Except Fault Response}

theorem Renews.sent_cases (h : Renews x r expected history result) (hq : q ∈ sent history) :
    ∃ token, q = reauthorized r token := by
  cases h with
  | cutAgain token | again token =>
    obtain rfl := List.mem_singleton.mp hq
    exact ⟨token, rfl⟩
  | stopped | cut | failed | stoppedAgain => cases hq

theorem Attempts.sent_cases (h : Attempts x r expected history result) (hq : q ∈ sent history) :
    q = r ∨ ∃ token, q = reauthorized r token := by
  have first {left : Nat} {tried : List (Happening interface)} {reached : Except Fault Response}
      (tries : Tries x r expected left tried reached) (hq : q ∈ sent tried) : q = r := by
    obtain ⟨k, -, same⟩ := tries.sent_eq
    exact List.eq_of_mem_replicate (same ▸ hq)
  cases h with
  | tried tries => exact .inl (first tries hq)
  | denied tries =>
    rw [sent_append] at hq
    exact .inl (first tries ((List.mem_append.mp hq).resolve_right List.not_mem_nil))
  | renewed tries renews =>
    rw [sent_append] at hq
    rcases List.mem_append.mp hq with early | late
    · exact .inl (first tries early)
    · exact .inr (renews.sent_cases late)

/-- What is sent is the request, or the request under a new session token; no stream is sent. -/
theorem sent_cases (h : (x.run r expected offline).Ends history result) (hq : q ∈ sent history) :
    r.isStreaming = false ∧ (q = r ∨ ∃ token, q = reauthorized r token) := by
  cases course_of_ends h with
  | streaming | cancelled => cases hq
  | @unconnected _ _ fell _ falls =>
    have late : q ∈ sent fell := hq
    rw [falls.silent.sent] at late
    cases late
  | @connected plain went rest _ _ goes settles =>
    refine ⟨plain, (attempts_of_ends goes).sent_cases ?_⟩
    have begun : sent (⟨.cancelled, false⟩ :: found offline) = [] := (silent_begun offline).sent
    have parts : sent (⟨.cancelled, false⟩ :: (found offline ++ (went ++ rest))) =
        sent (⟨.cancelled, false⟩ :: found offline) ++ (sent went ++ sent rest) := by
      rw [← sent_append, ← sent_append]
      rfl
    rw [parts, begun, settles.silent.sent, List.append_nil, List.nil_append] at hq
    exact hq

/-- A call that is cut in its first attempt. -/
theorem exists_sent (x : Executor) (expected : Option ResponseType) (plain : r.isStreaming = false) :
    (x.executeOnline r expected).Ends
      [⟨.cancelled, false⟩, ⟨.cancelled, false⟩, ⟨.send r (x.budget r), none⟩]
      (.error .cancelled) := by
  obtain ⟨left, hleft⟩ : ∃ left, (x.policy r).maxAttempts = left + 1 :=
    Nat.exists_eq_succ_of_ne_zero (Nat.ne_of_gt (x.policy r).maxAttempts_pos)
  have tried : (x.withRetry r expected).Ends
      [⟨.cancelled, false⟩, ⟨.send r (x.budget r), none⟩] (.error .cancelled) := by
    show (x.attempting r expected (x.policy r) (x.policy r).maxAttempts 0).Ends _ _
    rw [hleft, attempting_succ]
    exact Process.ends_ask_iff.mpr ⟨false, _, rfl, Process.ends_ask_iff.mpr ⟨none, _, rfl, .done _⟩⟩
  have sends : (x.send r expected).Ends
      [⟨.cancelled, false⟩, ⟨.send r (x.budget r), none⟩] (.error .cancelled) :=
    Process.ends_bind_iff.mpr ⟨_, _, [], rfl, tried, .done _⟩
  simp only [executeOnline, run, ask, Process.call, Process.bind_def, Process.ask_bind,
    Process.done_bind, Process.pure_def, plain, Bool.false_eq_true, ↓reduceIte]
  refine Process.ends_ask_iff.mpr ⟨false, _, rfl, ?_⟩
  rw [if_neg Bool.false_ne_true]
  exact Process.ends_bind_iff.mpr ⟨_, _, [], rfl, sends, .done _⟩

end Executor

namespace Replay

/-- What the registry makes of an event, in some state and under some session token. -/
def Resolves (d : Dispatcher) (e : OfflineEvent) (q : Request) : Prop :=
  ∃ source scope live, d.registry.find [] e.dsId = .ok source ∧
    Resolver.resolve ⟨d.translate, live⟩ (sourceFor e source).1 d.defaults scope
      (sourceFor e source).2 = .ok q

/-- What an event becomes before a session token is attached. -/
inductive Rebuilds (d : Dispatcher) (e : OfflineEvent) : Request → Prop
  | stored {q : Request} (url : e.url.isSome = true) (made : e.toRequest = .ok q) : Rebuilds d e q
  | resolved {q : Request} (none : e.url = none) (resolves : Resolves d e q) :
      Rebuilds d e (addHeaders q (e.headers.getD []))

/-- The request with the session token of the moment, if the event is to carry one. -/
def attached (e : OfflineEvent) (q : Request) (live : Option String) : Request :=
  if e.sessionAuth then (q.attachSession live).2 else q

/-- While the event is replayed, this request is handed to the transport. -/
def Hands (d : Dispatcher) (x : Executor) (e : OfflineEvent) (q : Request) : Prop :=
  ∃ asked outcome r expected reached went,
    (replay d e).Ends asked outcome ∧ ⟨.executeOnline r expected, reached⟩ ∈ asked ∧
    (x.executeOnline r expected).Ends went reached ∧ q ∈ Executor.sent went

variable {d : Dispatcher} {x : Executor} {e : OfflineEvent} {q r : Request}
  {expected : Option ResponseType} {reached : Except Fault Response}
  {asked : List (Happening interface)} {outcome : Except Fault Unit}

theorem addHeaders_eq (q : Request) (headers : Headers) :
    addHeaders q headers = { q with headers := q.headers.addNew headers } := by
  induction headers generalizing q with
  | nil => rfl
  | cons h headers ih => exact ih _

/-- Other questions than the one for an execution. -/
def Preparing (q : Ask) : Prop := ∀ r expected, q ≠ .executeOnline r expected

theorem preparing_snapshot : Preparing .snapshot := fun _ _ h => by cases h

theorem preparing_token : Preparing .token := fun _ _ h => by cases h

theorem preparing_setState (path : String) (value : Json) : Preparing (.setState path value) :=
  fun _ _ h => by cases h

theorem request_asks (d : Dispatcher) (e : OfflineEvent) : (request d e).Asks Preparing := by
  unfold request resolveAgain
  split
  · trivial
  split
  · trivial
  · exact ⟨preparing_snapshot, fun _ => ⟨preparing_token, fun _ => trivial⟩⟩

theorem authenticate_asks (e : OfflineEvent) (q : Request) : (authenticate e q).Asks Preparing := by
  unfold authenticate
  split
  · exact ⟨preparing_token, fun _ => trivial⟩
  · trivial

/-- What a replay does with the answer to its request. -/
def recording (e : OfflineEvent) : Except Fault Response → Operation (Except Fault Unit)
  | .error f => return .error f
  | .ok response => do
    match e.statePath with
    | some path => ask (.setState path response.value)
    | none => pure ()
    return .ok ()

theorem recording_asks (e : OfflineEvent) (a : Except Fault Response) :
    (recording e a).Asks Preparing := by
  unfold recording
  split
  · trivial
  · cases e.statePath with
    | none => trivial
    | some path => exact ⟨preparing_setState _ _, fun _ => trivial⟩

theorem replay_eq (d : Dispatcher) (e : OfflineEvent) :
    replay d e = (request d e).bind fun
      | .error f => .done (.error f)
      | .ok q => (authenticate e q).bind fun r =>
        .ask (.executeOnline r e.responseType) (recording e) := by
  simp only [replay, ask, Process.call, Process.bind_def, Process.ask_bind, Process.done_bind,
    Process.pure_def]
  congr 1
  funext made
  cases made with
  | error f => rfl
  | ok q =>
    dsimp only
    congr 1
    funext r
    congr 1
    funext a
    cases a <;> rfl

theorem resolveAgain_eq {source : DataSource} (found : d.registry.find [] e.dsId = .ok source) :
    resolveAgain d e = .ask .snapshot fun scope => .ask .token fun live =>
      .done ((Resolver.resolve ⟨d.translate, live⟩ (sourceFor e source).1 d.defaults scope
        (sourceFor e source).2).map (addHeaders · (e.headers.getD []))) := by
  rw [resolveAgain, found]
  rfl

theorem rebuilds_of_ends {first : List (Happening interface)}
    (h : (request d e).Ends first (.ok q)) : Rebuilds d e q := by
  rw [request] at h
  split at h
  · rename_i url
    exact .stored url (Process.ends_done_iff.mp h).2.symm
  rename_i url
  have none : e.url = none := by simpa using url
  cases found : d.registry.find [] e.dsId with
  | error f =>
    rw [resolveAgain, found] at h
    cases (Process.ends_done_iff.mp h).2
  | ok source =>
    rw [resolveAgain_eq found] at h
    obtain ⟨scope, _, -, h⟩ := Process.ends_ask_iff.mp h
    obtain ⟨live, _, -, h⟩ := Process.ends_ask_iff.mp h
    obtain ⟨q₀, resolved, rfl⟩ := ok_of_map (Process.ends_done_iff.mp h).2.symm
    exact .resolved none ⟨source, scope, live, found, resolved⟩

theorem exists_request (h : Rebuilds d e q) : ∃ first, (request d e).Ends first (.ok q) := by
  cases h with
  | stored url made =>
    refine ⟨[], ?_⟩
    rw [request, if_pos url]
    exact Process.ends_done_iff.mpr ⟨rfl, made.symm⟩
  | @resolved q none resolves =>
    obtain ⟨source, scope, live, found, resolved⟩ := resolves
    refine ⟨[⟨.snapshot, scope⟩, ⟨.token, live⟩], ?_⟩
    rw [request, if_neg (by simp [none]), resolveAgain_eq found]
    refine Process.ends_ask_iff.mpr ⟨scope, _, rfl, Process.ends_ask_iff.mpr ⟨live, _, rfl, ?_⟩⟩
    exact Process.ends_done_iff.mpr ⟨rfl, by rw [resolved]; rfl⟩

theorem attached_of_ends {first : List (Happening interface)}
    (h : (authenticate e q).Ends first r) : ∃ live, r = attached e q live := by
  unfold authenticate at h
  unfold attached
  split at h
  · rename_i auth
    obtain ⟨live, _, -, h⟩ := Process.ends_ask_iff.mp h
    exact ⟨live, by rw [if_pos auth, (Process.ends_done_iff.mp h).2]⟩
  · rename_i auth
    exact ⟨none, by rw [if_neg auth, (Process.ends_done_iff.mp h).2]⟩

theorem exists_authenticate (e : OfflineEvent) (q : Request) (live : Option String) :
    ∃ first, (authenticate e q).Ends first (attached e q live) := by
  unfold authenticate attached
  split
  · exact ⟨[⟨.token, live⟩], Process.ends_ask_iff.mpr ⟨live, [], rfl, .done _⟩⟩
  · exact ⟨[], .done _⟩

/-- What is executed is what the event becomes, with the session token if the event asks for it. -/
theorem executed_of_ends (h : (replay d e).Ends asked outcome)
    (hr : ⟨.executeOnline r expected, reached⟩ ∈ asked) :
    ∃ q live, Rebuilds d e q ∧ r = attached e q live := by
  rw [replay_eq] at h
  obtain ⟨first, made, rest, rfl, hfirst, begun⟩ := Process.ends_bind_iff.mp h
  have late : ⟨.executeOnline r expected, reached⟩ ∈ rest :=
    (List.mem_append.mp hr).resolve_left fun early =>
      (request_asks d e).of_ends hfirst _ early _ _ rfl
  cases made with
  | error f =>
    obtain ⟨rfl, -⟩ := Process.ends_done_iff.mp begun
    cases late
  | ok q =>
    obtain ⟨second, r', rest, rfl, hsecond, goes⟩ := Process.ends_bind_iff.mp begun
    obtain ⟨live, rfl⟩ := attached_of_ends hsecond
    have later : ⟨.executeOnline r expected, reached⟩ ∈ rest :=
      (List.mem_append.mp late).resolve_left fun early =>
        (authenticate_asks e q).of_ends hsecond _ early _ _ rfl
    obtain ⟨a, after, rfl, records⟩ := Process.ends_ask_iff.mp goes
    refine ⟨q, live, rebuilds_of_ends hfirst, ?_⟩
    rcases List.mem_cons.mp later with here | last
    · injection here with same
      injection same
    · exact absurd rfl ((recording_asks e a).of_ends records _ last r expected)

/-- What the event becomes can be executed, with any session token, and may fail. -/
theorem exists_ends (h : Rebuilds d e q) (live : Option String) (f : Fault) :
    ∃ asked, (replay d e).Ends asked (.error f) ∧
      ⟨.executeOnline (attached e q live) e.responseType, .error f⟩ ∈ asked := by
  obtain ⟨first, hfirst⟩ := exists_request h
  obtain ⟨second, hsecond⟩ := exists_authenticate e q live
  refine ⟨first ++ (second ++ [⟨.executeOnline (attached e q live) e.responseType, .error f⟩]), ?_,
    by simp⟩
  rw [replay_eq]
  refine Process.ends_bind_iff.mpr ⟨first, .ok q, _, rfl, hfirst, ?_⟩
  refine Process.ends_bind_iff.mpr ⟨second, attached e q live, _, rfl, hsecond, ?_⟩
  exact Process.ends_ask_iff.mpr ⟨.error f, [], rfl, .done _⟩

/-! ### What is handed to the transport -/

theorem attached_streaming (e : OfflineEvent) (q : Request) (live : Option String) :
    (attached e q live).isStreaming = q.isStreaming := by
  obtain ⟨hs, same⟩ := OfflineEvent.exists_headers q live e.sessionAuth
  rw [attached, same]
  rfl

theorem attached_oneSpelling_iff (e : OfflineEvent) (q : Request) (live : Option String) :
    (attached e q live).headers.OneSpelling ↔ q.headers.OneSpelling := by
  unfold attached
  split
  · exact Request.oneSpelling_attachSession_iff q live
  · rfl

theorem hands_of_rebuilds (x : Executor) (h : Rebuilds d e q) (plain : q.isStreaming = false)
    (live : Option String) : Hands d x e (attached e q live) := by
  obtain ⟨asked, ends, executed⟩ := exists_ends h live .cancelled
  have sends := Executor.exists_sent x e.responseType (attached_streaming e q live ▸ plain)
  exact ⟨asked, _, _, _, _, _, ends, executed, sends, List.mem_singleton.mpr rfl⟩

/-- What is handed to the transport is what the event becomes, but for the session header. -/
theorem rebuilds_of_hands (h : Hands d x e r) : ∃ q, Rebuilds d e q ∧ q.isStreaming = false ∧
    (q.headers.OneSpelling → r.headers.OneSpelling) := by
  obtain ⟨asked, outcome, r₀, expected, reached, went, ends, executed, sends, sent⟩ := h
  obtain ⟨q, live, rebuilds, rfl⟩ := executed_of_ends ends executed
  obtain ⟨plain, same⟩ := Executor.sent_cases sends sent
  refine ⟨q, rebuilds, attached_streaming e q live ▸ plain, fun distinct => ?_⟩
  have first := (attached_oneSpelling_iff e q live).mpr distinct
  rcases same with rfl | ⟨token, rfl⟩
  · exact first
  · exact first.set _ _

theorem headers_of_toRequest (h : e.toRequest = .ok q) : q.headers = e.headers.getD [] := by
  cases url : e.url with
  | none =>
    rw [OfflineEvent.toRequest, url] at h
    cases h
  | some base =>
    rw [OfflineEvent.toRequest_eq url] at h
    obtain ⟨p, -, rfl⟩ := ok_of_map h
    rfl

/-- Everything that a replay hands to the transport has one spelling of each header exactly if the
event has stored its URL, or no header that it has stored is one that the resolved request has in
another spelling. -/
theorem handed_oneSpelling_iff (d : Dispatcher) (x : Executor) (e : OfflineEvent)
    (distinct : Headers.OneSpelling (e.headers.getD [])) :
    (∀ r, Hands d x e r → r.headers.OneSpelling) ↔
      e.url.isSome = true ∨ ∀ q, Resolves d e q → q.isStreaming = false →
        ∀ h ∈ e.headers.getD [], q.headers.Agrees h.1 := by
  constructor
  · intro each
    cases url : e.url with
    | some base => exact .inl rfl
    | none =>
      refine .inr fun q resolves plain => ?_
      obtain ⟨source, scope, live, found, resolved⟩ := resolves
      have rebuilds := Rebuilds.resolved url ⟨source, scope, live, found, resolved⟩
      have handed := hands_of_rebuilds x rebuilds (by rw [addHeaders_eq]; exact plain) live
      have spelled := (attached_oneSpelling_iff _ _ _).mp (each _ handed)
      rw [addHeaders_eq] at spelled
      exact (Headers.oneSpelling_addNew_iff (Resolver.oneSpelling_resolve resolved) distinct).mp
        spelled
  · intro agrees r hands
    obtain ⟨q, rebuilds, plain, spelled⟩ := rebuilds_of_hands hands
    refine spelled ?_
    cases rebuilds with
    | stored _ made => rwa [headers_of_toRequest made]
    | @resolved q none resolves =>
      rw [addHeaders_eq] at plain ⊢
      have agreed := agrees.resolve_left (by simp [none]) q resolves plain
      obtain ⟨source, scope, live, -, resolved⟩ := resolves
      exact (Headers.oneSpelling_addNew_iff (Resolver.oneSpelling_resolve resolved) distinct).mpr
        agreed

/-- A note to be posted, with its content type in lower case. -/
def noted : OfflineEvent where
  id := "e1"
  kind := .rest
  dsId := "notes"
  headers := some [("content-type", "application/json")]
  body := some (.obj [("n", .num (.int 1))])

/-- The event with its URL. -/
theorem handed_oneSpelling_stored :
    let e := { noted with url := some "https://api.test/notes" }
    Headers.OneSpelling (e.headers.getD []) ∧ ∀ r, Hands {} {} e r → r.headers.OneSpelling := by
  intro e
  have distinct : Headers.OneSpelling (e.headers.getD []) := by decide
  exact ⟨distinct, (handed_oneSpelling_iff {} {} e distinct).mpr (.inl rfl)⟩

/-- An event whose headers have one spelling each leads to requests whose headers have one spelling
each. -/
def KeepsSpellings : Prop :=
  ∀ (d : Dispatcher) (x : Executor) (e : OfflineEvent), Headers.OneSpelling (e.headers.getD []) →
    ∀ r, Hands d x e r → r.headers.OneSpelling

/-- The content type that resolving the event sets stands beside the one that it has stored. -/
theorem not_keepsSpellings : ¬ KeepsSpellings := by
  intro keeps
  let d : Dispatcher := {
    registry := ⟨[{ id := "notes", method := some .post, path := "https://api.test/notes" }]⟩ }
  let q : Request := {
    dataSourceId := "notes", method := .post, url := "https://api.test/notes"
    headers := [("Content-Type", "application/json")], body := .json (.obj [("n", .num (.int 1))]) }
  have resolves : Resolves d noted q :=
    ⟨_, .empty, none, rfl, ok_of_toOption (by decide +kernel)⟩
  have handed := hands_of_rebuilds {} (Rebuilds.resolved rfl resolves) rfl none
  have spelled := keeps d {} noted (by decide) _ handed
  revert spelled
  decide

end Replay

end ScreenFlow
