import ScreenFlow.Proofs.Dispatch.Streams

/-!
# Cancelling open streams

Which streams can be cancelled by the id of their invocation, in any pool that dispatches, cancellations
and the ends of streams lead to.

* `Attended`, `Moves.attended`: the registered dispatches are those in flight, step by step;
* `Exact`: what is active is what is in flight or streams, and a cancellation reaches every stream;
* `exact_iff`: the registry is exact where no open stream has met another one of its invocation.
-/

namespace ScreenFlow.Switchboard

variable {d : Dispatcher}

/-! ### Dispatches in flight and their entries -/

def Call.id? : Call → Option String
  | .dispatch i _ _ => some i.id
  | _ => none

theorem id?_of_under {c : Call} {id : String} (under : c.Under id) : c.id? = some id := by
  cases c with
  | dispatch => exact congrArg some under
  | _ => exact under.elim

/-- The ids under which dispatches have come. -/
def dispatchIds (p : Pool interface State Call Outcome) : List String :=
  (p.threads.map (·.call)).filterMap Call.id?

/-- A dispatch that is in flight, with its entry in the registry. -/
structure Flies (e : String × SignalId) (t : Thread interface Call Outcome) : Prop where
  inFlight : InFlight e.1 t
  entered : t.past.head? = some ⟨.enter e.1, e.2⟩

section

variable {p p' : Pool interface State Call Outcome} {i : Invocation} {h : EventHandler}
  {payload : Json} {signal : SignalId} {history : List (Happening Dispatch.interface)}
  {e : String × SignalId} {id : String}

theorem flies_waiting_iff {q : Dispatch.Ask} {next : Dispatch.Answer q → Dispatch.Operation Report} :
    Flies e ⟨.dispatch i h payload, serving i.id signal (.ask q next), past i.id signal history,
      false⟩ ↔ e = (i.id, signal) := by
  constructor
  · rintro ⟨⟨under, -, -⟩, entered⟩
    have same : i.id = e.1 := under
    have head : some (⟨.enter i.id, signal⟩ : Happening interface) = some ⟨.enter e.1, e.2⟩ :=
      entered
    obtain ⟨id, n⟩ := e
    cases head
    rfl
  · rintro rfl
    exact ⟨inFlight_waiting rfl, rfl⟩

theorem not_inFlight_done {c : Call} {o : Outcome} {pre : List (Happening interface)}
    {abandoned : Bool} : ¬ InFlight id ⟨c, .done o, pre, abandoned⟩ := by
  rintro ⟨-, -, q, next, waits⟩
  cases waits

theorem not_inFlight_abandoned {c : Call} {o : Operation Outcome}
    {pre : List (Happening interface)} : ¬ InFlight id ⟨c, o, pre, true⟩ := by
  rintro ⟨-, live, -⟩
  cases live

theorem Stands.flies {t : Thread interface Call Outcome} (stands : Stands d t)
    (flying : InFlight id t) : ∃ n, Flies (id, n) t := by
  cases stands with
  | @waiting i h payload signal =>
    have same : i.id = id := flying.under
    subst same
    exact ⟨signal, flying, rfl⟩
  | reported | settled => exact absurd flying not_inFlight_done

/-- Only one call is a dispatch under an id. -/
theorem eq_of_under (distinct : (dispatchIds p).Nodup) {j k : Nat}
    {t t' : Thread interface Call Outcome} (here : p.threads[j]? = some t)
    (there : p.threads[k]? = some t') (under : t.call.Under id) (under' : t'.call.Under id) :
    j = k := by
  rw [dispatchIds, List.filterMap_map, List.Nodup, List.pairwise_filterMap,
    List.pairwise_iff_getElem] at distinct
  obtain ⟨hj, rfl⟩ := List.getElem?_eq_some_iff.mp here
  obtain ⟨hk, rfl⟩ := List.getElem?_eq_some_iff.mp there
  rcases Nat.lt_trichotomy j k with lt | same | gt
  · exact absurd rfl (distinct j k hj hk lt id (id?_of_under under) id (id?_of_under under'))
  · exact same
  · exact absurd rfl (distinct k j hk hj gt id (id?_of_under under') id (id?_of_under under))

/-- One of the calls is the dispatch of this entry, and in flight. -/
def Aloft (threads : List (Thread interface Call Outcome)) (e : String × SignalId) : Prop :=
  ∃ (k : Nat) (t : Thread interface Call Outcome), threads[k]? = some t ∧ Flies e t

/-- The registry of a pool and its calls. -/
structure Attended (p : Pool interface State Call Outcome) : Prop where
  kept : Kept (dispatchIds p) p.state
  agrees : ∀ e, e ∈ p.state.active.dispatches ↔ Aloft p.threads e

/-- Another call comes. -/
theorem agrees_append {s : State} {t : Thread interface Call Outcome} (attended : Attended p)
    (mem : ∀ e, e ∈ s.active.dispatches ↔ e ∈ p.state.active.dispatches ∨ Flies e t) (e) :
    e ∈ s.active.dispatches ↔ Aloft (p.threads ++ [t]) e := by
  rw [mem, attended.agrees]
  constructor
  · rintro (⟨k, t', here, flies⟩ | flies)
    · have bound := (List.getElem?_eq_some_iff.mp here).1
      exact ⟨k, t', (List.getElem?_append_left bound).trans here, flies⟩
    · exact ⟨p.threads.length, t, List.getElem?_concat_length, flies⟩
  · rintro ⟨k, t', here, flies⟩
    rcases getElem?_concat_cases here with old | rfl
    · exact .inl ⟨k, t', old, flies⟩
    · exact .inr flies

/-- A dispatch in flight goes on, and stays in flight. -/
theorem agrees_set {s : State} {k : Nat} {t t' : Thread interface Call Outcome}
    (attended : Attended p) (same : s.active.dispatches = p.state.active.dispatches)
    (here : p.threads[k]? = some t) (stays : ∀ e, Flies e t' ↔ Flies e t) (e) :
    e ∈ s.active.dispatches ↔ Aloft (p.threads.set k t') e := by
  rw [same, attended.agrees]
  constructor
  · rintro ⟨j, t₁, there, flies⟩
    rcases getElem?_of_set t' there here with other | ⟨-, rfl, replaced⟩
    · exact ⟨j, t₁, other, flies⟩
    · exact ⟨j, t', replaced, (stays e).mpr flies⟩
  · rintro ⟨j, t₁, there, flies⟩
    rcases getElem?_set_cases there with ⟨rfl, rfl⟩ | ⟨-, old⟩
    · exact ⟨j, t, here, (stays e).mp flies⟩
    · exact ⟨j, t₁, old, flies⟩

/-- A dispatch in flight comes to its end, and unregisters itself. -/
theorem agrees_leave {s : State} {k : Nat} {t t' : Thread interface Call Outcome}
    (attended : Attended p) (distinct : (dispatchIds p).Nodup)
    (same : s.active.dispatches = p.state.active.dispatches) (here : p.threads[k]? = some t)
    (flying : InFlight id t) (ends : ∀ e, ¬ Flies e t') (e) :
    e ∈ (s.leave id).active.dispatches ↔ Aloft (p.threads.set k t') e := by
  have left : e ∈ (s.leave id).active.dispatches ↔ e ∈ s.active.dispatches ∧ e.1 ≠ id :=
    Active.mem_remove
  rw [left, same, attended.agrees]
  constructor
  · rintro ⟨⟨j, t₁, there, flies⟩, apart⟩
    rcases getElem?_of_set t' there here with other | ⟨-, rfl, -⟩
    · exact ⟨j, t₁, other, flies⟩
    · have both := (id?_of_under flies.inFlight.under).symm.trans (id?_of_under flying.under)
      exact absurd (Option.some.inj both) apart
  · rintro ⟨j, t₁, there, flies⟩
    rcases getElem?_set_cases there with ⟨rfl, rfl⟩ | ⟨apart, old⟩
    · exact absurd flies (ends e)
    · refine ⟨⟨j, t₁, old, flies⟩, fun heq => apart ?_⟩
      exact eq_of_under distinct old here (heq ▸ flies.inFlight.under) flying.under

theorem Kept.answers {used : List String} {s s' : State} (kept : Kept used s)
    {q : Dispatch.Ask} {x : Dispatch.Answer q} (flying : (id, signal) ∈ s.active.dispatches)
    (answer : HandlerAnswers s id signal q x s') :
    Kept used s' ∧ s'.active.dispatches = s.active.dispatches := by
  rcases answer.state with rfl | ⟨running, rfl⟩
  · exact ⟨kept, rfl⟩
  · exact ⟨kept.openStream flying running, rfl⟩

/-- A dispatch comes under an id of its own. -/
theorem attended_enters {s' : State} {r : Operation Outcome} {pre : List (Happening interface)}
    (attended : Attended p) (fresh : i.id ∉ dispatchIds p)
    (runs : surroundings.Runs (p.state.enter i.id).2
      (serving i.id (p.state.enter i.id).1 (Dispatch.dispatch d i h payload))
      (past i.id (p.state.enter i.id).1 []) s' r pre) :
    Attended ⟨s', p.threads ++ [⟨.dispatch i h payload, r, pre, false⟩]⟩ := by
  have ids : dispatchIds ⟨s', p.threads ++ [⟨.dispatch i h payload, r, pre, false⟩]⟩ =
      dispatchIds p ++ [i.id] := by
    simp [dispatchIds, Call.id?]
  have kept := attended.kept.enter fresh
  have mem : ∀ e, e ∈ (p.state.enter i.id).2.active.dispatches ↔
      e ∈ p.state.active.dispatches ∨ e = (i.id, p.state.signals.all.size) := by
    intro e
    refine Active.mem_put.trans (or_congr_left (and_iff_left_of_imp fun old heq => ?_))
    exact fresh (heq ▸ attended.kept.dispatches_used e old)
  rcases runs_serving_iff.mp runs with ⟨q, next, asks, rfl, rfl, rfl⟩ | ⟨report, -, rfl, rfl, rfl⟩
  · constructor
    · rw [ids]
      exact kept
    · refine agrees_append attended fun e => ?_
      rw [mem, asks, flies_waiting_iff]
      rfl
  · constructor
    · rw [ids]
      exact kept.leave i.id
    · refine agrees_append attended fun e => ?_
      have left : e ∈ ((p.state.enter i.id).2.leave i.id).active.dispatches ↔
          e ∈ (p.state.enter i.id).2.active.dispatches ∧ e.1 ≠ i.id := Active.mem_remove
      rw [left, mem]
      constructor
      · rintro ⟨old | rfl, apart⟩
        · exact .inl old
        · exact absurd rfl apart
      · rintro (old | flies)
        · exact ⟨.inl old, fun heq => fresh (heq ▸ attended.kept.dispatches_used e old)⟩
        · exact absurd flies.inFlight not_inFlight_done

/-- A dispatch in flight goes on. -/
theorem attended_goes {k : Nat} {t t' : Thread interface Call Outcome} {s' : State}
    (attended : Attended p) (distinct : (dispatchIds p).Nodup) (here : p.threads[k]? = some t)
    (goes : Goes d p.state t s' t') : Attended ⟨s', p.threads.set k t'⟩ := by
  have ids : dispatchIds ⟨s', p.threads.set k t'⟩ = dispatchIds p :=
    congrArg (List.filterMap Call.id?) (calls_set here goes.call)
  cases goes with
  | answered comes x answer runs =>
    have known := (attended.agrees _).mpr ⟨k, _, here, flies_waiting_iff.mpr rfl⟩
    obtain ⟨kept, same⟩ := attended.kept.answers known answer
    rcases runs_serving_iff.mp runs with ⟨q, next, asks, rfl, rfl, rfl⟩ | ⟨report, -, rfl, rfl, rfl⟩
    · constructor
      · rw [ids]
        exact kept
      · refine agrees_set attended same here fun e => ?_
        rw [asks, flies_waiting_iff, flies_waiting_iff]
    · constructor
      · rw [ids]
        exact kept.leave _
      · exact agrees_leave attended distinct same here (inFlight_waiting rfl) fun e flies =>
          not_inFlight_done flies.inFlight
  | abandoned comes =>
    constructor
    · rw [ids]
      exact attended.kept.leave _
    · exact agrees_leave attended distinct rfl here (inFlight_waiting rfl) fun e flies =>
        not_inFlight_abandoned flies.inFlight

theorem Call.dispatches_change (c : Call) (s : State) :
    (c.change s).active.dispatches = s.active.dispatches := by
  cases c with
  | dispatch | cancel | cancelAll => rfl
  | close k =>
    have closes : Call.change s (.close k) = s.close k := rfl
    rw [closes, State.close]
    split
    · split <;> rfl
    · rfl

theorem Moves.ids_sublist (move : Moves d p p') : (dispatchIds p).Sublist (dispatchIds p') :=
  move.calls_prefix.sublist.filterMap _

theorem Moves.attended (move : Moves d p p') (distinct : (dispatchIds p').Nodup)
    (attended : Attended p) : Attended p' := by
  have before := distinct.sublist move.ids_sublist
  cases move with
  | enters i h payload runs =>
    refine attended_enters attended (fun known => ?_) runs
    simp only [dispatchIds, List.map_append, List.filterMap_append] at distinct
    exact (List.nodup_append.mp distinct).2.2 _ known _ List.mem_cons_self rfl
  | @calls c other o pre =>
    have none : c.id? = none := by
      cases c with
      | dispatch => cases other
      | _ => rfl
    have ids : dispatchIds ⟨c.change p.state, p.threads ++ [⟨c, .done o, pre, false⟩]⟩ =
        dispatchIds p := by
      simp [dispatchIds, none]
    constructor
    · rw [ids]
      exact attended.kept.change c
    · refine agrees_append attended fun e => ?_
      rw [c.dispatches_change]
      exact (or_iff_left fun flies => not_inFlight_done flies.inFlight).symm
  | goes here goes => exact attended_goes attended before here goes

/-- Dispatches of distinct ids, from a registry that is empty, are attended. -/
theorem attended_of_reachable {signals : Signals}
    (reachable : surroundings.Reachable (body d) { signals } p)
    (distinct : (dispatchIds p).Nodup) : Attended p ∧ ∀ t ∈ p.threads, Stands d t := by
  have start : Attended ⟨{ signals }, []⟩ := by
    constructor
    · constructor <;> simp [dispatchIds]
      constructor <;> simp
    · exact fun e => ⟨nofun, fun ⟨k, t, here, _⟩ => by simp at here⟩
  obtain ⟨moves, stands⟩ :=
    moves_of_steps (fun _ ht => absurd ht List.not_mem_nil) reachable
  refine ⟨?_, stands⟩
  clear stands reachable
  induction moves with
  | refl => exact start
  | tail _ move ih => exact move.attended distinct (ih (distinct.sublist move.ids_sublist))

/-! ### Exactness -/

/-- What is active is what is in flight or has an open stream, and a cancellation by an id reaches
every open stream of the invocation. -/
structure Exact (p : Pool interface State Call Outcome) : Prop where
  active : ∀ id, id ∈ p.state.active.ids ↔ (∃ t ∈ p.threads, InFlight id t) ∨
    ∃ o ∈ p.state.streams, o.id = id ∧ p.state.isOpen o = true
  cancels : ∀ o ∈ p.state.streams, p.state.isOpen o = true →
    (p.state.cancel o.id).2.holds o.signal = true

theorem Attended.inFlight_iff (attended : Attended p) (stands : ∀ t ∈ p.threads, Stands d t) :
    id ∈ p.state.active.dispatches.map Prod.fst ↔ ∃ t ∈ p.threads, InFlight id t := by
  rw [List.mem_map]
  constructor
  · rintro ⟨e, he, rfl⟩
    obtain ⟨k, t, here, flies⟩ := (attended.agrees e).mp he
    exact ⟨t, List.mem_of_getElem? here, flies.inFlight⟩
  · rintro ⟨t, ht, flying⟩
    obtain ⟨n, flies⟩ := (stands t ht).flies flying
    obtain ⟨k, here⟩ := List.mem_iff_getElem?.mp ht
    exact ⟨(id, n), (attended.agrees _).mpr ⟨k, t, here, flies⟩, rfl⟩

/-- A cancellation reaches an open stream exactly if the stream is registered. -/
theorem Kept.cancels_iff {used : List String} {s : State} {o : Stream} (kept : Kept used s)
    (ho : o ∈ s.streams) (isOpen : s.isOpen o = true) :
    (s.cancel o.id).2.holds o.signal = true ↔ (o.id, o.signal) ∈ s.active.streams := by
  rw [State.holds_cancel, kept.mem_cancel]
  constructor
  · rintro (held | ⟨he | he, -⟩)
    · rw [(isOpen_iff.mp isOpen).2] at held
      cases held
    · exact absurd rfl (kept.apart o ho _ he)
    · exact he
  · exact fun he => .inr ⟨.inr he, kept.streams_bounded o ho⟩

/-- **Open streams can be cancelled as long as they do not meet.** Dispatches of distinct ids, the ends
of their streams and cancellations come in any order. Then the registry is exact precisely where no
stream that is open has been open together with another one of its invocation. -/
theorem exact_iff (d : Dispatcher) {signals : Signals}
    (reachable : surroundings.Reachable (body d) { signals } p)
    (distinct : (dispatchIds p).Nodup) :
    Exact p ↔ ∀ o ∈ p.state.streams, p.state.isOpen o = true → o.met = false := by
  obtain ⟨attended, stands⟩ := attended_of_reachable reachable distinct
  have kept := attended.kept
  constructor
  · intro exact_ o ho isOpen
    by_contra met
    rw [Bool.not_eq_false] at met
    obtain ⟨o', ho', isOpen', -, unknown⟩ := kept.lost o ho isOpen met
    exact unknown ((kept.cancels_iff ho' isOpen').mp (exact_.cancels o' ho' isOpen'))
  · intro unmet
    have known : ∀ o ∈ p.state.streams, p.state.isOpen o = true →
        (o.id, o.signal) ∈ p.state.active.streams := fun o ho isOpen =>
      kept.alone o ho isOpen (unmet o ho isOpen)
    constructor
    · intro id
      rw [Active.mem_ids, attended.inFlight_iff stands, List.mem_map]
      refine or_congr_right ⟨?_, ?_⟩
      · rintro ⟨e, he, rfl⟩
        obtain ⟨o, ho, isOpen, rfl⟩ := kept.known e he
        exact ⟨o, ho, rfl, isOpen⟩
      · rintro ⟨o, ho, rfl, isOpen⟩
        exact ⟨_, known o ho isOpen, rfl⟩
    · exact fun o ho isOpen => (kept.cancels_iff ho isOpen).mpr (known o ho isOpen)

end

/-! ### One stream and two -/

section

variable {s₀ s s₁ : State} {c : Call} {id : String} {signal : SignalId} {q : Dispatch.Ask}
  {next : Dispatch.Answer q → Dispatch.Operation Report} {pre : List (Happening interface)}

/-- The handler gets an answer, and asks again. -/
theorem reachable_asks (reachable : surroundings.Reachable (body d) s₀
      ⟨s, [⟨c, serving id signal (.ask q next), pre, false⟩]⟩) {x : Dispatch.Answer q}
    (answer : HandlerAnswers s id signal q x s₁) {q' : Dispatch.Ask}
    {next' : Dispatch.Answer q' → Dispatch.Operation Report} (asks : next x = .ask q' next') :
    surroundings.Reachable (body d) s₀ ⟨s₁, [⟨c, serving id signal (.ask q' next'),
      pre ++ [⟨.handler id signal q, x⟩], false⟩]⟩ := by
  refine reachable.resumes answer ?_
  rw [asks]
  exact runs_serving_iff.mpr (.inl ⟨q', next', rfl, rfl, rfl, rfl⟩)

/-- The handler gets an answer, and is done. -/
theorem reachable_reports (reachable : surroundings.Reachable (body d) s₀
      ⟨s, [⟨c, serving id signal (.ask q next), pre, false⟩]⟩) {x : Dispatch.Answer q}
    (answer : HandlerAnswers s id signal q x s₁) {r : Report} (reports : next x = .done r) :
    surroundings.Reachable (body d) s₀ ⟨s₁.leave id, [⟨c, .done (.reported r),
      pre ++ [⟨.handler id signal q, x⟩] ++ [⟨.leave id, ()⟩], false⟩]⟩ := by
  refine reachable.resumes answer ?_
  rw [reports]
  exact runs_serving_iff.mpr (.inr ⟨r, rfl, rfl, rfl, rfl⟩)

theorem reachable_enters {i : Invocation} {h : EventHandler} {payload : Json}
    {next : Dispatch.Answer q → Dispatch.Operation Report}
    (asks : Dispatch.dispatch d i h payload = .ask q next) :
    surroundings.Reachable (body d) s₀ ⟨(s₀.enter i.id).2, [⟨.dispatch i h payload,
      serving i.id (s₀.enter i.id).1 (.ask q next), past i.id (s₀.enter i.id).1 [], false⟩]⟩ := by
  refine .begins ((Surroundings.runs_answered_iff rfl).mpr ⟨_, _, ⟨rfl, rfl⟩, ?_⟩)
  rw [asks]
  exact runs_serving_iff.mpr (.inl ⟨q, next, rfl, rfl, rfl, rfl⟩)

/-- A stream ends. -/
theorem reachable_close {p : Pool interface State Call Outcome}
    (reachable : surroundings.Reachable (body d) s₀ p) (k : Nat) :
    surroundings.Reachable (body d) s₀ ⟨p.state.close k,
      p.threads ++ [⟨.close k, .done .settled, [⟨.close k, ()⟩], false⟩]⟩ := by
  refine reachable.tail (.begin (Call.close k) ((Surroundings.runs_answered_iff rfl).mpr ?_))
  exact ⟨(), _, rfl, Surroundings.runs_done_iff.mpr ⟨rfl, rfl, rfl⟩⟩

/-- A main action that opens a stream. -/
theorem opens_stream {spec : ActionSpec} {context : Context} {v : Json}
    (running : s.holds signal = false) (subscribes : spec.action = .graphqlSubscription) :
    HandlerAnswers s id signal (.act spec context) (.ok v) (s.openStream id) := by
  simp [HandlerAnswers, running, Opens, subscribes]

end

def inv : Invocation := ⟨"inv", [], false⟩

/-- A subscription. -/
def subscribing : EventHandler := .node { action := .graphqlSubscription } [] [] [] []

/-- A subscription that begins another one when it has been opened. -/
def subscribingTwice : EventHandler :=
  .node { action := .graphqlSubscription } [] [subscribing] [] []

/-- The registry of a dispatch that has opened a stream and reported. -/
def oneStream : State := ((({} : State).enter "inv").2.openStream "inv").leave "inv"

/-- A stream that is alone can be cancelled. -/
theorem exact_iff_subscribing : ∃ p, surroundings.Reachable (body {}) {} p ∧
    p.state.streams = [⟨"inv", 1, false, false⟩] ∧
      p.state.isOpen ⟨"inv", 1, false, false⟩ = true ∧ Exact p := by
  obtain ⟨n₁, n₂, r, asks, acts, reports⟩ : ∃ (n₁ : Bool → Dispatch.Operation Report)
      (n₂ : Except Fault Json → Dispatch.Operation Report) (r : Report),
      Dispatch.dispatch {} inv subscribing .null = .ask .cancelled n₁ ∧
      n₁ false = .ask (.act subscribing.spec (.ofEvent .null)) n₂ ∧
      n₂ (.ok .null) = .done r := ⟨_, _, _, rfl, rfl, rfl⟩
  have entered : surroundings.Reachable (body {}) {} _ := reachable_enters asks
  have acting := reachable_asks entered ⟨rfl, rfl⟩ acts
  have reported := reachable_reports acting (opens_stream (by decide) rfl) reports
  refine ⟨_, reported, rfl, (by decide : oneStream.isOpen _ = true), ?_⟩
  refine (exact_iff {} reported (List.nodup_singleton "inv")).mpr ?_
  exact (by decide : ∀ o ∈ oneStream.streams, oneStream.isOpen o = true → o.met = false)

/-- Every open stream can be cancelled, wherever dispatches of distinct ids lead to. -/
def CancelsStreams : Prop :=
  ∀ (d : Dispatcher) (signals : Signals) (p : Pool interface State Call Outcome),
    surroundings.Reachable (body d) { signals } p → (dispatchIds p).Nodup → Exact p

/-- The registry of a dispatch that has opened two streams and reported. -/
def twoStreams : State :=
  (((({} : State).enter "inv").2.openStream "inv").openStream "inv").leave "inv"

/-- A dispatch opens two streams, and the second one ends: nothing is active any more, while the first
one goes on. -/
theorem not_cancelsStreams : ¬ CancelsStreams := by
  intro cancels
  obtain ⟨n₁, n₂, n₃, n₄, n₅, c, r, asks, acts, looks, asks', acts', reports⟩ :
      ∃ (n₁ : Bool → Dispatch.Operation Report)
      (n₂ : Except Fault Json → Dispatch.Operation Report)
      (n₃ n₄ : Bool → Dispatch.Operation Report)
      (n₅ : Except Fault Json → Dispatch.Operation Report) (c : Context) (r : Report),
      Dispatch.dispatch {} inv subscribingTwice .null = .ask .cancelled n₁ ∧
      n₁ false = .ask (.act subscribingTwice.spec (.ofEvent .null)) n₂ ∧
      n₂ (.ok .null) = .ask .cancelled n₃ ∧ n₃ false = .ask .cancelled n₄ ∧
      n₄ false = .ask (.act subscribing.spec c) n₅ ∧ n₅ (.ok .null) = .done r :=
    ⟨_, _, _, _, _, _, _, rfl, rfl, rfl, rfl, rfl, rfl⟩
  have entered : surroundings.Reachable (body {}) {} _ := reachable_enters asks
  have acting := reachable_asks entered ⟨rfl, rfl⟩ acts
  have opened := reachable_asks acting (opens_stream (by decide) rfl) looks
  have looking := reachable_asks opened ⟨rfl, rfl⟩ asks'
  have acting' := reachable_asks looking ⟨rfl, rfl⟩ acts'
  have reported := reachable_reports acting' (opens_stream (by decide) rfl) reports
  have exact_ := cancels {} {} _ (reachable_close reported 1) (List.nodup_singleton "inv")
  have running : ∃ o ∈ (twoStreams.close 1).streams,
      o.id = "inv" ∧ (twoStreams.close 1).isOpen o = true := by decide
  have inactive : "inv" ∉ (twoStreams.close 1).active.ids := by decide
  exact inactive ((exact_.active "inv").mpr (.inr running))

end ScreenFlow.Switchboard
