import ScreenFlow.Proofs.Dispatch.CutShort

/-!
# The streams of a dispatcher

The registry knows one stream of an invocation, the latest. An invocation that opens a stream while
another one of its streams is open loses one of them.

* `Kept`: what the registry and the streams have to do with each other;
* `Kept.enter`, `Kept.leave`, `Kept.openStream`: dispatches and new streams keep that up;
* `Shuts`, `Kept.shut`: so does what ends or cancels streams.
-/

namespace ScreenFlow.Switchboard

variable {d : Dispatcher}

/-! ### Streams and their marks -/

/-- A stream, marked if it is an open one of this invocation. -/
def State.mark (s : State) (id : String) (o : Stream) : Stream :=
  if o.id == id && s.isOpen o then { o with met := true } else o

section

variable {s : State} {id : String} {o : Stream}

@[simp] theorem mark_id : (s.mark id o).id = o.id := by
  unfold State.mark
  split <;> rfl

@[simp] theorem mark_signal : (s.mark id o).signal = o.signal := by
  unfold State.mark
  split <;> rfl

@[simp] theorem mark_ended : (s.mark id o).ended = o.ended := by
  unfold State.mark
  split <;> rfl

theorem mark_met : (s.mark id o).met = true ↔
    o.met = true ∨ o.id = id ∧ s.isOpen o = true := by
  unfold State.mark
  split
  case isTrue here =>
    rw [Bool.and_eq_true, beq_iff_eq] at here
    simp [here]
  case isFalse apart =>
    rw [Bool.and_eq_true, beq_iff_eq] at apart
    simp [apart]

theorem isOpen_iff : s.isOpen o = true ↔ o.ended = false ∧ s.holds o.signal = false := by
  simp [State.isOpen]

@[simp] theorem isOpen_mark : s.isOpen (s.mark id o) = s.isOpen o := by
  simp [State.isOpen]

/-- The stream that is opened next under an id. -/
def State.nextStream (s : State) (id : String) : Stream :=
  { id, signal := s.signals.all.size, met := s.streams.any fun o => o.id == id && s.isOpen o }

theorem nextStream_met : (s.nextStream id).met = true ↔
    ∃ o ∈ s.streams, o.id = id ∧ s.isOpen o = true := by
  simp [State.nextStream]

theorem streams_openStream (s : State) (id : String) :
    (s.openStream id).streams = s.streams.map (s.mark id) ++ [s.nextStream id] := rfl

@[simp] theorem isOpen_openStream : (s.openStream id).isOpen o = s.isOpen o := by
  simp [State.isOpen]

theorem isOpen_nextStream : s.isOpen (s.nextStream id) = true := by
  refine isOpen_iff.mpr ⟨rfl, Bool.eq_false_iff.mpr fun held => ?_⟩
  exact Nat.lt_irrefl _ (Signals.lt_size_of_holds held)

end

/-! ### The registry and the streams -/

/-- The entries of the registry and of the list of streams, when dispatches have come under these
ids. -/
structure Tidy (used : List String) (s : State) : Prop where
  dispatch_ids : (s.active.dispatches.map Prod.fst).Nodup
  stream_ids : (s.active.streams.map Prod.fst).Nodup
  dispatches_used : ∀ e ∈ s.active.dispatches, e.1 ∈ used
  streams_used : ∀ o ∈ s.streams, o.id ∈ used
  dispatches_bounded : ∀ e ∈ s.active.dispatches, e.2 < s.signals.all.size
  streams_bounded : ∀ o ∈ s.streams, o.signal < s.signals.all.size
  signals : (s.streams.map Stream.signal).Nodup
  apart : ∀ o ∈ s.streams, ∀ e ∈ s.active.dispatches, o.signal ≠ e.2

/-- What the registry and the streams have to do with each other. -/
structure Kept (used : List String) (s : State) : Prop extends Tidy used s where
  /-- What is registered is open. -/
  known : ∀ e ∈ s.active.streams, ∃ o ∈ s.streams, s.isOpen o = true ∧ (o.id, o.signal) = e
  /-- An open stream that has met no other is registered. -/
  alone : ∀ o ∈ s.streams, s.isOpen o = true → o.met = false →
    (o.id, o.signal) ∈ s.active.streams
  /-- Streams of one invocation that are open together have met. -/
  together : ∀ o ∈ s.streams, ∀ o' ∈ s.streams, s.isOpen o = true → s.isOpen o' = true →
    o.id = o'.id → o.signal ≠ o'.signal → o.met = true
  /-- Where an open stream has met another, some open one of its invocation is not registered. -/
  lost : ∀ o ∈ s.streams, s.isOpen o = true → o.met = true →
    ∃ o' ∈ s.streams, s.isOpen o' = true ∧ o'.id = o.id ∧ (o'.id, o'.signal) ∉ s.active.streams
  /-- Under the id of a cancelled stream nothing is registered that has not been cancelled. -/
  stopped : ∀ o ∈ s.streams, o.ended = false → s.holds o.signal = true →
    (∀ e ∈ s.active.streams, e.1 ≠ o.id) ∧
      ∀ e ∈ s.active.dispatches, e.1 = o.id → s.holds e.2 = true

section

variable {used : List String} {s s' : State} {id : String}

theorem Tidy.eq_of_signal (tidy : Tidy used s) {o o' : Stream} (ho : o ∈ s.streams)
    (ho' : o' ∈ s.streams) (same : o.signal = o'.signal) : o = o' :=
  List.inj_on_of_nodup_map tidy.signals ho ho' same

/-! ### Dispatches come and go -/

theorem mem_enter {e : String × SignalId} (he : e ∈ (s.enter id).2.active.dispatches) :
    e ∈ s.active.dispatches ∨ e = (id, s.signals.all.size) :=
  (Active.mem_put.mp he).imp_left And.left

@[simp] theorem isOpen_enter {o : Stream} : (s.enter id).2.isOpen o = s.isOpen o := by
  simp [State.isOpen]

theorem Tidy.enter (tidy : Tidy used s) (id : String) : Tidy (used ++ [id]) (s.enter id).2 := by
  have size : (s.enter id).2.signals.all.size = s.signals.all.size + 1 := by
    simp [State.enter, Signals.create]
  constructor
  · exact Active.nodup_put tidy.dispatch_ids
  · exact tidy.stream_ids
  · intro e he
    rcases mem_enter he with old | rfl
    · exact List.mem_append_left _ (tidy.dispatches_used e old)
    · exact List.mem_append_right _ List.mem_cons_self
  · exact fun o ho => List.mem_append_left _ (tidy.streams_used o ho)
  · intro e he
    rw [size]
    rcases mem_enter he with old | rfl
    · exact Nat.lt_succ_of_lt (tidy.dispatches_bounded e old)
    · exact Nat.lt_succ_self _
  · intro o ho
    rw [size]
    exact Nat.lt_succ_of_lt (tidy.streams_bounded o ho)
  · exact tidy.signals
  · intro o ho e he
    rcases mem_enter he with old | rfl
    · exact tidy.apart o ho e old
    · exact Nat.ne_of_lt (tidy.streams_bounded o ho)

/-- A new dispatch registers under an id of its own. -/
theorem Kept.enter (kept : Kept used s) (fresh : id ∉ used) :
    Kept (used ++ [id]) (s.enter id).2 where
  toTidy := kept.toTidy.enter id
  known e he := by
    obtain ⟨o, ho, isOpen, heq⟩ := kept.known e he
    exact ⟨o, ho, isOpen_enter.trans isOpen, heq⟩
  alone o ho isOpen := by
    rw [isOpen_enter] at isOpen
    exact kept.alone o ho isOpen
  together o ho o' ho' isOpen isOpen' := by
    rw [isOpen_enter] at isOpen isOpen'
    exact kept.together o ho o' ho' isOpen isOpen'
  lost o ho isOpen met := by
    rw [isOpen_enter] at isOpen
    obtain ⟨o', ho', isOpen', heq, unknown⟩ := kept.lost o ho isOpen met
    exact ⟨o', ho', isOpen_enter.trans isOpen', heq, unknown⟩
  stopped o ho unended held := by
    rw [State.holds_enter] at held
    obtain ⟨unknown, fired⟩ := kept.stopped o ho unended held
    refine ⟨unknown, fun e he heq => ?_⟩
    rw [State.holds_enter]
    rcases mem_enter he with old | rfl
    · exact fired e old heq
    · have here : id = o.id := heq
      exact absurd (here ▸ kept.streams_used o ho) fresh

theorem Kept.leave (kept : Kept used s) (id : String) : Kept used (s.leave id) := by
  have old : ∀ e ∈ (s.leave id).active.dispatches, e ∈ s.active.dispatches := fun e he =>
    (Active.mem_remove.mp he).1
  exact { kept with
    dispatch_ids := Active.nodup_remove kept.dispatch_ids
    dispatches_used := fun e he => kept.dispatches_used e (old e he)
    dispatches_bounded := fun e he => kept.dispatches_bounded e (old e he)
    apart := fun o ho e he => kept.apart o ho e (old e he)
    stopped := fun o ho unended held => by
      obtain ⟨unknown, fired⟩ := kept.stopped o ho unended held
      exact ⟨unknown, fun e he => fired e (old e he)⟩ }

/-! ### A stream is opened -/

theorem mem_openStream {o : Stream} : o ∈ (s.openStream id).streams ↔
    (∃ o₁ ∈ s.streams, s.mark id o₁ = o) ∨ o = s.nextStream id := by
  rw [streams_openStream, List.mem_append, List.mem_map, List.mem_singleton]

theorem registered_openStream {e : String × SignalId} :
    e ∈ (s.openStream id).active.streams ↔
      (e ∈ s.active.streams ∧ e.1 ≠ id) ∨ e = (id, s.signals.all.size) :=
  Active.mem_put

theorem Tidy.signal_ne_size (tidy : Tidy used s) {o : Stream} (ho : o ∈ s.streams) :
    o.signal ≠ s.signals.all.size :=
  Nat.ne_of_lt (tidy.streams_bounded o ho)

theorem Tidy.openStream (tidy : Tidy used s) (known : id ∈ used) : Tidy used (s.openStream id) := by
  have size : (s.openStream id).signals.all.size = s.signals.all.size + 1 := by
    simp [State.openStream, Signals.create]
  constructor
  · exact tidy.dispatch_ids
  · exact Active.nodup_put tidy.stream_ids
  · exact tidy.dispatches_used
  · intro o ho
    rcases mem_openStream.mp ho with ⟨o₁, old, rfl⟩ | rfl
    · rw [mark_id]
      exact tidy.streams_used o₁ old
    · exact known
  · intro e he
    rw [size]
    exact Nat.lt_succ_of_lt (tidy.dispatches_bounded e he)
  · intro o ho
    rw [size]
    rcases mem_openStream.mp ho with ⟨o₁, old, rfl⟩ | rfl
    · rw [mark_signal]
      exact Nat.lt_succ_of_lt (tidy.streams_bounded o₁ old)
    · exact Nat.lt_succ_self _
  · have same : (s.streams.map (s.mark id)).map Stream.signal = s.streams.map Stream.signal := by
      simp
    rw [streams_openStream, List.map_append, same]
    refine List.nodup_append.mpr ⟨tidy.signals, List.nodup_singleton _, ?_⟩
    intro n hn m hm
    obtain ⟨o, ho, rfl⟩ := List.mem_map.mp hn
    rw [List.mem_singleton.mp hm]
    exact tidy.signal_ne_size ho
  · intro o ho e he
    rcases mem_openStream.mp ho with ⟨o₁, old, rfl⟩ | rfl
    · rw [mark_signal]
      exact tidy.apart o₁ old e he
    · exact Nat.ne_of_gt (tidy.dispatches_bounded e he)

/-- A stream that is open and not registered, or of the invocation that opens another, is lost. -/
theorem Tidy.lost_openStream (tidy : Tidy used s) {o : Stream} (ho : o ∈ s.streams)
    (isOpen : s.isOpen o = true) (unknown : (o.id, o.signal) ∉ s.active.streams ∨ o.id = id) :
    ∃ o' ∈ (s.openStream id).streams, (s.openStream id).isOpen o' = true ∧ o'.id = o.id ∧
      (o'.id, o'.signal) ∉ (s.openStream id).active.streams := by
  refine ⟨s.mark id o, mem_openStream.mpr (.inl ⟨o, ho, rfl⟩), by simpa using isOpen, mark_id, ?_⟩
  rw [mark_id, mark_signal]
  intro known
  rcases registered_openStream.mp known with ⟨old, apart⟩ | new
  · exact unknown.elim (fun unknown => unknown old) apart
  · exact tidy.signal_ne_size ho (Prod.mk.inj new).2

/-- A dispatch that has not been cancelled opens a stream. -/
theorem Kept.openStream (kept : Kept used s) {signal : SignalId}
    (flying : (id, signal) ∈ s.active.dispatches) (running : s.holds signal = false) :
    Kept used (s.openStream id) := by
  constructor
  case toTidy => exact kept.toTidy.openStream (kept.dispatches_used _ flying)
  case known =>
    intro e he
    rcases registered_openStream.mp he with ⟨old, -⟩ | rfl
    · obtain ⟨o, ho, isOpen, rfl⟩ := kept.known e old
      exact ⟨s.mark id o, mem_openStream.mpr (.inl ⟨o, ho, rfl⟩), by simpa using isOpen, by simp⟩
    · exact ⟨s.nextStream id, mem_openStream.mpr (.inr rfl),
        isOpen_openStream.trans isOpen_nextStream, rfl⟩
  case alone =>
    intro o ho isOpen unmet
    rcases mem_openStream.mp ho with ⟨o₁, old, rfl⟩ | rfl
    · rw [isOpen_openStream, isOpen_mark] at isOpen
      have apart : ¬ (o₁.met = true ∨ o₁.id = id ∧ s.isOpen o₁ = true) := fun met => by
        rw [mark_met.mpr met] at unmet
        cases unmet
      rw [not_or] at apart
      have known := kept.alone o₁ old isOpen (Bool.eq_false_iff.mpr apart.1)
      rw [mark_id, mark_signal]
      exact registered_openStream.mpr (.inl ⟨known, fun heq => apart.2 ⟨heq, isOpen⟩⟩)
    · exact registered_openStream.mpr (.inr rfl)
  case together =>
    intro o ho o' ho' isOpen isOpen' same apart
    rw [isOpen_openStream] at isOpen isOpen'
    rcases mem_openStream.mp ho with ⟨o₁, old, rfl⟩ | rfl <;>
      rcases mem_openStream.mp ho' with ⟨o₂, old', rfl⟩ | rfl
    · rw [isOpen_mark] at isOpen isOpen'
      rw [mark_id, mark_id] at same
      rw [mark_signal, mark_signal] at apart
      exact mark_met.mpr (.inl (kept.together o₁ old o₂ old' isOpen isOpen' same apart))
    · rw [isOpen_mark] at isOpen
      rw [mark_id] at same
      exact mark_met.mpr (.inr ⟨same, isOpen⟩)
    · rw [isOpen_mark] at isOpen'
      rw [mark_id] at same
      exact nextStream_met.mpr ⟨o₂, old', same.symm, isOpen'⟩
    · exact absurd rfl apart
  case lost =>
    intro o ho isOpen met
    rw [isOpen_openStream] at isOpen
    rcases mem_openStream.mp ho with ⟨o₁, old, rfl⟩ | rfl
    · rw [isOpen_mark] at isOpen
      rw [mark_id]
      rcases mark_met.mp met with met | ⟨here, -⟩
      · obtain ⟨o', ho', isOpen', heq, unknown⟩ := kept.lost o₁ old isOpen met
        rw [← heq]
        exact kept.lost_openStream ho' isOpen' (.inl unknown)
      · exact kept.lost_openStream old isOpen (.inr here)
    · obtain ⟨o₁, old, here, isOpen⟩ := nextStream_met.mp met
      have same : (s.nextStream id).id = o₁.id := here.symm
      rw [same]
      exact kept.lost_openStream old isOpen (.inr here)
  case stopped =>
    intro o ho unended held
    rw [State.holds_openStream] at held
    rcases mem_openStream.mp ho with ⟨o₁, old, rfl⟩ | rfl
    · rw [mark_ended] at unended
      rw [mark_signal] at held
      rw [mark_id]
      obtain ⟨unknown, fired⟩ := kept.stopped o₁ old unended held
      -- The dispatch of a cancelled stream has been cancelled, and this one has not.
      have apart : id ≠ o₁.id := fun heq => by
        rw [fired _ flying heq] at running
        cases running
      refine ⟨fun e he heq => ?_, fun e he heq => ?_⟩
      · rcases registered_openStream.mp he with ⟨known, -⟩ | rfl
        · exact unknown e known heq
        · exact apart heq
      · rw [State.holds_openStream]
        exact fired e he heq
    · rw [(isOpen_iff.mp isOpen_nextStream).2] at held
      cases held

/-! ### Streams are shut -/

/-- A change that forgets the streams of some invocations. -/
structure Shuts (forgets : String → Prop) (f : Stream → Stream) (s s' : State) : Prop where
  dispatches : s'.active.dispatches = s.active.dispatches
  entries : s'.active.streams.Sublist s.active.streams
  mem_entries : ∀ e, e ∈ s'.active.streams ↔ e ∈ s.active.streams ∧ ¬ forgets e.1
  streams : s'.streams = s.streams.map f
  id : ∀ o, (f o).id = o.id
  signal : ∀ o, (f o).signal = o.signal
  met : ∀ o, (f o).met = o.met
  unended : ∀ o, (f o).ended = false → o.ended = false
  size : s'.signals.all.size = s.signals.all.size
  holds : ∀ n, s.holds n = true → s'.holds n = true
  /-- What is no longer open is forgotten. -/
  shut : ∀ o ∈ s.streams, s.isOpen o = true → s'.isOpen (f o) = false → forgets o.id
  /-- What is forgotten and still open has met another stream. -/
  forgotten : ∀ o ∈ s.streams, (o.id, o.signal) ∈ s.active.streams → forgets o.id →
    s'.isOpen (f o) = true → o.met = true
  /-- With a stream its dispatch is cancelled. -/
  fired : ∀ o ∈ s.streams, (f o).ended = false → s'.holds o.signal = true →
    s.holds o.signal = false → forgets o.id ∧
      ∀ e ∈ s.active.dispatches, e.1 = o.id → s'.holds e.2 = true

namespace Shuts

variable {forgets : String → Prop} {f : Stream → Stream}

theorem mem (shuts : Shuts forgets f s s') {o : Stream} :
    o ∈ s'.streams ↔ ∃ o₁ ∈ s.streams, f o₁ = o := by
  rw [shuts.streams, List.mem_map]

/-- Nothing is opened again. -/
theorem before (shuts : Shuts forgets f s s') {o : Stream} (isOpen : s'.isOpen (f o) = true) :
    s.isOpen o = true := by
  obtain ⟨unended, unfired⟩ := isOpen_iff.mp isOpen
  refine isOpen_iff.mpr ⟨shuts.unended o unended, Bool.eq_false_iff.mpr fun held => ?_⟩
  rw [shuts.signal, shuts.holds _ held] at unfired
  cases unfired

theorem tidy (shuts : Shuts forgets f s s') (tidy : Tidy used s) : Tidy used s' := by
  constructor
  · rw [shuts.dispatches]
    exact tidy.dispatch_ids
  · exact tidy.stream_ids.sublist (shuts.entries.map _)
  · rw [shuts.dispatches]
    exact tidy.dispatches_used
  · intro o ho
    obtain ⟨o₁, old, rfl⟩ := shuts.mem.mp ho
    rw [shuts.id]
    exact tidy.streams_used o₁ old
  · rw [shuts.dispatches, shuts.size]
    exact tidy.dispatches_bounded
  · intro o ho
    obtain ⟨o₁, old, rfl⟩ := shuts.mem.mp ho
    rw [shuts.signal, shuts.size]
    exact tidy.streams_bounded o₁ old
  · have same : (s.streams.map f).map Stream.signal = s.streams.map Stream.signal := by
      simp [shuts.signal]
    rw [shuts.streams, same]
    exact tidy.signals
  · intro o ho
    obtain ⟨o₁, old, rfl⟩ := shuts.mem.mp ho
    rw [shuts.signal, shuts.dispatches]
    exact tidy.apart o₁ old

end Shuts

theorem Kept.shut {forgets : String → Prop} {f : Stream → Stream} (kept : Kept used s)
    (shuts : Shuts forgets f s s') : Kept used s' := by
  constructor
  case toTidy => exact shuts.tidy kept.toTidy
  case known =>
    intro e he
    obtain ⟨known, unforgotten⟩ := (shuts.mem_entries e).mp he
    obtain ⟨o, ho, isOpen, rfl⟩ := kept.known e known
    refine ⟨f o, shuts.mem.mpr ⟨o, ho, rfl⟩, ?_, by rw [shuts.id, shuts.signal]⟩
    by_contra closed
    exact unforgotten (shuts.shut o ho isOpen (Bool.eq_false_iff.mpr closed))
  case alone =>
    intro o ho isOpen unmet
    obtain ⟨o₁, old, rfl⟩ := shuts.mem.mp ho
    rw [shuts.met] at unmet
    have known := kept.alone o₁ old (shuts.before isOpen) unmet
    rw [shuts.id, shuts.signal]
    refine (shuts.mem_entries _).mpr ⟨known, fun forgotten => ?_⟩
    rw [shuts.forgotten o₁ old known forgotten isOpen] at unmet
    cases unmet
  case together =>
    intro o ho o' ho' isOpen isOpen'
    obtain ⟨o₁, old, rfl⟩ := shuts.mem.mp ho
    obtain ⟨o₂, old', rfl⟩ := shuts.mem.mp ho'
    rw [shuts.id, shuts.id, shuts.signal, shuts.signal, shuts.met]
    exact kept.together o₁ old o₂ old' (shuts.before isOpen) (shuts.before isOpen')
  case lost =>
    intro o ho isOpen met
    obtain ⟨o₁, old, rfl⟩ := shuts.mem.mp ho
    rw [shuts.met] at met
    obtain ⟨o', ho', isOpen', heq, unknown⟩ := kept.lost o₁ old (shuts.before isOpen) met
    by_cases still : s'.isOpen (f o') = true
    · refine ⟨f o', shuts.mem.mpr ⟨o', ho', rfl⟩, still, by rw [shuts.id, shuts.id, heq], ?_⟩
      rw [shuts.id, shuts.signal]
      exact fun known => unknown ((shuts.mem_entries _).mp known).1
    · -- The other one is shut, and with it this one is forgotten.
      have forgotten := shuts.shut o' ho' isOpen' (Bool.eq_false_iff.mpr still)
      refine ⟨f o₁, shuts.mem.mpr ⟨o₁, old, rfl⟩, isOpen, rfl, fun known => ?_⟩
      rw [shuts.id, ← heq] at known
      exact ((shuts.mem_entries _).mp known).2 forgotten
  case stopped =>
    intro o ho unended held
    obtain ⟨o₁, old, rfl⟩ := shuts.mem.mp ho
    rw [shuts.signal] at held
    rw [shuts.id, shuts.dispatches]
    by_cases before : s.holds o₁.signal = true
    · obtain ⟨unknown, fired⟩ := kept.stopped o₁ old (shuts.unended o₁ unended) before
      exact ⟨fun e he => unknown e ((shuts.mem_entries e).mp he).1,
        fun e he heq => shuts.holds _ (fired e he heq)⟩
    · obtain ⟨forgotten, fired⟩ := shuts.fired o₁ old unended held (Bool.eq_false_iff.mpr before)
      refine ⟨fun e he heq => ?_, fired⟩
      exact ((shuts.mem_entries e).mp he).2 (heq ▸ forgotten)

theorem Kept.bounded (kept : Kept used s) {n : SignalId}
    (he : (id, n) ∈ s.active.dispatches ∨ (id, n) ∈ s.active.streams) :
    n < s.signals.all.size := by
  rcases he with he | he
  · exact kept.dispatches_bounded _ he
  · obtain ⟨o, ho, -, heq⟩ := kept.known _ he
    rw [← (Prod.mk.inj heq).2]
    exact kept.streams_bounded o ho

/-- Firing the signals of some ids, while their streams are forgotten. -/
theorem Kept.shuts_of_fires {forgets : String → Prop} (kept : Kept used s)
    (dispatches : s'.active.dispatches = s.active.dispatches)
    (entries : s'.active.streams.Sublist s.active.streams)
    (mem_entries : ∀ e, e ∈ s'.active.streams ↔ e ∈ s.active.streams ∧ ¬ forgets e.1)
    (streams : s'.streams = s.streams) (size : s'.signals.all.size = s.signals.all.size)
    (fires : ∀ n, s'.holds n = true ↔ s.holds n = true ∨ ∃ key, forgets key ∧
      ((key, n) ∈ s.active.dispatches ∨ (key, n) ∈ s.active.streams)) :
    Shuts forgets (fun o => o) s s' := by
  -- The signal of a stream is fired through the entry of the stream.
  have fired : ∀ o ∈ s.streams, s'.holds o.signal = true → s.holds o.signal = false →
      forgets o.id := by
    intro o ho held unfired
    rcases (fires _).mp held with old | ⟨key, forgotten, he | he⟩
    · rw [unfired] at old
      cases old
    · exact absurd rfl (kept.apart o ho _ he)
    · obtain ⟨o', ho', -, heq⟩ := kept.known _ he
      obtain ⟨rfl, same⟩ := Prod.mk.inj heq
      rwa [kept.eq_of_signal ho ho' same.symm]
  constructor
  case dispatches => exact dispatches
  case entries => exact entries
  case mem_entries => exact mem_entries
  case streams => rw [streams, List.map_id']
  case id | signal | met => exact fun _ => rfl
  case unended => exact fun _ unended => unended
  case size => exact size
  case holds => exact fun n held => (fires n).mpr (.inl held)
  case shut =>
    intro o ho isOpen closed
    obtain ⟨unended, unfired⟩ := isOpen_iff.mp isOpen
    by_contra unforgotten
    have unheld : s'.holds o.signal = false :=
      Bool.eq_false_iff.mpr fun held => unforgotten (fired o ho held unfired)
    rw [isOpen_iff.mpr ⟨unended, unheld⟩] at closed
    cases closed
  case forgotten =>
    intro o ho known forgotten isOpen
    have held := (fires o.signal).mpr (.inr ⟨o.id, forgotten, .inr known⟩)
    rw [(isOpen_iff.mp isOpen).2] at held
    cases held
  case fired =>
    intro o ho unended held unfired
    refine ⟨fired o ho held unfired, fun e he heq => (fires e.2).mpr (.inr ⟨e.1, ?_, .inl he⟩)⟩
    rw [heq]
    exact fired o ho held unfired

/-- The signals that a cancellation fires. -/
theorem Tidy.mem_cancel (tidy : Tidy used s) {n : SignalId} : n ∈ (s.active.cancel id).1 ↔
    (id, n) ∈ s.active.dispatches ∨ (id, n) ∈ s.active.streams := by
  rw [← Active.find?_eq_some_iff tidy.dispatch_ids, ← Active.find?_eq_some_iff tidy.stream_ids]
  simp [Active.cancel]

theorem Kept.shuts_cancel (kept : Kept used s) (id : String) :
    Shuts (· = id) (fun o => o) s (s.cancel id).2 := by
  refine kept.shuts_of_fires rfl List.filter_sublist (fun e => Active.mem_remove) rfl
    (Signals.size_fireAll _) fun n => ?_
  rw [State.holds_cancel, kept.mem_cancel]
  simp only [exists_eq_left]
  exact or_congr_right ⟨And.left, fun he => ⟨he, kept.bounded he⟩⟩

theorem Kept.shuts_cancelAll (kept : Kept used s) :
    Shuts (fun _ => True) (fun o => o) s s.cancelAll := by
  have emptied : s.cancelAll.active.streams = [] := rfl
  refine kept.shuts_of_fires rfl (List.nil_sublist _) (fun e => by simp [emptied]) rfl
    (Signals.size_fireAll _) fun n => ?_
  have found : n ∈ s.active.cancelAll.1 ↔
      ∃ key, (key, n) ∈ s.active.dispatches ∨ (key, n) ∈ s.active.streams := by
    simp [Active.cancelAll, exists_or]
  rw [State.holds_cancelAll, found]
  simp only [true_and]
  exact or_congr_right ⟨And.left, fun ⟨key, he⟩ => ⟨⟨key, he⟩, kept.bounded he⟩⟩

/-- The stream of this signal has ended. -/
def Stream.endAt (signal : SignalId) (o : Stream) : Stream :=
  if o.signal = signal then { o with ended := true } else o

section

variable {signal : SignalId} {o : Stream}

@[simp] theorem endAt_id : (o.endAt signal).id = o.id := by
  unfold Stream.endAt
  split <;> rfl

@[simp] theorem endAt_signal : (o.endAt signal).signal = o.signal := by
  unfold Stream.endAt
  split <;> rfl

@[simp] theorem endAt_met : (o.endAt signal).met = o.met := by
  unfold Stream.endAt
  split <;> rfl

theorem endAt_ended : (o.endAt signal).ended = false ↔ o.ended = false ∧ o.signal ≠ signal := by
  unfold Stream.endAt
  split
  case isTrue here => simp [here]
  case isFalse apart => simp [apart]

end

theorem Tidy.set_eq_map (tidy : Tidy used s) {k : Nat} {o : Stream} (here : s.streams[k]? = some o) :
    s.streams.set k { o with ended := true } = s.streams.map (Stream.endAt o.signal) := by
  obtain ⟨bound, rfl⟩ := List.getElem?_eq_some_iff.mp here
  refine List.ext_getElem (by simp) fun j hj _ => ?_
  rw [List.length_set] at hj
  rw [List.getElem_map, List.getElem_set, Stream.endAt]
  by_cases same : k = j
  · subst same
    simp
  · rw [if_neg same, if_neg]
    intro heq
    have streams := tidy.eq_of_signal (List.getElem_mem hj) (List.getElem_mem bound) heq
    exact same ((List.Nodup.of_map _ tidy.signals).getElem_inj_iff.mp streams).symm

theorem Kept.shuts_close (kept : Kept used s) {k : Nat} {o : Stream}
    (here : s.streams[k]? = some o) (unended : o.ended = false) :
    Shuts (· = o.id) (Stream.endAt o.signal) s (s.close k) := by
  have closes : s.close k = { active := s.active.endStream o.id, signals := s.signals.fire o.signal
                              streams := s.streams.set k { o with ended := true } } := by
    simp [State.close, here, unended]
  have mem : o ∈ s.streams := List.mem_of_getElem? here
  have fires : ∀ n, (s.close k).holds n = true ↔
      s.holds n = true ∨ n = o.signal ∧ n < s.signals.all.size := by
    intro n
    rw [closes]
    exact Signals.holds_fire
  constructor
  case dispatches => rw [closes]; rfl
  case entries => rw [closes]; exact List.filter_sublist
  case mem_entries => rw [closes]; exact fun e => Active.mem_remove
  case streams => rw [closes]; exact kept.set_eq_map here
  case id | signal | met => simp
  case unended => exact fun _ unended => (endAt_ended.mp unended).1
  case size => rw [closes]; exact Signals.size_fire
  case holds => exact fun n held => (fires n).mpr (.inl held)
  case shut =>
    intro o' ho' isOpen closed
    obtain ⟨unended', unfired⟩ := isOpen_iff.mp isOpen
    by_contra apart
    have other : o'.signal ≠ o.signal := fun same => apart (by rw [kept.eq_of_signal ho' mem same])
    have unheld : (s.close k).holds (o'.endAt o.signal).signal = false := by
      rw [endAt_signal, Bool.eq_false_iff]
      intro held
      rcases (fires _).mp held with old | ⟨same, -⟩
      · rw [unfired] at old
        cases old
      · exact other same
    rw [isOpen_iff.mpr ⟨endAt_ended.mpr ⟨unended', other⟩, unheld⟩] at closed
    cases closed
  case forgotten =>
    intro o' ho' known same isOpen
    have other := (endAt_ended.mp (isOpen_iff.mp isOpen).1).2
    obtain ⟨o₁, ho₁, isOpen', heq⟩ := kept.known _ known
    obtain rfl := kept.eq_of_signal ho₁ ho' (Prod.mk.inj heq).2
    by_cases fired : s.holds o.signal = true
    · exact absurd same ((kept.stopped o mem unended fired).1 _ known)
    · have open_ := isOpen_iff.mpr ⟨unended, Bool.eq_false_iff.mpr fired⟩
      exact kept.together o₁ ho₁ o mem isOpen' open_ same other
  case fired =>
    intro o' ho' unended' held unfired
    rcases (fires _).mp held with old | ⟨same, -⟩
    · rw [unfired] at old
      cases old
    · exact absurd same (endAt_ended.mp unended').2

theorem Kept.close (kept : Kept used s) (k : Nat) : Kept used (s.close k) := by
  cases here : s.streams[k]? with
  | none =>
    have same : s.close k = s := by simp [State.close, here]
    rwa [same]
  | some o =>
    cases unended : o.ended with
    | true =>
      have same : s.close k = s := by simp [State.close, here, unended]
      rwa [same]
    | false => exact kept.shut (kept.shuts_close here unended)

theorem Kept.change (kept : Kept used s) (c : Call) : Kept used (c.change s) := by
  cases c with
  | dispatch => exact kept
  | cancel id => exact kept.shut (kept.shuts_cancel id)
  | cancelAll => exact kept.shut kept.shuts_cancelAll
  | close k => exact kept.close k

end

end ScreenFlow.Switchboard
