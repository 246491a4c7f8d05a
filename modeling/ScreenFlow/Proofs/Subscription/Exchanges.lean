import ScreenFlow.Proofs.Process.Standing
import ScreenFlow.Proofs.Subscription.Conformance

/-!
# What is said over a connection

A session connects again and again. Whatever comes over a connection, and whenever it is lost,
cancelled or no longer listened to, the session says the words of its sub-protocol in their order.

* `Lives`: what can happen to a session;
* `exchanges`: what was sent and received over each of its connections;
* `Makes`: what a process makes of the exchanges;
* `exchanges_conform`: every exchange conforms;
* `not_fallsSilent`: what the server says about an operation before it is started is not heeded.
-/

namespace ScreenFlow.Subscription

/-! ### Sessions -/

/-- What has happened in some rounds, and the phase that they have come to. -/
inductive Rounds (s : Subscription) : List (Happening interface) → Phase → Prop
  | start : Rounds s [] (.connecting 0)
  | round {past history phase next} (h : Rounds s past phase)
      (ends : (s.round phase).Ends history next) : Rounds s (past ++ history) next

/-- What has happened to a session in some rounds and in the one that it stands in, whatever it was
answered. -/
def Lives (s : Subscription) (history : List (Happening interface)) (r : Operation Phase) : Prop :=
  ∃ past phase here, s.Rounds past phase ∧ (s.round phase).Comes here r ∧ history = past ++ here

/-! ### Exchanges -/

/-- Adds to the latest exchange. -/
def note (x : Traffic) : List (List Traffic) → List (List Traffic)
  | [] => []
  | t :: ts => (t ++ [x]) :: ts

def record (ts : List (List Traffic)) : Happening interface → List (List Traffic)
  | ⟨.connect .., some (.ok _)⟩ => [] :: ts
  | ⟨.send text, _⟩ => note (.sent text) ts
  | ⟨.greeting _, .frame text⟩ => note (.received text) ts
  | ⟨.incoming, .frame text⟩ => note (.received text) ts
  | _ => ts

/-- What was exchanged over each connection, the latest one first. -/
def exchanges (history : List (Happening interface)) : List (List Traffic) :=
  history.foldl record []

/-! ### What a process makes of the exchanges -/

/-- Whatever the process is answered, this is true of its result and of the exchanges then. -/
def Makes {α : Type} (post : α → List (List Traffic) → Prop) :
    Operation α → List (List Traffic) → Prop
  | .done a, ts => post a ts
  | .ask q next, ts => ∀ x, Makes post (next x) (record ts ⟨q, x⟩)

section Makes

variable {α β : Type} {ts : List (List Traffic)}

theorem Makes.mono {post post' : α → List (List Traffic) → Prop} {m : Operation α}
    (h : Makes post m ts) (imp : ∀ a ts, post a ts → post' a ts) : Makes post' m ts := by
  induction m generalizing ts with
  | done a => exact imp a ts h
  | ask q next ih => exact fun x => ih x (h x)

theorem Makes.bind {post : β → List (List Traffic) → Prop} {m : Operation α}
    {k : α → Operation β} (h : Makes (fun a => Makes post (k a)) m ts) :
    Makes post (m.bind k) ts := by
  induction m generalizing ts with
  | done a => exact h
  | ask q next ih => exact fun x => ih x (h x)

theorem Makes.of_ends {post : α → List (List Traffic) → Prop} {m : Operation α} {a : α}
    {history : List (Happening interface)} (h : Makes post m ts) (ends : m.Ends history a) :
    post a (history.foldl record ts) := by
  induction ends generalizing ts with
  | done a => exact h
  | asked x _ ih => exact ih (h x)

end Makes

/-! ### Rounds keep to the protocol -/

section Rounds

variable (s : Subscription) (p : SubProtocol) (call : GraphqlCall)

/-- Every exchange has come to its end. -/
def Closed (ts : List (List Traffic)) : Prop := ∀ t ∈ ts, s.Speaks p call .ended t

/-- The latest exchange has got so far. -/
def Open (part : Part) (ts : List (List Traffic)) : Prop :=
  ∃ t rest, ts = t :: rest ∧ s.Speaks p call part t ∧ s.Closed p call rest

/-- What is true of the exchanges between two rounds. -/
def Kept : Phase → List (List Traffic) → Prop
  | .acknowledging .. => s.Open p call .greeting
  | .streaming => s.Open p call .streaming
  | .connecting _ | .backingOff .. | .finished => s.Closed p call

end Rounds

section Keeping

variable {s : Subscription} {p : SubProtocol} {call : GraphqlCall} {ts : List (List Traffic)}
  {part : Part} {text : String} {post : Phase → List (List Traffic) → Prop}

theorem Open.closed (h : s.Open p call part ts) : s.Closed p call ts := by
  obtain ⟨t, rest, rfl, speaks, closed⟩ := h
  exact List.forall_mem_cons.mpr ⟨.left speaks, closed⟩

theorem Open.greeted (h : s.Open p call .greeting ts) (text : String) :
    s.Open p call .greeting (note (.received text) ts) := by
  obtain ⟨t, rest, rfl, speaks, closed⟩ := h
  exact ⟨_, rest, rfl, .greeted text speaks, closed⟩

theorem Open.started (h : s.Open p call .greeting ts) (tells : Says text "connection_ack") :
    s.Open p call .streaming
      (note (.sent (s.startMessage p call)) (note (.received text) ts)) := by
  obtain ⟨t, rest, rfl, speaks, closed⟩ := h
  exact ⟨_, rest, rfl, .started speaks tells, closed⟩

theorem Open.heard (h : s.Open p call .streaming ts) (goes : ¬ s.Concludes text) :
    s.Open p call .streaming (note (.received text) ts) := by
  obtain ⟨t, rest, rfl, speaks, closed⟩ := h
  exact ⟨_, rest, rfl, .heard speaks goes, closed⟩

theorem Open.answered (h : s.Open p call part ts) (live : part ≠ .ended)
    (tells : Says text "ping") :
    s.Open p call part (note (.sent pongMessage) (note (.received text) ts)) := by
  obtain ⟨t, rest, rfl, speaks, closed⟩ := h
  exact ⟨_, rest, rfl, .answered speaks live tells, closed⟩

theorem Open.concluded (h : s.Open p call .streaming ts) (text : String) :
    s.Closed p call (note (.received text) ts) := by
  obtain ⟨t, rest, rfl, speaks, closed⟩ := h
  exact List.forall_mem_cons.mpr ⟨.concluded text speaks, closed⟩

theorem makes_leave {next : Phase} (h : post next ts) : Makes post (leave next) ts :=
  fun _ _ => h

theorem makes_sendOr {attempt : Nat} {next : Phase} (sent : post next (note (.sent text) ts))
    (lost : ∀ f, post (.backingOff attempt f) (note (.sent text) ts)) :
    Makes post (sendOr text attempt next) ts := by
  rintro (f | ⟨⟩)
  · exact makes_leave (lost f)
  · exact sent

/-- Before the words that end the operation, the session streamed. -/
theorem makes_stop (h : s.Open p call .streaming ts) :
    Makes (fun _ => s.Closed p call) (s.stop p) ts := by
  obtain ⟨t, rest, rfl, speaks, closed⟩ := h
  have stopped := Speaks.stopped speaks
  by_cases announces : announcesEnd p = true
  · rw [stop, if_pos announces]
    rw [if_pos announces] at stopped
    intro _ _
    refine List.forall_mem_cons.mpr ⟨?_, closed⟩
    simpa using stopped
  · rw [stop, if_neg announces]
    rw [if_neg announces] at stopped
    exact fun _ => List.forall_mem_cons.mpr ⟨stopped, closed⟩

theorem makes_stop_leave (h : s.Open p call .streaming ts) :
    Makes (s.Kept p call) (s.stop p >>= fun _ => leave .finished) ts :=
  Makes.bind ((makes_stop h).mono fun _ _ closed => makes_leave closed)

theorem greetingMeaning_acknowledged (h : greetingMeaning text = .acknowledged) :
    Says text "connection_ack" := by
  unfold greetingMeaning at h
  split at h
  · cases h
  · rename_i m read
    split at h
    · exact ⟨m, read, ‹_›⟩
    all_goals cases h

theorem greetingMeaning_ping (h : greetingMeaning text = .ping) : Says text "ping" := by
  unfold greetingMeaning at h
  split at h
  · cases h
  · rename_i m read
    split at h
    · cases h
    · cases h
    · exact ⟨m, read, ‹_›⟩
    · cases h

theorem frameMeaning_ping (h : s.frameMeaning p text = .ping) : Says text "ping" := by
  unfold frameMeaning at h
  split at h
  · cases h
  · rename_i m read
    by_cases ping : messageType m = "ping"
    · exact ⟨m, read, ping⟩
    · rw [if_neg (by simpa using ping)] at h
      split_ifs at h

theorem Concludes.meaning (h : s.Concludes text) :
    s.frameMeaning p text = .completed ∨ ∃ reason, s.frameMeaning p text = .refused reason := by
  obtain ⟨m, read, kind | kind, mine⟩ := h
  · exact .inl (by simp [frameMeaning, read, kind, mine])
  · exact .inr ⟨payloadErrorText (m.get? "payload"), by simp [frameMeaning, read, kind, mine]⟩

theorem makes_connect (attempt : Nat) (h : s.Closed p call ts) :
    Makes (s.Kept p call) (s.connectGraphql p attempt) ts := by
  rintro (_ | f | ⟨⟩)
  · exact h
  · exact h
  · have opened : s.Open p call .greeting (note (.sent s.initMessage) ([] :: ts)) :=
      ⟨_, ts, rfl, .opened, h⟩
    rintro (f | ⟨⟩)
    · exact makes_leave opened.closed
    · exact fun _ => opened

theorem makes_acknowledge (attempt deadline : Nat) (h : s.Open p call .greeting ts) :
    Makes (s.Kept p call) (s.acknowledge p call attempt deadline) ts := by
  unfold acknowledge
  intro greeting
  cases greeting with
  | cancelled => exact makes_leave h.closed
  | elapsed => exact makes_leave h.closed
  | closed => exact makes_leave h.closed
  | failed f => exact makes_leave h.closed
  | frame text =>
    have greeted := h.greeted text
    dsimp only [Process.done_bind]
    cases meaning : greetingMeaning text with
    | acknowledged =>
      have started := h.started (greetingMeaning_acknowledged meaning)
      exact makes_sendOr started fun _ => started.closed
    | rejected payload => exact makes_leave greeted.closed
    | ping =>
      have answered := h.answered nofun (greetingMeaning_ping meaning)
      exact makes_sendOr answered fun _ => answered.closed
    | nothing => exact greeted

theorem makes_stream (h : s.Open p call .streaming ts) :
    Makes (s.Kept p call) (s.streamGraphql p) ts := by
  unfold streamGraphql
  intro incoming
  cases incoming with
  | cancelled => exact makes_stop_leave h
  | abandoned => exact makes_stop_leave h
  | outgoing _ => exact h
  | closed => exact makes_leave h.closed
  | failed f => exact makes_leave h.closed
  | frame text =>
    have concluded := h.concluded text
    -- A frame that ends the operation completes it or refuses it, and means nothing else.
    have goes (m : FrameMeaning) (meaning : s.frameMeaning p text = m) (apart : m ≠ .completed)
        (apart' : ∀ reason, m ≠ .refused reason) : ¬ s.Concludes text := fun concludes => by
      rcases concludes.meaning (p := p) with completed | ⟨reason, refused⟩
      · exact apart (meaning.symm.trans completed)
      · exact apart' reason (meaning.symm.trans refused)
    dsimp only [Process.done_bind]
    cases meaning : s.frameMeaning p text with
    | ping =>
      have answered := h.answered nofun (frameMeaning_ping meaning)
      exact makes_sendOr answered fun _ => answered.closed
    | broken payload => exact makes_leave concluded
    | completed => exact makes_leave concluded
    | refused reason => exact fun _ => makes_leave concluded
    | data e =>
      have heard := h.heard (goes _ meaning nofun nofun)
      rintro (_ | _)
      · exact makes_stop_leave heard
      · exact heard
    | nothing => exact h.heard (goes _ meaning nofun nofun)

theorem makes_backOff (attempt : Nat) (cause : Fault) (h : s.Closed p call ts) :
    Makes (s.Kept p call) (s.backOff attempt cause) ts := by
  unfold backOff
  split
  · exact fun _ _ => h
  · rintro (_ | _) _
    · exact h
    · exact h

/-- A round keeps to the protocol. -/
theorem makes_round (kind : s.kind = .graphql p call) (phase : Phase) (h : s.Kept p call phase ts) :
    Makes (s.Kept p call) (s.round phase) ts := by
  unfold round
  rw [kind]
  cases phase with
  | connecting attempt => exact makes_connect attempt h
  | acknowledging attempt deadline => exact makes_acknowledge attempt deadline h
  | streaming => exact makes_stream h
  | backingOff attempt cause => exact makes_backOff attempt cause h
  | finished => exact h

theorem Rounds.kept (kind : s.kind = .graphql p call) {history : List (Happening interface)}
    {phase : Phase} (h : s.Rounds history phase) : s.Kept p call phase (exchanges history) := by
  induction h with
  | start => exact fun t ht => absurd ht List.not_mem_nil
  | round _ ends ih =>
    rw [exchanges, List.foldl_append]
    exact (makes_round kind _ ih).of_ends ends

theorem Kept.closed {phase : Phase} (h : s.Kept p call phase ts) : s.Closed p call ts := by
  cases phase with
  | acknowledging attempt deadline => exact Open.closed h
  | streaming => exact Open.closed h
  | connecting attempt => exact h
  | backingOff attempt cause => exact h
  | finished => exact h

end Keeping

/-! ### Within a round -/

theorem note_prefix (x : Traffic) {ts : List (List Traffic)} {t : List Traffic} (h : t ∈ ts) :
    ∃ u ∈ note x ts, t <+: u := by
  cases ts with
  | nil => exact absurd h List.not_mem_nil
  | cons first rest =>
    rcases List.mem_cons.mp h with rfl | old
    · exact ⟨t ++ [x], List.mem_cons_self, List.prefix_append t [x]⟩
    · exact ⟨t, List.mem_cons_of_mem _ old, List.prefix_rfl⟩

theorem record_prefix (e : Happening interface) {ts : List (List Traffic)} {t : List Traffic}
    (h : t ∈ ts) : ∃ u ∈ record ts e, t <+: u := by
  unfold record
  split
  · exact ⟨t, List.mem_cons_of_mem _ h, List.prefix_rfl⟩
  · exact note_prefix _ h
  · exact note_prefix _ h
  · exact note_prefix _ h
  · exact ⟨t, h, List.prefix_rfl⟩

/-- What was exchanged stays, and more may follow. -/
theorem exchanges_prefix {history : List (Happening interface)}
    (later : List (Happening interface)) {t : List Traffic} (h : t ∈ exchanges history) :
    ∃ u ∈ exchanges (history ++ later), t <+: u := by
  rw [exchanges, List.foldl_append, ← exchanges]
  generalize exchanges history = ts at h
  induction later generalizing ts t with
  | nil => exact ⟨t, h, List.prefix_rfl⟩
  | cons e later ih =>
    obtain ⟨u, hu, first⟩ := record_prefix e h
    obtain ⟨v, hv, second⟩ := ih _ hu
    exact ⟨v, hv, first.trans second⟩

section Lives

variable {s : Subscription} {p : SubProtocol} {call : GraphqlCall}
  {history : List (Happening interface)} {r : Operation Phase}

theorem exists_answer : ∀ q : Ask, ∃ _ : Answer q, True
  | .connect .. => ⟨none, trivial⟩
  | .send _ => ⟨.ok (), trivial⟩
  | .deadline _ => ⟨0, trivial⟩
  | .greeting _ => ⟨.cancelled, trivial⟩
  | .incoming => ⟨.cancelled, trivial⟩
  | .emit _ => ⟨true, trivial⟩
  | .pause _ => ⟨true, trivial⟩
  | .close => ⟨(), trivial⟩
  | .release => ⟨(), trivial⟩

/-- The round that a session stands in can be ended. -/
theorem Lives.ends (h : s.Lives history r) :
    ∃ later next, r.Ends later next ∧ s.Rounds (history ++ later) next := by
  obtain ⟨past, phase, here, rounds, comes, rfl⟩ := h
  obtain ⟨later, next, ends, -⟩ := Process.exists_ends (P := fun _ => True) exists_answer r
  refine ⟨later, next, ends, ?_⟩
  rw [List.append_assoc]
  exact .round rounds (comes.ends ends)

/-- Whatever comes over the connections of a session, and wherever it stands: each of its exchanges
conforms to the protocol, or is the beginning of one that does. When a round has ended, each
conforms. -/
theorem exchanges_conform (kind : s.kind = .graphql p call) (lives : s.Lives history r) :
    (∀ t ∈ exchanges history, ∃ u, t <+: u ∧ s.Conforms p call u) ∧
      ∀ phase, r = .done phase → ∀ t ∈ exchanges history, s.Conforms p call t := by
  obtain ⟨later, next, ends, rounds⟩ := lives.ends
  have closed : s.Closed p call (exchanges (history ++ later)) := (rounds.kept kind).closed
  constructor
  · intro t ht
    obtain ⟨u, hu, before⟩ := exchanges_prefix later ht
    exact ⟨u, before, (closed u hu).conforms⟩
  · rintro phase rfl t ht
    obtain ⟨rfl, -⟩ := Process.ends_done_iff.mp ends
    rw [List.append_nil] at closed
    exact (closed t ht).conforms

end Lives

/-! ### The end before the start

A session that waits for its acknowledgement does not heed what is said about an operation. It goes
on when it is acknowledged, even if the server has told that the operation is over.
-/

section Greetings

variable {s : Subscription} {p : SubProtocol} {call : GraphqlCall} {text : String}

theorem round_connected (kind : s.kind = .graphql p call) (attempt deadline : Nat) :
    (s.round (.connecting attempt)).Ends
      [⟨.connect s.url (some p.header) s.headers, some (.ok ())⟩, ⟨.send s.initMessage, .ok ()⟩,
        ⟨.deadline s.settings.ackTimeout, deadline⟩] (.acknowledging attempt deadline) := by
  rw [round, kind]
  exact .asked _ (.asked _ (.asked _ (.done _)))

theorem round_unheeded (kind : s.kind = .graphql p call) (attempt deadline : Nat)
    (meaning : greetingMeaning text = .nothing) :
    (s.round (.acknowledging attempt deadline)).Ends [⟨.greeting deadline, .frame text⟩]
      (.acknowledging attempt deadline) := by
  rw [round, kind]
  refine .asked _ ?_
  simp only [Process.done_bind, meaning]
  exact .done _

theorem round_acknowledged (kind : s.kind = .graphql p call) (attempt deadline : Nat)
    (meaning : greetingMeaning text = .acknowledged) :
    (s.round (.acknowledging attempt deadline)).Ends
      [⟨.greeting deadline, .frame text⟩, ⟨.send (s.startMessage p call), .ok ()⟩] .streaming := by
  rw [round, kind]
  refine .asked _ ?_
  simp only [Process.done_bind, meaning]
  exact .asked _ (.done _)

end Greetings

def tickCall : GraphqlCall := ⟨.subscription, "subscription S", .empty⟩

/-- The stream of one operation. -/
def ticks : Subscription where
  id := "1"
  url := "wss://a/graphql"
  headers := default
  kind := .graphql .transportWs tickCall
  settings := {}

def tickEnd : String := message [("id", .str "1"), ("type", .str "complete")]

def tickAck : String := message [("type", .str "connection_ack")]

theorem tickAck_acknowledges : greetingMeaning tickAck = .acknowledged := by decide +kernel

/-- The server tells of the end before it acknowledges the connection. -/
def endedEarly : List (Happening interface) :=
  [⟨.connect ticks.url (some SubProtocol.transportWs.header) ticks.headers, some (.ok ())⟩,
    ⟨.send ticks.initMessage, .ok ()⟩, ⟨.deadline ticks.settings.ackTimeout, (0 : Nat)⟩] ++
  [⟨.greeting 0, .frame tickEnd⟩] ++
  [⟨.greeting 0, .frame tickAck⟩, ⟨.send (ticks.startMessage .transportWs tickCall), .ok ()⟩]

theorem lives_endedEarly : ticks.Lives endedEarly (.done .streaming) := by
  have connected := Rounds.round .start (round_connected (s := ticks) rfl 0 0)
  have ignored : greetingMeaning tickEnd = .nothing := by decide +kernel
  have unheeded := connected.round (round_unheeded rfl 0 0 ignored)
  have acknowledged := round_acknowledged (s := ticks) rfl 0 0 tickAck_acknowledges
  exact ⟨_, _, _, unheeded, Process.comes_done_iff.mpr acknowledged, rfl⟩

/-- The session has started the operation after it was told of its end. -/
theorem exchanges_conform_endedEarly :
    ticks.Lives endedEarly (.done .streaming) ∧
      exchanges endedEarly = [[.sent ticks.initMessage, .received tickEnd, .received tickAck,
        .sent (ticks.startMessage .transportWs tickCall)]] ∧
      ∀ t ∈ exchanges endedEarly, ticks.Conforms .transportWs tickCall t :=
  ⟨lives_endedEarly, rfl, (exchanges_conform rfl lives_endedEarly).2 .streaming rfl⟩

/-- Nothing is sent after the server has told of the end. -/
def FallsSilent (s : Subscription) (t : List Traffic) : Prop :=
  ∀ earlier told later, t = earlier ++ .received told :: later → s.Concludes told →
    sentTexts later = []

theorem not_fallsSilent : ¬ ∀ (s : Subscription) (p : SubProtocol) (call : GraphqlCall) history r,
    s.kind = .graphql p call → s.Lives history r → ∀ t ∈ exchanges history, s.FallsSilent t := by
  intro silent
  have told : ticks.Concludes tickEnd :=
    ⟨.obj [("id", .str "1"), ("type", .str "complete")], by decide +kernel, by decide, by decide⟩
  have nothing := silent ticks .transportWs tickCall endedEarly _ rfl lives_endedEarly _
    (List.mem_singleton_self _) [.sent ticks.initMessage] tickEnd
    [.received tickAck, .sent (ticks.startMessage .transportWs tickCall)] rfl told
  cases nothing

end ScreenFlow.Subscription
