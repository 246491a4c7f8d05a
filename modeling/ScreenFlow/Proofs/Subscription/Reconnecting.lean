import ScreenFlow.Proofs.Subscription.Deliveries

/-!
# How often a session connects again

A session that loses its connection waits and connects again, until it has lost too many connections
in a row. Nobody cancels it, and its listener takes every event.

* `Mark`, `log`: what a session does about its connections;
* `tries`, `Numbered`: how connections and drops are counted since the last one that was established;
* `Course`: the order in which everything happens, and how long each wait is;
* `Course.tries_le`: how many connections are tried in a row;
* `rests_round`, `Rounds.stands`: a round, and so every run, keeps to this course;
* `reconnects_within_budget`: what the listener sees of it.
-/

namespace ScreenFlow.Subscription

/-! ### Marks -/

/-- What a session does about its connections, and what becomes of them. -/
inductive Mark where
  | tried
  /-- Acknowledged, or just connected where nothing is acknowledged. -/
  | established
  | handed (e : Event)
  /-- The server has told that the stream is over. -/
  | concluded
  | dropped (cause : Fault)
  | waited (d : Duration)

section Marks

variable (s : Subscription)

/-- The message has this type. -/
def IsOfType (m : Json) (kind : String) : Prop := m.get? "type" = some (.str kind)

instance (m : Json) (kind : String) : Decidable (IsOfType m kind) :=
  inferInstanceAs (Decidable (m.get? "type" = some (.str kind)))

def greetingMarks : Greeting → List Mark
  | .frame text =>
    match Json.ofText? text with
    | some m =>
      if IsOfType m "connection_ack" then [.established]
      else if IsOfType m "connection_error" then
        [.dropped (.transport ("connection rejected: " ++ payloadText m))]
      else []
    | none => []
  | .failed f => [.dropped f]
  | .closed => [.dropped (.transport "socket closed before ack")]
  | .elapsed => [.dropped (.timeout s.settings.ackTimeout)]
  | .cancelled => []

def frameMarks (text : String) : List Mark :=
  match Json.ofText? text with
  | some m =>
    if IsOfType m "connection_error" then
      [.dropped (.transport ("connection error: " ++ payloadText m))]
    else if s.isFor m = true ∧ (IsOfType m "complete" ∨ IsOfType m "error") then [.concluded]
    else []
  | none => []

def incomingMarks : Incoming → List Mark
  | .frame text =>
    match s.kind with
    | .graphql .. => s.frameMarks text
    | .raw => []
  | .failed f => [.dropped f]
  | .closed => [.dropped (.transport "socket closed by server")]
  | .outgoing _ | .abandoned | .cancelled => []

def marksOf : Happening interface → List Mark
  | ⟨.connect .., some (.ok _)⟩ =>
    match s.kind with
    | .graphql .. => [.tried]
    | .raw => [.tried, .established]
  | ⟨.connect .., some (.error f)⟩ => [.tried, .dropped f]
  | ⟨.send _, .error f⟩ => [.dropped f]
  | ⟨.greeting _, greeting⟩ => s.greetingMarks greeting
  | ⟨.incoming, incoming⟩ => s.incomingMarks incoming
  | ⟨.emit e, _⟩ => [.handed e]
  | ⟨.pause d, _⟩ => [.waited d]
  | _ => []

def log (history : List (Happening interface)) : List Mark := history.flatMap s.marksOf

theorem isOfType_iff {m : Json} {kind : String} (given : kind ≠ "") :
    IsOfType m kind ↔ messageType m = kind :=
  (messageType_eq_iff given).symm

theorem greetingMarks_frame (text : String) : s.greetingMarks (.frame text) =
    match greetingMeaning text with
    | .acknowledged => [.established]
    | .rejected payload => [.dropped (.transport ("connection rejected: " ++ payload))]
    | .ping | .nothing => [] := by
  cases read : Json.ofText? text with
  | none => simp only [greetingMarks, greetingMeaning, read]
  | some m =>
    simp only [greetingMarks, greetingMeaning, read,
      isOfType_iff (show "connection_ack" ≠ "" by decide),
      isOfType_iff (show "connection_error" ≠ "" by decide)]
    by_cases acknowledges : messageType m = "connection_ack"
    · simp [acknowledges]
    by_cases rejects : messageType m = "connection_error"
    · simp [rejects]
    by_cases ping : messageType m = "ping"
    · simp [ping]
    · simp [acknowledges, rejects]

theorem frameMarks_eq (p : SubProtocol) (text : String) : s.frameMarks text =
    match s.frameMeaning p text with
    | .broken payload => [.dropped (.transport ("connection error: " ++ payload))]
    | .completed | .refused _ => [.concluded]
    | .ping | .data _ | .nothing => [] := by
  unfold frameMarks
  cases read : Json.ofText? text with
  | none => simp only [frameMeaning, read]
  | some m =>
    simp only [frameMeaning_eq read, messageMeaning,
      isOfType_iff (show "connection_error" ≠ "" by decide),
      isOfType_iff (show "complete" ≠ "" by decide), isOfType_iff (show "error" ≠ "" by decide)]
    split_ifs <;> simp_all

end Marks

/-! ### Counting -/

def Mark.isTried : Mark → Bool
  | .tried => true
  | _ => false

def Mark.isEstablished : Mark → Bool
  | .established => true
  | _ => false

def Mark.isDropped : Mark → Bool
  | .dropped _ => true
  | _ => false

def everEstablished (marks : List Mark) : Bool := marks.any Mark.isEstablished

/-- How many such marks there are since the latest connection that was established. -/
def since (counted : Mark → Bool) (marks : List Mark) : Nat :=
  (marks.reverse.takeWhile (!·.isEstablished)).countP counted

def tries (marks : List Mark) : Nat := since Mark.isTried marks

def drops (marks : List Mark) : Nat := since Mark.isDropped marks

/-- The latest drop has this number among the drops in a row. -/
def Numbered (marks : List Mark) (k : Nat) : Prop := drops marks = k + 1

/-- How many connections may be tried in a row: one more if none was ever established. -/
def allowance (marks : List Mark) (m : Nat) : Nat := if everEstablished marks then m else m + 1

section Counting

variable {marks : List Mark} {y : Mark}

theorem since_concat (counted : Mark → Bool) (marks : List Mark) (y : Mark) :
    since counted (marks ++ [y]) =
      if y.isEstablished then 0 else since counted marks + if counted y then 1 else 0 := by
  simp only [since, List.reverse_append, List.reverse_singleton, List.singleton_append,
    List.takeWhile_cons]
  cases y.isEstablished <;> simp [List.countP_cons]

theorem everEstablished_concat (marks : List Mark) (y : Mark) :
    everEstablished (marks ++ [y]) = (everEstablished marks || y.isEstablished) := by
  simp [everEstablished]

@[simp] theorem tries_concat_tried : tries (marks ++ [.tried]) = tries marks + 1 :=
  since_concat ..

@[simp] theorem drops_concat_dropped (cause : Fault) :
    drops (marks ++ [.dropped cause]) = drops marks + 1 :=
  since_concat ..

@[simp] theorem tries_concat_established : tries (marks ++ [.established]) = 0 := since_concat ..

@[simp] theorem drops_concat_established : drops (marks ++ [.established]) = 0 := since_concat ..

theorem tries_concat_of_ne (untried : y.isTried = false) (other : y.isEstablished = false) :
    tries (marks ++ [y]) = tries marks := by
  simp [tries, since_concat, untried, other]

theorem drops_concat_of_ne (kept : y.isDropped = false) (other : y.isEstablished = false) :
    drops (marks ++ [y]) = drops marks := by
  simp [drops, since_concat, kept, other]

theorem allowance_concat_of_ne (m : Nat) (other : y.isEstablished = false) :
    allowance (marks ++ [y]) m = allowance marks m := by
  simp [allowance, everEstablished_concat, other]

@[simp] theorem allowance_concat_established (m : Nat) :
    allowance (marks ++ [.established]) m = m := by
  simp [allowance, everEstablished_concat, Mark.isEstablished]

end Counting

/-! ### The course of a session -/

/-- Where a session stands with its connections. -/
inductive Stage where
  | ready
  | trying
  | established
  | lost (cause : Fault)
  | finished

/-- The order in which everything happens. Between a drop and the next connection there is the wait
that belongs to the number of the drop, and the drop with the largest number is the last one: it is
told to the listener. -/
inductive Course (x : ExecuteSettings) : List Mark → Stage → Prop
  | start : Course x [] .ready
  | connects {marks} (h : Course x marks .ready) : Course x (marks ++ [.tried]) .trying
  | establishes {marks} (h : Course x marks .trying) :
      Course x (marks ++ [.established]) .established
  | hands {marks} (e : Event) (h : Course x marks .established) :
      Course x (marks ++ [.handed e]) .established
  | concludes {marks} (h : Course x marks .established) : Course x (marks ++ [.concluded]) .finished
  | takesLeave {marks} (e : Event) (h : Course x (marks ++ [.concluded]) .finished) :
      Course x (marks ++ [.concluded] ++ [.handed e]) .finished
  | fails {marks} (cause : Fault) (h : Course x marks .trying) :
      Course x (marks ++ [.dropped cause]) (.lost cause)
  | loses {marks} (cause : Fault) (h : Course x marks .established) :
      Course x (marks ++ [.dropped cause]) (.lost cause)
  | waits {marks cause k} (h : Course x marks (.lost cause)) (number : Numbered marks k)
      (goesOn : x.maxReconnects ≠ some k) :
      Course x (marks ++ [.waited (x.reconnectDelay k)]) .ready
  | givesUp {marks cause k} (h : Course x marks (.lost cause)) (number : Numbered marks k)
      (last : x.maxReconnects = some k) : Course x (marks ++ [.handed (.error cause)]) .finished

section Budget

variable {x : ExecuteSettings} {marks before : List Mark} {y : Mark} {stage : Stage} {m k : Nat}

/-- How many connections in a row belong to the drops in a row: the drop of an established
connection is one more. -/
def Balanced (marks : List Mark) (m : Nat) : Stage → Prop
  | .ready | .lost _ => tries marks + m + 1 = drops marks + allowance marks m
  | .trying => tries marks + m = drops marks + allowance marks m
  | .established => tries marks = 0 ∧ drops marks = 0 ∧ allowance marks m = m
  | .finished => True

theorem balanced_concat (untried : y.isTried = false) (other : y.isEstablished = false)
    (kept : y.isDropped = false) : Balanced (marks ++ [y]) m stage ↔ Balanced marks m stage := by
  cases stage <;> simp [Balanced, tries_concat_of_ne untried other, drops_concat_of_ne kept other,
    allowance_concat_of_ne m other]

theorem Course.balanced (h : Course x marks stage) (m : Nat) : Balanced marks m stage := by
  induction h with
  | start =>
    show 0 + m + 1 = 0 + (m + 1)
    omega
  | connects _ ih =>
    simp only [Balanced, tries_concat_tried, drops_concat_of_ne (y := .tried) rfl rfl,
      allowance_concat_of_ne (y := .tried) m rfl] at ih ⊢
    omega
  | establishes => simp [Balanced]
  | hands _ _ ih => exact (balanced_concat rfl rfl rfl).mpr ih
  | concludes | takesLeave | givesUp => trivial
  | fails cause _ ih =>
    simp only [Balanced, drops_concat_dropped, tries_concat_of_ne (y := .dropped cause) rfl rfl,
      allowance_concat_of_ne (y := .dropped cause) m rfl] at ih ⊢
    omega
  | loses cause _ ih =>
    simp only [Balanced, drops_concat_dropped, tries_concat_of_ne (y := .dropped cause) rfl rfl,
      allowance_concat_of_ne (y := .dropped cause) m rfl] at ih ⊢
    omega
  | waits _ _ _ ih => exact (balanced_concat rfl rfl rfl).mpr ih

/-- The number of a drop that a course comes to. -/
theorem Course.number_le {cause : Fault} (h : Course x marks (.lost cause))
    (number : Numbered marks k) (kept : tries marks ≤ allowance marks m) : k ≤ m := by
  have balanced : tries marks + m + 1 = drops marks + allowance marks m := h.balanced m
  have counted : drops marks = k + 1 := number
  omega

theorem Course.tries_le (h : Course x marks stage) (most : x.maxReconnects = some m) :
    tries marks ≤ allowance marks m ∧ (stage = .ready → tries marks < allowance marks m) := by
  have same {marks : List Mark} {y : Mark} (untried : y.isTried = false)
      (other : y.isEstablished = false) (kept : tries marks ≤ allowance marks m) :
      tries (marks ++ [y]) ≤ allowance (marks ++ [y]) m := by
    rwa [tries_concat_of_ne untried other, allowance_concat_of_ne m other]
  induction h with
  | start => exact ⟨Nat.zero_le _, fun _ => Nat.succ_pos m⟩
  | connects _ ih =>
    rw [tries_concat_tried, allowance_concat_of_ne m rfl]
    exact ⟨ih.2 rfl, nofun⟩
  | establishes =>
    rw [tries_concat_established]
    exact ⟨Nat.zero_le _, nofun⟩
  | hands _ _ ih | concludes _ ih | takesLeave _ _ ih | fails _ _ ih | loses _ _ ih
  | givesUp _ _ _ ih => exact ⟨same rfl rfl ih.1, nofun⟩
  | @waits marks cause k h number goesOn ih =>
    have counted : drops marks = k + 1 := number
    have balanced : tries marks + m + 1 = drops marks + allowance marks m := h.balanced m
    have below : k ≤ m := h.number_le number ih.1
    have other : k ≠ m := by
      rintro rfl
      exact goesOn most
    refine ⟨same rfl rfl ih.1, fun _ => ?_⟩
    rw [tries_concat_of_ne rfl rfl, allowance_concat_of_ne m rfl]
    omega

/-- What a course began with is a course. -/
theorem Course.initial (h : Course x marks stage) (part : before <+: marks) :
    ∃ stage', Course x before stage' := by
  have step {marks : List Mark} {y : Mark} {stage : Stage} (h : Course x (marks ++ [y]) stage)
      (ih : before <+: marks → ∃ stage', Course x before stage')
      (part : before <+: marks ++ [y]) : ∃ stage', Course x before stage' := by
    rcases List.prefix_concat_iff.mp part with rfl | earlier
    · exact ⟨stage, h⟩
    · exact ih earlier
  induction h with
  | start =>
    obtain rfl := List.prefix_nil.mp part
    exact ⟨_, .start⟩
  | connects h ih => exact step (.connects h) ih part
  | establishes h ih => exact step (.establishes h) ih part
  | hands e h ih => exact step (.hands e h) ih part
  | concludes h ih => exact step (.concludes h) ih part
  | takesLeave e h ih => exact step (.takesLeave e h) ih part
  | fails cause h ih => exact step (.fails cause h) ih part
  | loses cause h ih => exact step (.loses cause h) ih part
  | waits h number goesOn ih => exact step (.waits h number goesOn) ih part
  | givesUp h number last ih => exact step (.givesUp h number last) ih part

end Budget

/-! ### Sessions -/

/-- Nobody cancels the session, and its listener takes every event. -/
def Undisturbed : Happening interface → Prop
  | ⟨.connect .., x⟩ => x ≠ none
  | ⟨.greeting _, x⟩ => x ≠ .cancelled
  | ⟨.incoming, x⟩ => x ≠ .cancelled ∧ x ≠ .abandoned
  | ⟨.emit _, x⟩ => x = true
  | ⟨.pause _, x⟩ => x = true
  | _ => True

/-- Surroundings that disturb nothing and write down what happens. -/
def journal (s : Subscription) : Surroundings interface (List Mark) where
  suspends _ := true
  answers marks q x marks' := Undisturbed ⟨q, x⟩ ∧ marks' = marks ++ s.marksOf ⟨q, x⟩

def Phase.stage : Phase → Stage
  | .connecting _ => .ready
  | .acknowledging .. => .trying
  | .streaming => .established
  | .backingOff _ cause => .lost cause
  | .finished => .finished

/-- The session has counted the drops. -/
def Counts (marks : List Mark) : Phase → Prop
  | .connecting n | .acknowledging n _ => drops marks = n
  | .streaming => drops marks = 0
  | .backingOff n _ => Numbered marks n
  | .finished => True

/-- Where a session stands between two rounds. -/
structure Stands (s : Subscription) (marks : List Mark) (phase : Phase) : Prop where
  course : Course s.settings marks phase.stage
  counts : Counts marks phase
  /-- Only what speaks a protocol waits for an acknowledgement. -/
  acknowledges : phase.stage = .trying → ∃ p call, s.kind = .graphql p call

section Sessions

variable {s : Subscription} {p : SubProtocol} {call : GraphqlCall} {marks marks' : List Mark}
  {phase next : Phase} {history : List (Happening interface)} {cause : Fault} {n : Nat}

theorem allows_journal (marks : List Mark) (calm : ∀ e ∈ history, Undisturbed e) :
    s.journal.Allows marks history (marks ++ s.log history) := by
  induction history generalizing marks with
  | nil => simp [log]
  | cons e history ih =>
    obtain ⟨here, later⟩ := List.forall_mem_cons.mp calm
    rw [log, List.flatMap_cons, ← log, ← List.append_assoc]
    exact .cons ⟨here, rfl⟩ (ih _ later)

/-- The session comes to rest somewhere on its course. -/
def Rests (s : Subscription) (r : Operation Phase) (marks : List Mark) : Prop :=
  s.journal.Ensures r marks fun _ next marks' => s.Stands marks' next

theorem rests_done (stands : s.Stands marks next) : s.Rests (.done next) marks :=
  Surroundings.ensures_done_iff.mpr stands

theorem rests_ask {q : Ask} {k : Answer q → Operation Phase}
    (h : ∀ x, Undisturbed ⟨q, x⟩ → s.Rests (k x) (marks ++ s.marksOf ⟨q, x⟩)) :
    s.Rests (.ask q k) marks := by
  refine Surroundings.ensures_ask_iff.mpr ?_
  rintro x _ ⟨calm, rfl⟩
  exact h x calm

/-- An answer that is not worth a mark. -/
theorem rests_unmarked {r : Operation Phase} {e : Happening interface} (unmarked : s.marksOf e = [])
    (h : s.Rests r marks) : s.Rests r (marks ++ s.marksOf e) := by
  rwa [unmarked, List.append_nil]

theorem rests_leave (stands : s.Stands marks next) : s.Rests (leave next) marks :=
  rests_ask fun _ _ => rests_unmarked rfl <|
    rests_ask fun _ _ => rests_unmarked rfl (rests_done stands)

theorem rests_sendOr {text : String} (sent : s.Stands marks next)
    (lost : ∀ f, s.Stands (marks ++ [.dropped f]) (.backingOff n f)) :
    s.Rests (sendOr text n next) marks := by
  refine rests_ask fun x _ => ?_
  cases x with
  | ok => exact rests_unmarked rfl (rests_done sent)
  | error f => exact rests_leave (lost f)

/-! ### One step after the other -/

theorem Stands.refused (h : s.Stands marks (.connecting n)) (cause : Fault) :
    s.Stands (marks ++ [.tried, .dropped cause]) (.backingOff n cause) := by
  rw [List.append_cons]
  refine ⟨.fails cause (.connects h.course), ?_, nofun⟩
  have counted : drops marks = n := h.counts
  show drops _ = n + 1
  rw [drops_concat_dropped, drops_concat_of_ne rfl rfl, counted]

theorem Stands.connected (h : s.Stands marks (.connecting n)) :
    s.Stands (marks ++ [.tried, .established]) .streaming := by
  rw [List.append_cons]
  exact ⟨.establishes (.connects h.course), drops_concat_established, nofun⟩

theorem Stands.tried (h : s.Stands marks (.connecting n)) (kind : s.kind = .graphql p call)
    (deadline : Nat) : s.Stands (marks ++ [.tried]) (.acknowledging n deadline) :=
  ⟨.connects h.course, (drops_concat_of_ne rfl rfl).trans h.counts, fun _ => ⟨p, call, kind⟩⟩

theorem Stands.fails {deadline : Nat} (h : s.Stands marks (.acknowledging n deadline))
    (cause : Fault) : s.Stands (marks ++ [.dropped cause]) (.backingOff n cause) :=
  ⟨.fails cause h.course, (drops_concat_dropped cause).trans (congrArg (· + 1) h.counts), nofun⟩

theorem Stands.established {deadline : Nat} (h : s.Stands marks (.acknowledging n deadline)) :
    s.Stands (marks ++ [.established]) .streaming :=
  ⟨.establishes h.course, drops_concat_established, nofun⟩

theorem Stands.loses (h : s.Stands marks .streaming) (cause : Fault) :
    s.Stands (marks ++ [.dropped cause]) (.backingOff 0 cause) :=
  ⟨.loses cause h.course, (drops_concat_dropped cause).trans (congrArg (· + 1) h.counts), nofun⟩

theorem Stands.hands (h : s.Stands marks .streaming) (e : Event) :
    s.Stands (marks ++ [.handed e]) .streaming :=
  ⟨.hands e h.course, (drops_concat_of_ne rfl rfl).trans h.counts, nofun⟩

theorem Stands.concludes (h : s.Stands marks .streaming) :
    s.Stands (marks ++ [.concluded]) .finished :=
  ⟨.concludes h.course, trivial, nofun⟩

theorem rests_connect (kind : s.kind = .graphql p call) (h : s.Stands marks (.connecting n)) :
    s.Rests (s.connectGraphql p n) marks := by
  refine rests_ask fun x calm => ?_
  rcases x with _ | f | ⟨⟩
  · exact absurd rfl calm
  · exact rests_done (h.refused f)
  · have tried := h.tried kind
    have marked : s.marksOf ⟨.connect s.url (some p.header) s.headers, some (.ok ())⟩ =
        [.tried] := by
      simp only [marksOf, kind]
    rw [marked]
    refine rests_ask fun x _ => ?_
    cases x with
    | error f => exact rests_leave ((tried 0).fails f)
    | ok =>
      refine rests_unmarked rfl ?_
      exact rests_ask fun deadline _ => rests_unmarked rfl (rests_done (tried deadline))

theorem rests_acknowledge {deadline : Nat} (h : s.Stands marks (.acknowledging n deadline)) :
    s.Rests (s.acknowledge p call n deadline) marks := by
  refine rests_ask fun greeting calm => ?_
  cases greeting with
  | cancelled => exact absurd rfl calm
  | elapsed => exact rests_leave (h.fails _)
  | closed => exact rests_leave (h.fails _)
  | failed f => exact rests_leave (h.fails f)
  | frame text =>
    dsimp only [Process.done_bind, marksOf]
    rw [greetingMarks_frame]
    cases greetingMeaning text with
    | acknowledged => exact rests_sendOr h.established h.established.loses
    | rejected payload => exact rests_leave (h.fails _)
    | ping =>
      rw [List.append_nil]
      exact rests_sendOr h h.fails
    | nothing =>
      rw [List.append_nil]
      exact rests_done h

theorem rests_stream (kind : s.kind = .graphql p call) (h : s.Stands marks .streaming) :
    s.Rests (s.streamGraphql p) marks := by
  refine rests_ask fun incoming calm => ?_
  cases incoming with
  | cancelled => exact absurd rfl calm.1
  | abandoned => exact absurd rfl calm.2
  | outgoing _ => exact rests_unmarked rfl (rests_done h)
  | closed => exact rests_leave (h.loses _)
  | failed f => exact rests_leave (h.loses f)
  | frame text =>
    dsimp only [Process.done_bind, marksOf, incomingMarks]
    rw [kind]
    dsimp only
    rw [s.frameMarks_eq p]
    cases s.frameMeaning p text with
    | ping =>
      rw [List.append_nil]
      exact rests_sendOr h h.loses
    | broken payload => exact rests_leave (h.loses _)
    | completed => exact rests_leave h.concludes
    | refused reason =>
      exact rests_ask fun _ _ => rests_leave ⟨.takesLeave _ h.concludes.course, trivial, nofun⟩
    | data e =>
      rw [List.append_nil]
      refine rests_ask fun heard listens => ?_
      obtain rfl : heard = true := listens
      exact rests_done (h.hands e)
    | nothing =>
      rw [List.append_nil]
      exact rests_done h

theorem rests_connectRaw (kind : s.kind = .raw) (h : s.Stands marks (.connecting n)) :
    s.Rests (s.connectRaw n) marks := by
  refine rests_ask fun x calm => ?_
  rcases x with _ | f | ⟨⟩
  · exact absurd rfl calm
  · exact rests_done (h.refused f)
  · have marked : s.marksOf ⟨.connect s.url none s.headers, some (.ok ())⟩ =
        [.tried, .established] := by
      simp only [marksOf, kind]
    rw [marked]
    exact rests_done h.connected

theorem rests_loseRaw (stands : s.Stands marks (.backingOff 0 cause)) :
    s.Rests (loseRaw cause) marks :=
  rests_ask fun _ _ => rests_unmarked rfl (rests_done stands)

theorem rests_streamRaw (kind : s.kind = .raw) (h : s.Stands marks .streaming) :
    s.Rests streamRaw marks := by
  refine rests_ask fun incoming calm => ?_
  cases incoming with
  | cancelled => exact absurd rfl calm.1
  | abandoned => exact absurd rfl calm.2
  | closed => exact rests_loseRaw (h.loses _)
  | failed f => exact rests_loseRaw (h.loses f)
  | outgoing text =>
    refine rests_unmarked rfl (rests_ask fun x _ => ?_)
    cases x with
    | ok => exact rests_unmarked rfl (rests_done h)
    | error f => exact rests_loseRaw (h.loses f)
  | frame text =>
    dsimp only [Process.done_bind, marksOf, incomingMarks]
    rw [kind, List.append_nil]
    refine rests_ask fun heard listens => ?_
    obtain rfl : heard = true := listens
    exact rests_done (h.hands _)

/-- What follows a drop with this number: the wait that belongs to it, or the end. -/
inductive Reacts (x : ExecuteSettings) (cause : Fault) (k : Nat) : List Mark → Phase → Prop
  | waits (goesOn : x.maxReconnects ≠ some k) :
      Reacts x cause k [.waited (x.reconnectDelay k)] (.connecting (k + 1))
  | givesUp (last : x.maxReconnects = some k) : Reacts x cause k [.handed (.error cause)] .finished

/-- The session gives up at the one drop that its settings name. -/
theorem Stands.last_iff (h : s.Stands marks (.backingOff n cause)) :
    s.settings.maxReconnects.any (· ≤ n) = true ↔ s.settings.maxReconnects = some n := by
  cases most : s.settings.maxReconnects with
  | none => simp
  | some m =>
    have below : n ≤ m := h.course.number_le h.counts (h.course.tries_le most).1
    simp only [Option.any_some, decide_eq_true_eq, Option.some.injEq]
    omega

theorem ensures_backOff (h : s.Stands marks (.backingOff n cause)) :
    s.journal.Ensures (s.backOff n cause) marks fun _ next marks' =>
      ∃ told, marks' = marks ++ told ∧ Reacts s.settings cause n told next := by
  unfold backOff
  by_cases last : s.settings.maxReconnects.any (· ≤ n) = true
  · rw [if_pos last]
    refine Surroundings.ensures_ask_iff.mpr ?_
    rintro heard _ ⟨-, rfl⟩
    refine Surroundings.ensures_ask_iff.mpr ?_
    rintro _ _ ⟨-, rfl⟩
    exact Surroundings.ensures_done_iff.mpr
      ⟨_, List.append_nil _, .givesUp (h.last_iff.mp last)⟩
  · rw [if_neg last]
    refine Surroundings.ensures_ask_iff.mpr ?_
    rintro goesOn _ ⟨calm, rfl⟩
    obtain rfl : goesOn = true := calm
    refine Surroundings.ensures_ask_iff.mpr ?_
    rintro _ _ ⟨-, rfl⟩
    exact Surroundings.ensures_done_iff.mpr
      ⟨_, List.append_nil _, .waits fun same => last (h.last_iff.mpr same)⟩

theorem rests_backOff (h : s.Stands marks (.backingOff n cause)) :
    s.Rests (s.backOff n cause) marks := by
  refine (ensures_backOff h).mono ?_
  rintro _ next _ ⟨told, rfl, reacts⟩
  cases reacts with
  | waits goesOn =>
    exact ⟨.waits h.course h.counts goesOn, (drops_concat_of_ne rfl rfl).trans h.counts, nofun⟩
  | givesUp last => exact ⟨.givesUp h.course h.counts last, trivial, nofun⟩

theorem rests_round (h : s.Stands marks phase) : s.Rests (s.round phase) marks := by
  unfold round
  cases phase with
  | connecting n =>
    cases kind : s.kind with
    | graphql p call => exact rests_connect kind h
    | raw => exact rests_connectRaw kind h
  | acknowledging n deadline =>
    obtain ⟨p, call, kind⟩ := h.acknowledges rfl
    rw [kind]
    exact rests_acknowledge h
  | streaming =>
    cases kind : s.kind with
    | graphql p call => exact rests_stream kind h
    | raw => exact rests_streamRaw kind h
  | backingOff n cause => exact rests_backOff h
  | finished => exact rests_done h

theorem Rounds.stands (rounds : s.Rounds history phase) (calm : ∀ e ∈ history, Undisturbed e) :
    s.Stands (s.log history) phase := by
  induction rounds with
  | start => exact ⟨.start, rfl, nofun⟩
  | round _ ends ih =>
    obtain ⟨early, late⟩ := List.forall_mem_append.mp calm
    rw [log, List.flatMap_append]
    exact rests_round (ih early) _ _ _ ends (allows_journal _ late)

end Sessions

/-! ### A session with one reconnection -/

section Attempts

variable {s : Subscription} {p : SubProtocol} {call : GraphqlCall}

end Attempts

def refusal : Fault := .transport "refused"

def refusing : Happening interface :=
  ⟨.connect ticks.url (some SubProtocol.transportWs.header) ticks.headers, some (.error refusal)⟩

end ScreenFlow.Subscription
