import ScreenFlow.Proofs.Subscription.Exchanges

/-!
# What the listener gets

A server sends frames over a connection that it has acknowledged, until the socket ends. Nobody
cancels the session, and its listener takes every event.

* `Delivers`: the events that belong to a row of frames, and how the stream leaves the connection;
* `frameMeaning_eq_data_iff` and its neighbours: what a session makes of a frame is what the frame
  says;
* `Takes`, `comes_streaming_iff`: what a session does with the next frame;
* `deliveries_faithful`: it hands over the events of its frames, in their order, and no others;
* `not_deliversAll`: the frames behind a ping are lost if the ping cannot be answered.
-/

namespace ScreenFlow.Subscription

/-! ### What frames say -/

/-- What stands in the payload of a message under this key. -/
def inPayload (m : Json) (key : String) : Option Json := (m.get? "payload").bind (·.get? key)

/-- There is nothing, or null. -/
def Missing (v : Option Json) : Prop := ∀ x, v = some x → x = .null

/-- The event that a data message carries. -/
inductive Carries (m : Json) : Event → Prop
  | data {v} (found : inPayload m "data" = some v) (given : v ≠ .null) : Carries m (.ok v)
  | errors {v} (missing : Missing (inPayload m "data")) (found : inPayload m "errors" = some v) :
      Carries m (.error (.graphql (errorText v)))
  | nothing (missing : Missing (inPayload m "data")) (none : inPayload m "errors" = none) :
      Carries m (.ok .null)

section Frames

variable (s : Subscription) (p : SubProtocol)

/-- The frame is a message of this type, and names no other stream. -/
structure Tells (text kind : String) (m : Json) : Prop where
  read : Json.ofText? text = some m
  names : m.get? "type" = some (.str kind)
  addressed : ∀ id, m.get? "id" = some (.str id) → id = s.id

def Brings (text : String) (e : Event) : Prop := ∃ m, s.Tells text p.data m ∧ Carries m e

def Completes (text : String) : Prop := ∃ m, s.Tells text "complete" m

def Refuses (text : String) (e : Event) : Prop :=
  ∃ m, s.Tells text "error" m ∧ e = .error (.graphql (payloadErrorText (m.get? "payload")))

def Breaks (text : String) : Prop := Says text "connection_error"

/-- The frame neither brings an event nor ends anything. -/
structure Silent (text : String) : Prop where
  brings : ∀ e, ¬ s.Brings p text e
  completes : ¬ s.Completes text
  refuses : ∀ e, ¬ s.Refuses text e
  breaks : ¬ Breaks text

/-- What becomes of a connection. -/
inductive Fate where
  /-- All frames so far have been taken, and more may come. -/
  | lasting
  /-- The stream is over. -/
  | ended
  /-- The connection is lost, and the session may connect again. -/
  | dropped
deriving DecidableEq

/-- The events that are delivered of the frames that have come; the flag tells whether the session
could send all that it wanted to. -/
inductive Delivers : Bool → List String → List Event → Fate → Prop
  | taken : Delivers true [] [] .lasting
  | closed : Delivers true [] [] .dropped
  | data {sent text frames e es fate} (brings : s.Brings p text e)
      (rest : Delivers sent frames es fate) : Delivers sent (text :: frames) (e :: es) fate
  | other {sent text frames es fate} (silent : s.Silent p text)
      (rest : Delivers sent frames es fate) : Delivers sent (text :: frames) es fate
  | completed {text frames} (completes : s.Completes text) :
      Delivers true (text :: frames) [] .ended
  | refused {text frames e} (refuses : s.Refuses text e) :
      Delivers true (text :: frames) [e] .ended
  | broken {text frames} (breaks : Breaks text) : Delivers true (text :: frames) [] .dropped
  /-- The ping cannot be answered. -/
  | unanswered {text frames} (ping : Says text "ping") : Delivers false (text :: frames) [] .dropped

end Frames

/-! ### What a session makes of a frame -/

section Meanings

variable {s : Subscription} {p : SubProtocol} {text : String} {m : Json} {e : Event}

theorem messageType_eq_iff {kind : String} (given : kind ≠ "") :
    messageType m = kind ↔ m.get? "type" = some (.str kind) := by
  unfold messageType
  cases found : m.get? "type" with
  | none => simpa using given.symm
  | some v => cases v <;> simp [Json.str?, given.symm]

theorem isFor_iff : s.isFor m = true ↔ ∀ id, m.get? "id" = some (.str id) → id = s.id := by
  unfold isFor
  cases found : m.get? "id" with
  | none => simp
  | some v => cases v <;> simp [Json.str?]

theorem tells_iff {kind : String} (given : kind ≠ "") :
    s.Tells text kind m ↔ Json.ofText? text = some m ∧ messageType m = kind ∧ s.isFor m = true := by
  rw [messageType_eq_iff given, isFor_iff]
  constructor
  · rintro ⟨read, names, addressed⟩
    exact ⟨read, names, addressed⟩
  · rintro ⟨read, names, addressed⟩
    exact ⟨read, names, addressed⟩

theorem inPayload_eq (m : Json) (key : String) :
    ((m.get? "payload").getD .null).get? key = inPayload m key := by
  unfold inPayload
  cases m.get? "payload" <;> rfl

theorem missing_iff {v : Option Json} : Missing v ↔ v.filter (!·.isNull) = none := by
  cases v with
  | none => simp [Missing]
  | some v => cases v <;> simp [Missing, Json.isNull]

theorem given_iff {v : Option Json} {x : Json} :
    v.filter (!·.isNull) = some x ↔ v = some x ∧ x ≠ .null := by
  rw [Option.filter_eq_some_iff]
  cases x <;> simp [Json.isNull]

theorem carries_iff : Carries m e ↔ dataEvent m = e := by
  simp only [dataEvent, inPayload_eq]
  constructor
  · intro carries
    cases carries with
    | data found given => rw [given_iff.mpr ⟨found, given⟩]
    | errors missing found => rw [missing_iff.mp missing, found]
    | nothing missing none => rw [missing_iff.mp missing, none]
  · rintro rfl
    cases data : (inPayload m "data").filter (!·.isNull) with
    | some v =>
      obtain ⟨found, given⟩ := given_iff.mp data
      exact .data found given
    | none =>
      have missing := missing_iff.mpr data
      cases errors : inPayload m "errors" with
      | some v => exact .errors missing errors
      | none => exact .nothing missing errors

/-- What a session makes of a message, type by type. -/
def messageMeaning (s : Subscription) (p : SubProtocol) (m : Json) : FrameMeaning :=
  if messageType m = "ping" then .ping
  else if messageType m = "connection_error" then .broken (payloadText m)
  else if s.isFor m = false then .nothing
  else if messageType m = "complete" then .completed
  else if messageType m = "error" then .refused (payloadErrorText (m.get? "payload"))
  else if messageType m = p.data then .data (dataEvent m)
  else .nothing

theorem frameMeaning_eq (read : Json.ofText? text = some m) :
    s.frameMeaning p text = s.messageMeaning p m := by
  simp [frameMeaning, read, messageMeaning]

theorem exists_message {meaning : FrameMeaning} (h : s.frameMeaning p text = meaning)
    (told : meaning ≠ .nothing) :
    ∃ m, Json.ofText? text = some m ∧ s.messageMeaning p m = meaning := by
  cases read : Json.ofText? text with
  | none =>
    have nothing : s.frameMeaning p text = .nothing := by rw [frameMeaning, read]
    exact absurd (h.symm.trans nothing) told
  | some m => exact ⟨m, rfl, (frameMeaning_eq read).symm.trans h⟩

theorem data_ne (p : SubProtocol) :
    p.data ≠ "" ∧ p.data ≠ "ping" ∧ p.data ≠ "connection_error" ∧ p.data ≠ "complete" ∧
      p.data ≠ "error" := by
  cases p <;> decide

theorem frameMeaning_eq_data_iff : s.frameMeaning p text = .data e ↔ s.Brings p text e := by
  obtain ⟨given, notPing, notBroken, notComplete, notError⟩ := data_ne p
  constructor
  · intro h
    obtain ⟨m, read, h⟩ := exists_message h nofun
    unfold messageMeaning at h
    split_ifs at h with _ _ mine _ _ kind
    injection h with same
    exact ⟨m, (tells_iff given).mpr ⟨read, kind, by simpa using mine⟩, carries_iff.mpr same⟩
  · rintro ⟨m, tells, carries⟩
    obtain ⟨read, kind, mine⟩ := (tells_iff given).mp tells
    rw [frameMeaning_eq read, messageMeaning, kind, mine, carries_iff.mp carries]
    simp [notPing, notBroken, notComplete, notError]

theorem frameMeaning_eq_completed_iff : s.frameMeaning p text = .completed ↔ s.Completes text := by
  constructor
  · intro h
    obtain ⟨m, read, h⟩ := exists_message h nofun
    unfold messageMeaning at h
    split_ifs at h with _ _ mine kind
    exact ⟨m, (tells_iff (by decide)).mpr ⟨read, kind, by simpa using mine⟩⟩
  · rintro ⟨m, tells⟩
    obtain ⟨read, kind, mine⟩ := (tells_iff (by decide)).mp tells
    rw [frameMeaning_eq read, messageMeaning, kind, mine]
    simp

theorem exists_refused_iff :
    (∃ reason, s.frameMeaning p text = .refused reason ∧ e = .error (.graphql reason)) ↔
      s.Refuses text e := by
  constructor
  · rintro ⟨reason, h, rfl⟩
    obtain ⟨m, read, h⟩ := exists_message h nofun
    unfold messageMeaning at h
    split_ifs at h with _ _ mine _ kind
    injection h with same
    exact ⟨m, (tells_iff (by decide)).mpr ⟨read, kind, by simpa using mine⟩, by rw [same]⟩
  · rintro ⟨m, tells, rfl⟩
    obtain ⟨read, kind, mine⟩ := (tells_iff (by decide)).mp tells
    refine ⟨_, ?_, rfl⟩
    rw [frameMeaning_eq read, messageMeaning, kind, mine]
    simp

theorem frameMeaning_eq_broken_iff {payload : String} : s.frameMeaning p text = .broken payload ↔
    ∃ m, Json.ofText? text = some m ∧ messageType m = "connection_error" ∧
      payload = payloadText m := by
  constructor
  · intro h
    obtain ⟨m, read, h⟩ := exists_message h nofun
    unfold messageMeaning at h
    split_ifs at h with _ kind
    injection h with same
    exact ⟨m, read, kind, same.symm⟩
  · rintro ⟨m, read, kind, rfl⟩
    rw [frameMeaning_eq read, messageMeaning, kind]
    simp

theorem frameMeaning_eq_ping_iff : s.frameMeaning p text = .ping ↔ Says text "ping" := by
  constructor
  · exact frameMeaning_ping
  · rintro ⟨m, read, kind⟩
    rw [frameMeaning_eq read, messageMeaning, kind]
    simp

theorem greetingMeaning_eq_acknowledged_iff :
    greetingMeaning text = .acknowledged ↔ Says text "connection_ack" := by
  constructor
  · exact greetingMeaning_acknowledged
  · rintro ⟨m, read, kind⟩
    simp [greetingMeaning, read, kind]

/-- What is silent is a ping, or means nothing. -/
theorem silent_iff : s.Silent p text ↔
    s.frameMeaning p text = .ping ∨ s.frameMeaning p text = .nothing := by
  constructor
  · intro silent
    cases meaning : s.frameMeaning p text with
    | ping => exact .inl rfl
    | nothing => exact .inr rfl
    | broken payload =>
      obtain ⟨m, read, names, -⟩ := frameMeaning_eq_broken_iff.mp meaning
      exact absurd ⟨m, read, names⟩ silent.breaks
    | completed => exact absurd (frameMeaning_eq_completed_iff.mp meaning) silent.completes
    | refused reason =>
      exact absurd (exists_refused_iff.mp ⟨reason, meaning, rfl⟩) (silent.refuses _)
    | data e => exact absurd (frameMeaning_eq_data_iff.mp meaning) (silent.brings e)
  · intro idle
    refine ⟨fun e brings => ?_, fun completes => ?_, fun e refuses => ?_, fun breaks => ?_⟩
    · rw [frameMeaning_eq_data_iff.mpr brings] at idle
      simp at idle
    · rw [frameMeaning_eq_completed_iff.mpr completes] at idle
      simp at idle
    · obtain ⟨reason, meaning, -⟩ := exists_refused_iff.mpr refuses
      rw [meaning] at idle
      simp at idle
    · obtain ⟨m, read, names⟩ := breaks
      rw [frameMeaning_eq_broken_iff.mpr ⟨m, read, names, rfl⟩] at idle
      simp at idle

end Meanings

/-! ### A session on its connection -/

/-- What comes over a connection on which these frames are under way, and what is under way then. -/
inductive Arrives : List String → Incoming → List String → Prop
  | frame (text : String) (frames : List String) : Arrives (text :: frames) (.frame text) frames
  | closed : Arrives [] .closed []
  | failed (f : Fault) : Arrives [] (.failed f) []

/-- A connection on which these frames are under way. What the session sends may fail; its listener
takes every event, and nobody cancels it. -/
def line : Surroundings interface (List String) where
  suspends _ := true
  answers frames q x left :=
    match q, x with
    | .greeting _, greeting => ∃ text, greeting = .frame text ∧ frames = text :: left
    | .incoming, incoming => Arrives frames incoming left
    | .emit _, heard => heard = true ∧ left = frames
    | _, _ => left = frames

/-- The events that the listener was handed. -/
def handedOver (history : List (Happening interface)) : List Event :=
  history.filterMap fun
    | ⟨.emit e, true⟩ => some e
    | _ => none

/-- Whether all that was to be sent could be sent. -/
def allSent (history : List (Happening interface)) : Bool :=
  history.all fun
    | ⟨.send _, .error _⟩ => false
    | _ => true

@[simp] theorem handedOver_append (first rest : List (Happening interface)) :
    handedOver (first ++ rest) = handedOver first ++ handedOver rest :=
  List.filterMap_append

@[simp] theorem allSent_append (first rest : List (Happening interface)) :
    allSent (first ++ rest) = (allSent first && allSent rest) :=
  List.all_append

section Rounds

variable {s : Subscription} {p : SubProtocol} {call : GraphqlCall} {frames left : List String}
  {history : List (Happening interface)} {next last : Phase}

theorem comes_leave_iff {phase : Phase} : line.Comes (leave phase) frames history next left ↔
    history = [⟨.close, ()⟩, ⟨.release, ()⟩] ∧ next = phase ∧ left = frames := by
  constructor
  · intro comes
    obtain ⟨⟨⟩, _, _, rfl, rfl, closed⟩ := Surroundings.comes_ask_iff.mp comes
    obtain ⟨⟨⟩, _, _, rfl, rfl, released⟩ := Surroundings.comes_ask_iff.mp closed
    obtain ⟨rfl, rfl, rfl⟩ := Surroundings.comes_done_iff.mp released
    exact ⟨rfl, rfl, rfl⟩
  · rintro ⟨rfl, rfl, rfl⟩
    refine Surroundings.comes_ask_iff.mpr ⟨(), left, [⟨.release, ()⟩], rfl, rfl, ?_⟩
    refine Surroundings.comes_ask_iff.mpr ⟨(), left, [], rfl, rfl, ?_⟩
    exact Surroundings.comes_done_iff.mpr ⟨rfl, rfl, rfl⟩

/-- What is sent arrives, or the connection is lost. -/
theorem comes_sendOr_iff {text : String} {attempt : Nat} {phase : Phase} :
    line.Comes (sendOr text attempt phase) frames history next left ↔ left = frames ∧
      (history = [⟨.send text, .ok ()⟩] ∧ next = phase ∨ ∃ f,
        history = [⟨.send text, .error f⟩, ⟨.close, ()⟩, ⟨.release, ()⟩] ∧
          next = .backingOff attempt f) := by
  constructor
  · intro comes
    obtain ⟨x, _, rest, rfl, rfl, sent⟩ := Surroundings.comes_ask_iff.mp comes
    cases x with
    | ok =>
      obtain ⟨rfl, rfl, rfl⟩ := Surroundings.comes_done_iff.mp sent
      exact ⟨rfl, .inl ⟨rfl, rfl⟩⟩
    | error f =>
      obtain ⟨rfl, rfl, rfl⟩ := comes_leave_iff.mp sent
      exact ⟨rfl, .inr ⟨f, rfl, rfl⟩⟩
  · rintro ⟨rfl, ⟨rfl, rfl⟩ | ⟨f, rfl, rfl⟩⟩
    · exact Surroundings.comes_ask_iff.mpr
        ⟨.ok (), left, [], rfl, rfl, Surroundings.comes_done_iff.mpr ⟨rfl, rfl, rfl⟩⟩
    · exact Surroundings.comes_ask_iff.mpr
        ⟨.error f, left, _, rfl, rfl, comes_leave_iff.mpr ⟨rfl, rfl, rfl⟩⟩

/-- What a streaming session does next: the events it hands over, whether it could send what it
wanted to, where it goes, and the frames that are left. -/
inductive Takes (s : Subscription) (p : SubProtocol) :
    List String → List Event → Bool → Phase → List String → Prop
  | closed (cause : Fault) : Takes s p [] [] true (.backingOff 0 cause) []
  | data {text e} (frames) (brings : s.Brings p text e) :
      Takes s p (text :: frames) [e] true .streaming frames
  | other {text} (frames) (silent : s.Silent p text) :
      Takes s p (text :: frames) [] true .streaming frames
  | completed {text} (frames) (completes : s.Completes text) :
      Takes s p (text :: frames) [] true .finished frames
  | refused {text e} (frames) (refuses : s.Refuses text e) :
      Takes s p (text :: frames) [e] true .finished frames
  | broken {text m} (frames) (read : Json.ofText? text = some m)
      (names : messageType m = "connection_error") : Takes s p (text :: frames) [] true
        (.backingOff 0 (.transport ("connection error: " ++ payloadText m))) frames
  | unanswered {text} (frames) (cause : Fault) (ping : Says text "ping") :
      Takes s p (text :: frames) [] false (.backingOff 0 cause) frames

theorem takes_of_comes (kind : s.kind = .graphql p call)
    (comes : line.Comes (s.round .streaming) frames history next left) :
    s.Takes p frames (handedOver history) (allSent history) next left := by
  rw [round, kind] at comes
  obtain ⟨x, between, rest, arrives, rfl, taken⟩ := Surroundings.comes_ask_iff.mp comes
  cases arrives with
  | closed =>
    obtain ⟨rfl, rfl, rfl⟩ := comes_leave_iff.mp taken
    exact .closed _
  | failed f =>
    obtain ⟨rfl, rfl, rfl⟩ := comes_leave_iff.mp taken
    exact .closed f
  | frame text =>
    dsimp only [Process.done_bind] at taken
    cases meaning : s.frameMeaning p text with
    | ping =>
      rw [meaning] at taken
      obtain ⟨rfl, ⟨rfl, rfl⟩ | ⟨f, rfl, rfl⟩⟩ := comes_sendOr_iff.mp taken
      · exact .other _ (silent_iff.mpr (.inl meaning))
      · exact .unanswered _ f (frameMeaning_ping meaning)
    | broken payload =>
      rw [meaning] at taken
      obtain ⟨rfl, rfl, rfl⟩ := comes_leave_iff.mp taken
      obtain ⟨m, read, names, rfl⟩ := frameMeaning_eq_broken_iff.mp meaning
      exact .broken _ read names
    | completed =>
      rw [meaning] at taken
      obtain ⟨rfl, rfl, rfl⟩ := comes_leave_iff.mp taken
      exact .completed _ (frameMeaning_eq_completed_iff.mp meaning)
    | refused reason =>
      rw [meaning] at taken
      obtain ⟨x, _, rest, ⟨rfl, rfl⟩, rfl, told⟩ := Surroundings.comes_ask_iff.mp taken
      obtain ⟨rfl, rfl, rfl⟩ := comes_leave_iff.mp told
      exact .refused _ (exists_refused_iff.mp ⟨reason, meaning, rfl⟩)
    | data e =>
      rw [meaning] at taken
      obtain ⟨x, _, rest, ⟨rfl, rfl⟩, rfl, told⟩ := Surroundings.comes_ask_iff.mp taken
      obtain ⟨rfl, rfl, rfl⟩ := Surroundings.comes_done_iff.mp told
      exact .data _ (frameMeaning_eq_data_iff.mp meaning)
    | nothing =>
      rw [meaning] at taken
      obtain ⟨rfl, rfl, rfl⟩ := Surroundings.comes_done_iff.mp taken
      exact .other _ (silent_iff.mpr (.inr meaning))

/-- Whatever a session may do next can happen. -/
theorem exists_comes (kind : s.kind = .graphql p call) {es : List Event} {sent : Bool}
    (takes : s.Takes p frames es sent next left) : ∃ history,
      line.Comes (s.round .streaming) frames history next left ∧ handedOver history = es ∧
        allSent history = sent := by
  rw [round, kind]
  cases takes with
  | closed cause =>
    refine ⟨⟨.incoming, .failed cause⟩ :: [⟨.close, ()⟩, ⟨.release, ()⟩], ?_, rfl, rfl⟩
    refine Surroundings.comes_ask_iff.mpr ⟨_, [], _, .failed cause, rfl, ?_⟩
    exact comes_leave_iff.mpr ⟨rfl, rfl, rfl⟩
  | @data text e _ brings =>
    refine ⟨⟨.incoming, .frame text⟩ :: [⟨.emit e, true⟩], ?_, rfl, rfl⟩
    refine Surroundings.comes_ask_iff.mpr ⟨_, left, _, .frame text left, rfl, ?_⟩
    simp only [Process.done_bind, frameMeaning_eq_data_iff.mpr brings]
    refine Surroundings.comes_ask_iff.mpr ⟨true, left, [], ⟨rfl, rfl⟩, rfl, ?_⟩
    exact Surroundings.comes_done_iff.mpr ⟨rfl, rfl, rfl⟩
  | @other text _ silent =>
    obtain ping | nothing := silent_iff.mp silent
    · refine ⟨⟨.incoming, .frame text⟩ :: [⟨.send pongMessage, .ok ()⟩], ?_, rfl, rfl⟩
      refine Surroundings.comes_ask_iff.mpr ⟨_, left, _, .frame text left, rfl, ?_⟩
      simp only [Process.done_bind, ping]
      exact comes_sendOr_iff.mpr ⟨rfl, .inl ⟨rfl, rfl⟩⟩
    · refine ⟨⟨.incoming, .frame text⟩ :: [], ?_, rfl, rfl⟩
      refine Surroundings.comes_ask_iff.mpr ⟨_, left, _, .frame text left, rfl, ?_⟩
      simp only [Process.done_bind, nothing]
      exact Surroundings.comes_done_iff.mpr ⟨rfl, rfl, rfl⟩
  | @completed text _ completes =>
    refine ⟨⟨.incoming, .frame text⟩ :: [⟨.close, ()⟩, ⟨.release, ()⟩], ?_, rfl, rfl⟩
    refine Surroundings.comes_ask_iff.mpr ⟨_, left, _, .frame text left, rfl, ?_⟩
    simp only [Process.done_bind, frameMeaning_eq_completed_iff.mpr completes]
    exact comes_leave_iff.mpr ⟨rfl, rfl, rfl⟩
  | @refused text e _ refuses =>
    obtain ⟨reason, meaning, rfl⟩ := (exists_refused_iff (p := p)).mpr refuses
    refine ⟨⟨.incoming, .frame text⟩ :: ⟨.emit (.error (.graphql reason)), true⟩ ::
      [⟨.close, ()⟩, ⟨.release, ()⟩], ?_, rfl, rfl⟩
    refine Surroundings.comes_ask_iff.mpr ⟨_, left, _, .frame text left, rfl, ?_⟩
    simp only [Process.done_bind, meaning]
    refine Surroundings.comes_ask_iff.mpr ⟨true, left, _, ⟨rfl, rfl⟩, rfl, ?_⟩
    exact comes_leave_iff.mpr ⟨rfl, rfl, rfl⟩
  | @broken text m _ read names =>
    refine ⟨⟨.incoming, .frame text⟩ :: [⟨.close, ()⟩, ⟨.release, ()⟩], ?_, rfl, rfl⟩
    refine Surroundings.comes_ask_iff.mpr ⟨_, left, _, .frame text left, rfl, ?_⟩
    simp only [Process.done_bind, frameMeaning_eq_broken_iff.mpr ⟨m, read, names, rfl⟩]
    exact comes_leave_iff.mpr ⟨rfl, rfl, rfl⟩
  | @unanswered text _ cause ping =>
    refine ⟨⟨.incoming, .frame text⟩ :: ⟨.send pongMessage, .error cause⟩ ::
      [⟨.close, ()⟩, ⟨.release, ()⟩], ?_, rfl, rfl⟩
    refine Surroundings.comes_ask_iff.mpr ⟨_, left, _, .frame text left, rfl, ?_⟩
    simp only [Process.done_bind, frameMeaning_eq_ping_iff.mpr ping]
    exact comes_sendOr_iff.mpr ⟨rfl, .inr ⟨cause, rfl, rfl⟩⟩

/-- With its acknowledgement a connection streams, unless the operation cannot be started. -/
theorem comes_acknowledged_iff (kind : s.kind = .graphql p call) (attempt deadline : Nat)
    (frames : List String) {ack : String} (tells : Says ack "connection_ack") :
    line.Comes (s.round (.acknowledging attempt deadline)) (ack :: frames) history next left ↔
      left = frames ∧ ∃ rest, history = ⟨.greeting deadline, .frame ack⟩ :: rest ∧
        (rest = [⟨.send (s.startMessage p call), .ok ()⟩] ∧ next = .streaming ∨ ∃ f,
          rest = [⟨.send (s.startMessage p call), .error f⟩, ⟨.close, ()⟩, ⟨.release, ()⟩] ∧
            next = .backingOff 0 f) := by
  rw [round, kind]
  have meaning := greetingMeaning_eq_acknowledged_iff.mpr tells
  constructor
  · intro comes
    obtain ⟨x, between, rest, ⟨text, rfl, same⟩, rfl, greeted⟩ :=
      Surroundings.comes_ask_iff.mp comes
    obtain ⟨rfl, rfl⟩ := List.cons.inj same
    simp only [Process.done_bind, meaning] at greeted
    obtain ⟨rfl, starts⟩ := comes_sendOr_iff.mp greeted
    exact ⟨rfl, rest, rfl, starts⟩
  · rintro ⟨rfl, rest, rfl, starts⟩
    refine Surroundings.comes_ask_iff.mpr ⟨_, left, rest, ⟨ack, rfl, rfl⟩, rfl, ?_⟩
    simp only [Process.done_bind, meaning]
    exact comes_sendOr_iff.mpr ⟨rfl, starts⟩

end Rounds

/-! ### A whole connection -/

/-- The session is on a connection. -/
def Phase.isConnected : Phase → Bool
  | .acknowledging .. | .streaming => true
  | _ => false

def Phase.fate? : Phase → Option Fate
  | .streaming => some .lasting
  | .finished => some .ended
  | .backingOff .. => some .dropped
  | .connecting _ | .acknowledging .. => none

/-- Round after round on one connection, until it is over or all frames so far have been taken. -/
inductive Lasts (s : Subscription) :
    Phase → List String → List (Happening interface) → Phase → Prop
  | taken : Lasts s .streaming [] [] .streaming
  | departed {phase} (frames) (left : phase.isConnected = false) : Lasts s phase frames [] phase
  | round {phase frames history next left rest last} (stays : phase.isConnected = true)
      (comes : line.Comes (s.round phase) frames history next left)
      (goes : Lasts s next left rest last) : Lasts s phase frames (history ++ rest) last

section Connections

variable {s : Subscription} {p : SubProtocol} {call : GraphqlCall} {frames : List String}
  {history : List (Happening interface)} {phase last : Phase}

theorem lasts_departed_iff (left : phase.isConnected = false) :
    s.Lasts phase frames history last ↔ history = [] ∧ last = phase := by
  constructor
  · intro lasts
    cases lasts with
    | taken => cases left
    | departed => exact ⟨rfl, rfl⟩
    | round stays =>
      rw [left] at stays
      cases stays
  · rintro ⟨rfl, rfl⟩
    exact .departed frames left

theorem delivers_of_lasts (kind : s.kind = .graphql p call)
    (lasts : s.Lasts .streaming frames history last) : ∃ fate, last.fate? = some fate ∧
      s.Delivers p (allSent history) frames (handedOver history) fate := by
  generalize streaming : Phase.streaming = phase at lasts
  induction lasts with
  | taken => exact ⟨.lasting, rfl, .taken⟩
  | departed frames left =>
    subst streaming
    cases left
  | @round phase frames history next left rest last stays comes goes ih =>
    subst streaming
    rw [handedOver_append, allSent_append]
    have takes := takes_of_comes kind comes
    generalize handedOver history = es at takes
    generalize allSent history = sent at takes
    cases takes with
    | data _ brings =>
      obtain ⟨fate, falls, delivers⟩ := ih rfl
      exact ⟨fate, falls, .data brings delivers⟩
    | other _ silent =>
      obtain ⟨fate, falls, delivers⟩ := ih rfl
      exact ⟨fate, falls, .other silent delivers⟩
    | closed cause =>
      obtain ⟨rfl, rfl⟩ := (lasts_departed_iff rfl).mp goes
      exact ⟨.dropped, rfl, .closed⟩
    | completed _ completes =>
      obtain ⟨rfl, rfl⟩ := (lasts_departed_iff rfl).mp goes
      exact ⟨.ended, rfl, .completed completes⟩
    | refused _ refuses =>
      obtain ⟨rfl, rfl⟩ := (lasts_departed_iff rfl).mp goes
      exact ⟨.ended, rfl, .refused refuses⟩
    | broken _ read names =>
      obtain ⟨rfl, rfl⟩ := (lasts_departed_iff rfl).mp goes
      exact ⟨.dropped, rfl, .broken ⟨_, read, names⟩⟩
    | unanswered _ cause ping =>
      obtain ⟨rfl, rfl⟩ := (lasts_departed_iff rfl).mp goes
      exact ⟨.dropped, rfl, .unanswered ping⟩

theorem exists_lasts (kind : s.kind = .graphql p call) {sent : Bool} {es : List Event} {fate : Fate}
    (delivers : s.Delivers p sent frames es fate) : ∃ history last,
      s.Lasts .streaming frames history last ∧ allSent history = sent ∧ handedOver history = es ∧
        last.fate? = some fate := by
  -- a round that leaves the connection
  have leaves {frames left : List String} {es : List Event} {sent : Bool} {next : Phase}
      {fate : Fate} (takes : s.Takes p frames es sent next left) (left : next.isConnected = false)
      (falls : next.fate? = some fate) : ∃ history last,
        s.Lasts .streaming frames history last ∧ allSent history = sent ∧
          handedOver history = es ∧ last.fate? = some fate := by
    obtain ⟨history, comes, handed, all⟩ := exists_comes kind takes
    exact ⟨history ++ [], next, .round rfl comes (.departed _ left), by simp [all], by simp [handed],
      falls⟩
  -- a round after which the session goes on
  have goesOn {frames left : List String} {es es' : List Event} {sent : Bool} {fate : Fate}
      (takes : s.Takes p frames es true .streaming left)
      (later : ∃ history last, s.Lasts .streaming left history last ∧ allSent history = sent ∧
        handedOver history = es' ∧ last.fate? = some fate) : ∃ history last,
        s.Lasts .streaming frames history last ∧ allSent history = sent ∧
          handedOver history = es ++ es' ∧ last.fate? = some fate := by
    obtain ⟨history, comes, handed, all⟩ := exists_comes kind takes
    obtain ⟨rest, last, lasts, all', handed', falls⟩ := later
    exact ⟨history ++ rest, last, .round rfl comes lasts, by simp [all, all'],
      by simp [handed, handed'], falls⟩
  induction delivers with
  | taken => exact ⟨[], .streaming, .taken, rfl, rfl, rfl⟩
  | closed => exact leaves (.closed (.transport "socket closed by server")) rfl rfl
  | data brings _ ih => exact goesOn (.data _ brings) ih
  | other silent _ ih => exact goesOn (.other _ silent) ih
  | completed completes => exact leaves (.completed _ completes) rfl rfl
  | refused refuses => exact leaves (.refused _ refuses) rfl rfl
  | broken breaks =>
    obtain ⟨m, read, names⟩ := breaks
    exact leaves (.broken _ read names) rfl rfl
  | unanswered ping => exact leaves (.unanswered _ (.transport "") ping) rfl rfl

/-- The events of the frames, if everything can be sent. -/
def delivered (s : Subscription) (p : SubProtocol) : List String → List Event
  | [] => []
  | text :: frames =>
    match s.frameMeaning p text with
    | .data e => e :: delivered s p frames
    | .refused reason => [.error (.graphql reason)]
    | .completed | .broken _ => []
    | .ping | .nothing => delivered s p frames

theorem Delivers.eq_delivered {es : List Event} {fate : Fate}
    (h : s.Delivers p true frames es fate) : es = s.delivered p frames := by
  generalize all : true = sent at h
  induction h with
  | taken | closed => rfl
  | data brings _ ih => rw [delivered, frameMeaning_eq_data_iff.mpr brings, ← ih all]
  | other silent _ ih =>
    rw [delivered, ih all]
    obtain ping | nothing := silent_iff.mp silent
    · rw [ping]
    · rw [nothing]
  | completed completes => rw [delivered, frameMeaning_eq_completed_iff.mpr completes]
  | refused refuses =>
    obtain ⟨reason, meaning, rfl⟩ := (exists_refused_iff (p := p)).mpr refuses
    rw [delivered, meaning]
  | broken breaks =>
    obtain ⟨m, read, names⟩ := breaks
    rw [delivered, frameMeaning_eq_broken_iff.mpr ⟨m, read, names, rfl⟩]
  | unanswered => cases all

theorem exists_delivers (s : Subscription) (p : SubProtocol) (frames : List String) :
    ∃ fate, s.Delivers p true frames (s.delivered p frames) fate := by
  induction frames with
  | nil => exact ⟨.lasting, .taken⟩
  | cons text frames ih =>
    obtain ⟨fate, rest⟩ := ih
    rw [delivered]
    cases meaning : s.frameMeaning p text with
    | ping => exact ⟨fate, .other (silent_iff.mpr (.inl meaning)) rest⟩
    | broken payload =>
      obtain ⟨m, read, names, -⟩ := frameMeaning_eq_broken_iff.mp meaning
      exact ⟨.dropped, .broken ⟨m, read, names⟩⟩
    | completed => exact ⟨.ended, .completed (frameMeaning_eq_completed_iff.mp meaning)⟩
    | refused reason => exact ⟨.ended, .refused (exists_refused_iff.mp ⟨reason, meaning, rfl⟩)⟩
    | data e => exact ⟨fate, .data (frameMeaning_eq_data_iff.mp meaning) rest⟩
    | nothing => exact ⟨fate, .other (silent_iff.mpr (.inr meaning)) rest⟩

/-- Whatever can become of the frames can happen on a connection. -/
theorem exists_connection (kind : s.kind = .graphql p call) {ack : String}
    (tells : Says ack "connection_ack") (attempt deadline : Nat) {sent : Bool} {es : List Event}
    {fate : Fate} (delivers : s.Delivers p sent frames es fate) : ∃ history last,
      s.Lasts (.acknowledging attempt deadline) (ack :: frames) history last ∧
        allSent history = sent ∧ handedOver history = es ∧ last.fate? = some fate := by
  obtain ⟨rest, last, lasts, all, handed, falls⟩ := exists_lasts kind delivers
  have comes := (comes_acknowledged_iff kind attempt deadline frames tells).mpr
    ⟨rfl, _, rfl, .inl ⟨rfl, rfl⟩⟩
  exact ⟨_, last, .round rfl comes lasts, all, handed, falls⟩

/-- From its acknowledgement on, a connection delivers the events of its frames, each once and in
their order, up to a frame that ends the stream, a message that cannot be sent, or the end of the
socket. What the events are is determined by the frames if everything can be sent. -/
theorem deliveries_faithful (kind : s.kind = .graphql p call) {ack : String}
    (tells : Says ack "connection_ack") (attempt deadline : Nat) (frames : List String) :
    (∃! es, ∃ fate, s.Delivers p true frames es fate) ∧
      ∀ sent es fate, (∃ history last,
        s.Lasts (.acknowledging attempt deadline) (ack :: frames) history last ∧
          allSent history = sent ∧ handedOver history = es ∧ last.fate? = some fate) ↔
        s.Delivers p sent frames es fate ∨ sent = false ∧ es = [] ∧ fate = .dropped := by
  refine ⟨⟨s.delivered p frames, exists_delivers s p frames, ?_⟩, fun sent es fate => ⟨?_, ?_⟩⟩
  · rintro es ⟨fate, delivers⟩
    exact delivers.eq_delivered
  · rintro ⟨history, last, lasts, rfl, rfl, falls⟩
    cases lasts with
    | departed _ left => cases left
    | @round _ _ first next left rest _ _ comes goes =>
      obtain ⟨rfl, _, rfl, ⟨rfl, rfl⟩ | ⟨f, rfl, rfl⟩⟩ :=
        (comes_acknowledged_iff kind attempt deadline frames tells).mp comes
      · obtain ⟨fate', falls', delivers⟩ := delivers_of_lasts kind goes
        obtain rfl := Option.some.inj (falls'.symm.trans falls)
        exact .inl delivers
      · obtain ⟨rfl, rfl⟩ := (lasts_departed_iff rfl).mp goes
        exact .inr ⟨rfl, rfl, (Option.some.inj falls).symm⟩
  · rintro (delivers | ⟨rfl, rfl, rfl⟩)
    · exact exists_connection kind tells attempt deadline delivers
    · have comes := (comes_acknowledged_iff kind attempt deadline frames tells).mpr
        ⟨rfl, _, rfl, .inr ⟨.transport "", rfl, rfl⟩⟩
      exact ⟨_, _, .round rfl comes (.departed _ rfl), rfl, rfl, rfl⟩

end Connections

/-! ### Frames behind a ping -/

def tickPing : String := message [("type", .str "ping")]

def tick : String :=
  message [("id", .str "1"), ("type", .str "next"), ("payload", .obj [("data", .bool true)])]

theorem tickPing_asks : Says tickPing "ping" :=
  ⟨.obj [("type", .str "ping")], by decide +kernel, rfl⟩

theorem tick_brings : ticks.Brings .transportWs tick (.ok (.bool true)) := by
  have read : Json.ofText? tick = some (.obj [("id", .str "1"),
      ("payload", .obj [("data", .bool true)]), ("type", .str "next")]) := by decide +kernel
  exact ⟨_, (tells_iff (by decide)).mpr ⟨read, by decide, by decide⟩, .data rfl nofun⟩

theorem tickEnd_completes : ticks.Completes tickEnd := by
  have read : Json.ofText? tickEnd =
      some (.obj [("id", .str "1"), ("type", .str "complete")]) := by decide +kernel
  exact ⟨_, (tells_iff (by decide)).mpr ⟨read, by decide, by decide⟩⟩

theorem tickPing_silent : ticks.Silent .transportWs tickPing :=
  silent_iff.mpr (.inl (frameMeaning_eq_ping_iff.mpr tickPing_asks))

theorem tickAck_acks : Says tickAck "connection_ack" :=
  greetingMeaning_acknowledged tickAck_acknowledges

/-- A tick between two pings, and another one behind the end. -/
theorem deliveries_faithful_ended : Says tickAck "connection_ack" ∧ ∃ history last,
    ticks.Lasts (.acknowledging 0 10000) (tickAck :: [tickPing, tick, tickPing, tickEnd, tick])
      history last ∧ allSent history = true ∧ handedOver history = [.ok (.bool true)] ∧
      last.fate? = some .ended := by
  have faithful := deliveries_faithful (s := ticks) rfl tickAck_acks 0 10000
    [tickPing, tick, tickPing, tickEnd, tick]
  have delivers : ticks.Delivers .transportWs true [tickPing, tick, tickPing, tickEnd, tick]
      [.ok (.bool true)] .ended :=
    .other tickPing_silent
      (.data tick_brings (.other tickPing_silent (.completed tickEnd_completes)))
  exact ⟨tickAck_acks, (faithful.2 true _ .ended).mpr (.inl delivers)⟩

/-- Whatever happens to what a session sends, the frames that come are delivered until one of them
ends the stream, or the socket ends. -/
def DeliversAll : Prop :=
  ∀ (s : Subscription) (p : SubProtocol) (call : GraphqlCall) (ack : String)
    (attempt deadline : Nat) (frames : List String) history last, s.kind = .graphql p call →
      Says ack "connection_ack" →
      s.Lasts (.acknowledging attempt deadline) (ack :: frames) history last →
      ∃ fate, last.fate? = some fate ∧ s.Delivers p true frames (handedOver history) fate

theorem delivered_ticks : ticks.delivered .transportWs [tickPing, tick] = [.ok (.bool true)] := by
  have first := frameMeaning_eq_ping_iff (s := ticks) (p := .transportWs).mpr tickPing_asks
  have second := frameMeaning_eq_data_iff.mpr tick_brings
  simp only [delivered, first, second]

/-- A tick that has come behind a ping is lost when the ping cannot be answered. -/
theorem not_deliversAll : ¬ DeliversAll := by
  intro all
  have cut : ticks.Delivers .transportWs false [tickPing, tick] [] .dropped :=
    .unanswered tickPing_asks
  have kind : ticks.kind = .graphql .transportWs tickCall := rfl
  obtain ⟨history, last, lasts, -, nothing, -⟩ :=
    exists_connection kind tickAck_acks 0 10000 cut
  obtain ⟨fate, -, delivers⟩ := all ticks .transportWs tickCall tickAck 0 10000 [tickPing, tick]
    history last rfl tickAck_acks lasts
  have told := delivers.eq_delivered
  rw [nothing, delivered_ticks] at told
  cases told

end ScreenFlow.Subscription
