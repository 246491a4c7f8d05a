import ScreenFlow.Proofs.Json.Fields
import ScreenFlow.Subscription.Session

/-!
# Exchanges that conform

What may be said over a connection, in which order, and what has to come before each word.

* `Conforms`: the order of the words, and what has to come before each;
* `Speaks`: an exchange, frame by frame;
* `Speaks.conforms`: who speaks like this conforms to the protocol.
-/

namespace ScreenFlow.Subscription

/-- A frame that the session tried to send, or that it got. -/
inductive Traffic where
  | sent (text : String)
  | received (text : String)

def Traffic.sent? : Traffic → Option String
  | .sent text => some text
  | .received _ => none

def sentTexts (t : List Traffic) : List String := t.filterMap Traffic.sent?

/-! ### Conformance -/

/-- The frame is a message of this type. -/
def Says (text kind : String) : Prop := ∃ m, Json.ofText? text = some m ∧ messageType m = kind

section Conformance

variable (s : Subscription) (p : SubProtocol) (call : GraphqlCall)

/-- The frame tells that the session's operation is over. -/
def Concludes (text : String) : Prop :=
  ∃ m, Json.ofText? text = some m ∧ (messageType m = "complete" ∨ messageType m = "error") ∧
    s.isFor m = true

/-- The words that may be said over a connection. -/
inductive Word : List String → Prop
  | greeting (n : Nat) : Word (s.initMessage :: List.replicate n pongMessage)
  | streaming (n m : Nat) :
      Word (s.initMessage :: List.replicate n pongMessage ++
        s.startMessage p call :: List.replicate m pongMessage)
  | stopped (n m : Nat) :
      Word (s.initMessage :: List.replicate n pongMessage ++
        s.startMessage p call :: List.replicate m pongMessage ++
          s.stopMessage p :: if announcesEnd p then [terminateMessage] else [])

/-- After the operation was started, the server has told that it is over. -/
def Concluded (earlier : List Traffic) : Prop :=
  ∃ before text after, earlier = before ++ .received text :: after ∧
    .sent (s.startMessage p call) ∈ before ∧ s.Concludes text

/-- This may be sent after what was exchanged earlier. -/
structure Lawful (earlier : List Traffic) (text : String) : Prop where
  acknowledged : text = s.startMessage p call →
    ∃ ack, .received ack ∈ earlier ∧ Says ack "connection_ack"
  /-- A pong follows its own ping. -/
  answers : text = pongMessage →
    ∃ before ping, earlier = before ++ [.received ping] ∧ Says ping "ping"
  silent : ¬ s.Concluded p call earlier

/-- The exchange follows the sub-protocol. -/
structure Conforms (t : List Traffic) : Prop where
  word : s.Word p call (sentTexts t)
  lawful : ∀ earlier text later, t = earlier ++ .sent text :: later → s.Lawful p call earlier text

/-! ### Frame by frame -/

inductive Part where
  | greeting
  | streaming
  | ended

/-- An exchange, and how far it has got. -/
inductive Speaks : Part → List Traffic → Prop
  | opened : Speaks .greeting [.sent s.initMessage]
  | greeted {t} (text : String) (h : Speaks .greeting t) : Speaks .greeting (t ++ [.received text])
  | started {t ack} (h : Speaks .greeting t) (tells : Says ack "connection_ack") :
      Speaks .streaming (t ++ [.received ack] ++ [.sent (s.startMessage p call)])
  | heard {t text} (h : Speaks .streaming t) (goes : ¬ s.Concludes text) :
      Speaks .streaming (t ++ [.received text])
  | answered {part t ping} (h : Speaks part t) (live : part ≠ .ended) (tells : Says ping "ping") :
      Speaks part (t ++ [.received ping] ++ [.sent pongMessage])
  | stopped {t} (h : Speaks .streaming t) :
      Speaks .ended (t ++ .sent (s.stopMessage p) ::
        if announcesEnd p then [.sent terminateMessage] else [])
  | concluded {t} (text : String) (h : Speaks .streaming t) : Speaks .ended (t ++ [.received text])
  | left {part t} (h : Speaks part t) : Speaks .ended t

end Conformance

/-! ### Texts

The messages are told apart by the first letter of their first key. -/

theorem render_third {k : String} {c : Char} {cs : List Char} (hk : k.toList = c :: cs)
    (plain : Json.escape? c = none) (v : Json) (fields : List (String × Json)) :
    (Json.obj ((k, v) :: fields)).render.toList[2]? = some c := by
  have quoted : (Json.quote k).toList = '"' :: c :: Json.quoteChars cs := by
    rw [Json.quote, String.toList_ofList, hk, Json.quoteChars, plain]
  simp only [Json.render, String.toList_append, quoted]
  rfl

theorem message_eq {fields sorted : List (String × Json)} (h : fields.Perm sorted)
    (ascending : Json.Ascending sorted) : message fields = (Json.obj sorted).render := by
  rw [message, Json.ofFields, Json.extend_of_perm h ascending]

section Texts

variable (s : Subscription) (p : SubProtocol) (call : GraphqlCall)

theorem initMessage_third : s.initMessage.toList[2]? = some 'p' := by
  have ascending : Json.Ascending
      [("payload", initPayload s.headers), ("type", .str "connection_init")] :=
    Json.ascending_of_keys ["payload", "type"] rfl (by decide)
  rw [initMessage, message_eq (.swap _ _ _) ascending]
  exact render_third (show "payload".toList = 'p' :: "ayload".toList from rfl) (by decide) _ _

theorem startMessage_third : (s.startMessage p call).toList[2]? = some 'i' := by
  have ascending : Json.Ascending
      [("id", .str s.id), ("payload", call.wireBody), ("type", .str p.start)] :=
    Json.ascending_of_keys ["id", "payload", "type"] rfl (by decide)
  rw [startMessage, message_eq (.cons _ (.swap _ _ _)) ascending]
  exact render_third (show "id".toList = 'i' :: ['d'] from rfl) (by decide) _ _

theorem stopMessage_third : (s.stopMessage p).toList[2]? = some 'i' := by
  have ascending : Json.Ascending [("id", .str s.id), ("type", .str p.stop)] :=
    Json.ascending_of_keys ["id", "type"] rfl (by decide)
  rw [stopMessage, message_eq (.refl _) ascending]
  exact render_third (show "id".toList = 'i' :: ['d'] from rfl) (by decide) _ _

theorem pongMessage_third : pongMessage.toList[2]? = some 't' := by decide

/-- Texts with different third letters. -/
theorem ne_of_third {a b : String} {c d : Char} (ha : a.toList[2]? = some c)
    (hb : b.toList[2]? = some d) (h : c ≠ d) : a ≠ b := by
  rintro rfl
  exact h (Option.some.inj (ha.symm.trans hb))

theorem init_ne_pong : s.initMessage ≠ pongMessage :=
  ne_of_third s.initMessage_third pongMessage_third (by decide)

theorem start_ne_init : s.startMessage p call ≠ s.initMessage :=
  ne_of_third (s.startMessage_third p call) s.initMessage_third (by decide)

theorem start_ne_pong : s.startMessage p call ≠ pongMessage :=
  ne_of_third (s.startMessage_third p call) pongMessage_third (by decide)

theorem stop_ne_pong : s.stopMessage p ≠ pongMessage :=
  ne_of_third (s.stopMessage_third p) pongMessage_third (by decide)

theorem terminate_ne_pong : terminateMessage ≠ pongMessage := by decide

end Texts

/-! ### The order of the words -/

section Order

variable {s : Subscription} {p : SubProtocol} {call : GraphqlCall} {t u : List Traffic}
  {x : Traffic} {text : String}

@[simp] theorem sentTexts_append (t u : List Traffic) :
    sentTexts (t ++ u) = sentTexts t ++ sentTexts u :=
  List.filterMap_append

@[simp] theorem sentTexts_sent (text : String) (t : List Traffic) :
    sentTexts (.sent text :: t) = text :: sentTexts t := rfl

@[simp] theorem sentTexts_received (text : String) (t : List Traffic) :
    sentTexts (.received text :: t) = sentTexts t := rfl

@[simp] theorem sentTexts_nil : sentTexts [] = [] := rfl

theorem mem_sentTexts (h : .sent text ∈ t) : text ∈ sentTexts t :=
  List.mem_filterMap.mpr ⟨_, h, rfl⟩

/-- What stands in a list with one more element is that element or stood there before. -/
theorem concat_cases {y : Traffic} {earlier later : List Traffic}
    (h : t ++ [x] = earlier ++ y :: later) :
    (∃ rest, t = earlier ++ y :: rest) ∨ earlier = t ∧ y = x := by
  rcases List.eq_nil_or_concat later with rfl | ⟨rest, z, rfl⟩
  · obtain ⟨same, last⟩ := List.append_inj' h rfl
    exact .inr ⟨same.symm, (List.cons.inj last).1.symm⟩
  · rw [List.concat_eq_append, ← List.cons_append, ← List.append_assoc] at h
    exact .inl ⟨rest, (List.append_inj' h rfl).1⟩

/-- Everything that was sent was sent lawfully. -/
def AllLawful (s : Subscription) (p : SubProtocol) (call : GraphqlCall) (t : List Traffic) : Prop :=
  ∀ earlier text later, t = earlier ++ .sent text :: later → s.Lawful p call earlier text

theorem AllLawful.received (h : s.AllLawful p call t) (text : String) :
    s.AllLawful p call (t ++ [.received text]) := by
  intro earlier sent later split
  rcases concat_cases split with ⟨rest, old⟩ | ⟨-, new⟩
  · exact h earlier sent rest old
  · cases new

theorem AllLawful.sent (h : s.AllLawful p call t) (lawful : s.Lawful p call t text) :
    s.AllLawful p call (t ++ [.sent text]) := by
  intro earlier sent later split
  rcases concat_cases split with ⟨rest, old⟩ | ⟨rfl, new⟩
  · exact h earlier sent rest old
  · cases new
    exact lawful

theorem Concluded.of_received (h : s.Concluded p call (t ++ [.received text])) :
    s.Concluded p call t ∨ .sent (s.startMessage p call) ∈ t ∧ s.Concludes text := by
  obtain ⟨before, told, after, split, started, concludes⟩ := h
  rcases concat_cases split with ⟨rest, old⟩ | ⟨rfl, new⟩
  · exact .inl ⟨before, told, rest, old, started, concludes⟩
  · cases new
    exact .inr ⟨started, concludes⟩

theorem Concluded.of_sent (h : s.Concluded p call (t ++ [.sent text])) : s.Concluded p call t := by
  obtain ⟨before, told, after, split, started, concludes⟩ := h
  rcases concat_cases split with ⟨rest, old⟩ | ⟨-, new⟩
  · exact ⟨before, told, rest, old, started, concludes⟩
  · cases new

theorem not_concludes_ping (tells : Says text "ping") : ¬ s.Concludes text := by
  obtain ⟨m, read, kind⟩ := tells
  rintro ⟨m', read', ends, -⟩
  rw [read] at read'
  cases read'
  rw [kind] at ends
  exact absurd ends (by decide)

/-- The words of a part that has been reached. -/
def Spoken (s : Subscription) (p : SubProtocol) (call : GraphqlCall) : Part → List String → Prop
  | .greeting, texts => ∃ n, texts = s.initMessage :: List.replicate n pongMessage
  | .streaming, texts => ∃ n m, texts = s.initMessage :: List.replicate n pongMessage ++
      s.startMessage p call :: List.replicate m pongMessage
  | .ended, texts => s.Word p call texts

/-- What is true of an exchange that has got so far. -/
structure Sound (s : Subscription) (p : SubProtocol) (call : GraphqlCall) (part : Part)
    (t : List Traffic) : Prop where
  lawful : s.AllLawful p call t
  spoken : s.Spoken p call part (sentTexts t)
  acknowledged : part = .streaming → ∃ ack, .received ack ∈ t ∧ Says ack "connection_ack"
  goes : part ≠ .ended → ¬ s.Concluded p call t

theorem Sound.not_started (h : s.Sound p call .greeting t) : .sent (s.startMessage p call) ∉ t := by
  intro started
  obtain ⟨n, spoken⟩ := h.spoken
  have said := mem_sentTexts started
  rw [spoken] at said
  rcases List.mem_cons.mp said with init | pong
  · exact s.start_ne_init p call init
  · exact s.start_ne_pong p call (List.eq_of_mem_replicate pong)

/-- Before the operation is started nothing can end it. -/
theorem Sound.not_concluded (h : s.Sound p call .greeting t) (text : String) :
    ¬ s.Concluded p call (t ++ [.received text]) := by
  intro concluded
  rcases concluded.of_received with old | ⟨started, -⟩
  · exact h.goes nofun old
  · exact h.not_started started

theorem Sound.opened : s.Sound p call .greeting [.sent s.initMessage] := by
  have fresh : ¬ s.Concluded p call [] := by
    rintro ⟨before, told, after, split, -⟩
    simp at split
  refine ⟨?_, ⟨0, rfl⟩, nofun, fun _ concluded => fresh (Concluded.of_sent (t := []) concluded)⟩
  refine AllLawful.sent (t := []) (fun earlier text later h => by simp at h) ⟨?_, ?_, fresh⟩
  · exact fun same => absurd same.symm (s.start_ne_init p call)
  · exact fun same => absurd same s.init_ne_pong

theorem Sound.greeted (h : s.Sound p call .greeting t) (text : String) :
    s.Sound p call .greeting (t ++ [.received text]) := by
  refine ⟨h.lawful.received text, ?_, nofun, fun _ => h.not_concluded text⟩
  simpa using h.spoken

theorem Sound.started {ack : String} (h : s.Sound p call .greeting t)
    (tells : Says ack "connection_ack") :
    s.Sound p call .streaming (t ++ [.received ack] ++ [.sent (s.startMessage p call)]) := by
  have goes := h.not_concluded ack
  refine ⟨(h.lawful.received ack).sent ⟨fun _ => ⟨ack, by simp, tells⟩, ?_, goes⟩, ?_,
    fun _ => ⟨ack, by simp, tells⟩, fun _ concluded => goes concluded.of_sent⟩
  · exact fun same => absurd same (s.start_ne_pong p call)
  · obtain ⟨n, spoken⟩ := h.spoken
    exact ⟨n, 0, by simp [spoken]⟩

theorem Sound.heard (h : s.Sound p call .streaming t) (goes : ¬ s.Concludes text) :
    s.Sound p call .streaming (t ++ [.received text]) := by
  obtain ⟨ack, received, tells⟩ := h.acknowledged rfl
  refine ⟨h.lawful.received text, ?_, fun _ => ⟨ack, List.mem_append_left _ received, tells⟩,
    fun _ concluded => ?_⟩
  · simpa using h.spoken
  · rcases concluded.of_received with old | ⟨-, concludes⟩
    · exact h.goes nofun old
    · exact goes concludes

theorem Sound.answered {part : Part} {ping : String} (h : s.Sound p call part t)
    (live : part ≠ .ended) (tells : Says ping "ping") :
    s.Sound p call part (t ++ [.received ping] ++ [.sent pongMessage]) := by
  have goes : ¬ s.Concluded p call (t ++ [.received ping]) := fun concluded => by
    rcases concluded.of_received with old | ⟨-, concludes⟩
    · exact h.goes live old
    · exact not_concludes_ping tells concludes
  refine ⟨(h.lawful.received ping).sent ⟨?_, fun _ => ⟨t, ping, rfl, tells⟩, goes⟩, ?_, ?_,
    fun _ concluded => goes concluded.of_sent⟩
  · exact fun same => absurd same.symm (s.start_ne_pong p call)
  · cases part with
    | greeting =>
      obtain ⟨n, spoken⟩ := h.spoken
      exact ⟨n + 1, by simp [spoken, List.replicate_succ']⟩
    | streaming =>
      obtain ⟨n, m, spoken⟩ := h.spoken
      exact ⟨n, m + 1, by simp [spoken, List.replicate_succ']⟩
    | ended => exact absurd rfl live
  · intro streaming
    obtain ⟨ack, received, tells⟩ := h.acknowledged streaming
    exact ⟨ack, by simp [received], tells⟩

theorem Sound.stopped (h : s.Sound p call .streaming t) :
    s.Sound p call .ended (t ++ .sent (s.stopMessage p) ::
      if announcesEnd p then [.sent terminateMessage] else []) := by
  obtain ⟨ack, received, tells⟩ := h.acknowledged rfl
  obtain ⟨n, m, spoken⟩ := h.spoken
  have goes := h.goes nofun
  have stop : s.AllLawful p call (t ++ [.sent (s.stopMessage p)]) := h.lawful.sent
    ⟨fun _ => ⟨ack, received, tells⟩, fun same => absurd same (s.stop_ne_pong p), goes⟩
  refine ⟨?_, ?_, nofun, nofun⟩
  · by_cases announces : announcesEnd p = true
    · have terminates : s.Lawful p call (t ++ [.sent (s.stopMessage p)]) terminateMessage :=
        ⟨fun _ => ⟨ack, by simp [received], tells⟩, fun same => absurd same terminate_ne_pong,
          fun concluded => goes concluded.of_sent⟩
      simpa [announces] using stop.sent terminates
    · simpa [announces] using stop
  · have word : s.Word p call _ := .stopped n m
    by_cases announces : announcesEnd p = true <;> simpa [Spoken, spoken, announces] using word

/-- Where an exchange stops, it conforms. -/
theorem Sound.left {part : Part} (h : s.Sound p call part t) : s.Sound p call .ended t := by
  refine ⟨h.lawful, ?_, nofun, nofun⟩
  cases part with
  | greeting =>
    obtain ⟨n, spoken⟩ := h.spoken
    exact spoken ▸ .greeting n
  | streaming =>
    obtain ⟨n, m, spoken⟩ := h.spoken
    exact spoken ▸ .streaming n m
  | ended => exact h.spoken

theorem Sound.concluded (h : s.Sound p call .streaming t) (text : String) :
    s.Sound p call .ended (t ++ [.received text]) := by
  refine ⟨h.lawful.received text, ?_, nofun, nofun⟩
  simpa using h.left.spoken

theorem Speaks.sound {part : Part} (h : s.Speaks p call part t) : s.Sound p call part t := by
  induction h with
  | opened => exact .opened
  | greeted text _ ih => exact ih.greeted text
  | started _ tells ih => exact ih.started tells
  | heard _ goes ih => exact ih.heard goes
  | answered _ live tells ih => exact ih.answered live tells
  | stopped _ ih => exact ih.stopped
  | concluded text _ ih => exact ih.concluded text
  | left _ ih => exact ih.left

theorem Speaks.conforms {part : Part} (h : s.Speaks p call part t) : s.Conforms p call t :=
  ⟨h.sound.left.spoken, h.sound.lawful⟩

end Order

end ScreenFlow.Subscription
