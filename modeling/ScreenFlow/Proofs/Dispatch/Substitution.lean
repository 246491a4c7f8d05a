import ScreenFlow.Dispatch.Action
import ScreenFlow.Proofs.Execute.Effects
import ScreenFlow.Proofs.Resolve.Verbatim

/-!
# What actions send of their parameters

An action fills in its parameters and hands them to a data source, which fills in the body that it
is given once more.

* `Idle`, `Situation.idle_perform`: actions of other kinds execute no request;
* `Situation.given`: the parameters that an action sends, filled in once;
* `Situation.resolves_of_perform`: the request that an action executes is resolved from them;
* `Situation.sent_verbatim_iff`: it carries them as they are exactly if they are inert;
* `Situation.not_filledOnce`: a text that came out of the state is taken for a template.
-/

namespace ScreenFlow

/-- The kinds of action that send their parameters to a data source. -/
def ActionKind.sends : ActionKind → Bool
  | apiCall | crudCreate | crudRead | crudUpdate | crudDelete | graphql | graphqlMutation
  | aiGenerate | auditLog => true
  | _ => false

namespace Action

variable {history : List (Happening interface)}

/-- The states that were looked at, in order. -/
def seen (history : List (Happening interface)) : List Json :=
  history.filterMap fun
    | ⟨.snapshot, state⟩ => some state
    | _ => none

/-- The requests that were executed, in order. -/
def executed (history : List (Happening interface)) : List Request :=
  history.filterMap fun
    | ⟨.execute q _, _⟩ => some q
    | _ => none

@[simp] theorem seen_append (first rest : List (Happening interface)) :
    seen (first ++ rest) = seen first ++ seen rest := List.filterMap_append

@[simp] theorem executed_append (first rest : List (Happening interface)) :
    executed (first ++ rest) = executed first ++ executed rest := List.filterMap_append

def Ask.executes : Ask → Bool
  | .execute .. => true
  | _ => false

/-- Executes no request. -/
def Idle {α : Type} (o : Operation α) : Prop := o.Asks fun q => Ask.executes q = false

theorem Idle.bind {α β : Type} {o : Operation α} {k : α → Operation β} (h : Idle o)
    (hk : ∀ a, Idle (k a)) : Idle (o >>= k) :=
  Process.Asks.bind h hk

theorem Idle.executed {α : Type} {o : Operation α} {history : List (Happening interface)} {a : α}
    (h : Idle o) (ends : o.Ends history a) : executed history = [] := by
  refine List.filterMap_eq_nil_iff.mpr fun e he => ?_
  have asks := h.of_ends ends e he
  obtain ⟨q, x⟩ := e
  cases q with
  | execute => cases asks
  | _ => rfl

namespace Situation

variable {s : Situation} {q : Request} {body : Option Json} {result : Except Fault Json}

theorem idle_scope : Idle s.scope := ⟨rfl, fun _ => trivial⟩

theorem idle_resolve (v : Json) : Idle (s.resolve v) := idle_scope.bind fun _ => trivial

theorem idle_param (key : String) : Idle (s.param key) := by
  unfold param
  split
  · exact (idle_resolve _).bind fun _ => trivial
  · trivial

theorem idle_text (keys : List String) : Idle (s.paramText keys) := by
  unfold paramText
  split
  · exact (idle_resolve _).bind fun _ => trivial
  · trivial

theorem idle_requireText (keys : List String) (what : String) : Idle (s.requireText keys what) := by
  refine (idle_text keys).bind fun text => ?_
  split <;> trivial

theorem idle_request (body : Option Json) : Idle (s.request body) := by
  unfold request
  split
  · trivial
  · split
    · trivial
    · exact idle_scope.bind fun _ => ⟨rfl, fun _ => trivial⟩

theorem idle_exportFile (filename contentType content : String) (rows : Nat) :
    Idle (exportFile filename contentType content rows) := by
  refine ⟨rfl, fun came => ?_⟩
  cases came <;> trivial

/-! ### Actions that execute nothing -/

theorem idle_navigate : Idle s.navigate := by
  refine (idle_requireText _ _).bind fun href => ?_
  split
  · trivial
  · exact (idle_param _).bind fun _ => ⟨rfl, fun _ => trivial⟩

theorem idle_toggleModal (shown : Bool) : Idle (s.toggleModal shown) := by
  refine (idle_requireText _ _).bind fun id => ?_
  split
  · trivial
  · exact ⟨rfl, fun _ => trivial⟩

theorem idle_toast : Idle s.toast := by
  refine (idle_requireText _ _).bind fun message => ?_
  split
  · trivial
  · exact (idle_text _).bind fun _ => ⟨rfl, fun _ => trivial⟩

theorem idle_updateState : Idle s.updateState := by
  refine (idle_requireText _ _).bind fun path => ?_
  split
  · trivial
  · exact (idle_param _).bind fun _ => ⟨rfl, fun _ => trivial⟩

theorem idle_runScript : Idle s.runScript := by
  unfold runScript
  split
  · trivial
  · refine idle_scope.bind fun _ => ⟨rfl, fun came => ?_⟩
    cases came with
    | error f => trivial
    | ok value =>
      refine (idle_text _).bind fun path => ?_
      cases path with
      | none => trivial
      | some path => exact ⟨rfl, fun _ => trivial⟩

theorem idle_streamTarget : Idle s.streamTarget := by
  unfold streamTarget
  split
  · exact idle_scope.bind fun _ => trivial
  · exact idle_text _

theorem idle_subscribe : Idle s.subscribe := by
  unfold subscribe
  split
  · trivial
  · refine (idle_param _).bind fun vars => (idle_request _).bind fun r => ?_
    cases r with
    | error f => trivial
    | ok r =>
      refine idle_streamTarget.bind fun path => ⟨rfl, fun came => ?_⟩
      cases came <;> trivial

theorem idle_exportJson : Idle s.exportJson := by
  refine (idle_param _).bind fun data => ?_
  split
  · trivial
  · exact (idle_text _).bind fun _ => idle_exportFile _ _ _ _

theorem idle_exportCsv : Idle s.exportCsv := by
  refine (idle_param _).bind fun data => ?_
  split
  · trivial
  · refine (idle_text _).bind fun filename => ?_
    split
    · exact (idle_param _).bind fun _ => idle_exportFile _ _ _ _
    · trivial

theorem idle_useDevice : Idle s.useDevice := (idle_resolve _).bind fun _ => ⟨rfl, fun _ => trivial⟩

/-- An action of a kind that sends nothing executes no request. -/
theorem idle_perform (kind : s.spec.action.sends = false) : Idle s.perform := by
  unfold perform
  cases action : s.spec.action with
  | navigation => exact idle_navigate
  | openModal => exact idle_toggleModal true
  | closeModal => exact idle_toggleModal false
  | toast => exact idle_toast
  | updateState => exact idle_updateState
  | runScript => exact idle_runScript
  | graphqlSubscription => exact idle_subscribe
  | exportCsv => exact idle_exportCsv
  | exportJson => exact idle_exportJson
  | voiceCommand | initiateCall | walletConnect | walletSign => exact idle_useDevice
  | _ =>
    rw [action] at kind
    cases kind

theorem sends_of_executed (h : s.perform.Ends history result) (hq : q ∈ executed history) :
    s.spec.action.sends = true := by
  cases kind : s.spec.action.sends with
  | true => rfl
  | false =>
    rw [(idle_perform kind).executed h] at hq
    cases hq

/-! ### Parameters -/

/-- A template filled in once, in this state. -/
def filled (s : Situation) (state v : Json) : Json := s.dispatcher.fill (s.context.scope state) v

/-- What is tracked, and posted if there is a data source. -/
def entry (s : Situation) (state : Json) : Json :=
  match s.filled state (.obj s.spec.params) with
  | .obj fields => .obj (Json.insert fields "invocationId" (.str s.invocation.id))
  | v => v

/-- What the action sends of its parameters, filled in once, in this state. -/
def given (s : Situation) (state : Json) : Option Json :=
  match s.spec.action with
  | .graphql | .graphqlMutation => (s.spec.param? "variables").map (s.filled state)
  | .aiGenerate => some (s.filled state ((s.spec.param? "body").getD (.obj s.spec.params)))
  | .auditLog => some (s.entry state)
  | _ => (s.spec.param? "body").map (s.filled state)

/-- The value was made out of one state that was looked at, or out of none if there is none. Nothing
was executed meanwhile. -/
structure Made (f : Json → Option Json) (history : List (Happening interface)) (v : Option Json) :
    Prop where
  idle : executed history = []
  source : (v = none ∧ ∀ state, f state = none) ∨ ∃ state ∈ seen history, v = f state

theorem resolve_eq (v : Json) :
    s.resolve v = .ask .snapshot fun state => .done (s.filled state v) := rfl

theorem ends_resolve_iff {v w : Json} : (s.resolve v).Ends history w ↔
    ∃ state, history = [⟨.snapshot, state⟩] ∧ w = s.filled state v := by
  rw [resolve_eq, Process.ends_ask_iff]
  constructor
  · rintro ⟨state, rest, rfl, closed⟩
    obtain ⟨rfl, rfl⟩ := Process.ends_done_iff.mp closed
    exact ⟨state, rfl, rfl⟩
  · rintro ⟨state, rfl, rfl⟩
    exact ⟨state, [], rfl, .done _⟩

theorem made_of_param {key : String} {v : Option Json} (h : (s.param key).Ends history v) :
    Made (fun state => (s.spec.param? key).map (s.filled state)) history v := by
  unfold param at h
  cases there : s.spec.param? key with
  | none =>
    rw [there] at h
    obtain ⟨rfl, rfl⟩ := Process.ends_done_iff.mp h
    exact ⟨rfl, .inl ⟨rfl, fun _ => rfl⟩⟩
  | some t =>
    rw [there] at h
    obtain ⟨first, w, rest, rfl, hfirst, hrest⟩ := Process.ends_bind_iff.mp h
    obtain ⟨state, rfl, rfl⟩ := ends_resolve_iff.mp hfirst
    obtain ⟨rfl, rfl⟩ := Process.ends_done_iff.mp hrest
    exact ⟨rfl, .inr ⟨state, List.mem_singleton.mpr rfl, rfl⟩⟩

/-- The body that the parameters give is what the action sends of them. -/
theorem made_of_requestBody (other : s.spec.action ≠ .auditLog)
    (h : s.requestBody.Ends history body) : Made s.given history body := by
  have plain {key : String} (h : (s.param key).Ends history body)
      (same : s.given = fun state => (s.spec.param? key).map (s.filled state)) :
      Made s.given history body := same ▸ made_of_param h
  unfold requestBody at h
  cases kind : s.spec.action with
  | auditLog => exact absurd kind other
  | graphql | graphqlMutation =>
    rw [kind] at h
    exact plain h (funext fun state => by simp only [given, kind])
  | aiGenerate =>
    rw [kind] at h
    obtain ⟨first, v, rest, rfl, hfirst, hrest⟩ := Process.ends_bind_iff.mp h
    obtain ⟨idle, made⟩ := made_of_param hfirst
    cases there : s.spec.param? "body" with
    | none =>
      have none : v = none := by
        rcases made with ⟨none, -⟩ | ⟨state, -, same⟩
        · exact none
        · rw [same, there]
          rfl
      subst none
      obtain ⟨second, w, last, rfl, hsecond, hlast⟩ := Process.ends_bind_iff.mp hrest
      obtain ⟨state, rfl, rfl⟩ := ends_resolve_iff.mp hsecond
      obtain ⟨rfl, rfl⟩ := Process.ends_done_iff.mp hlast
      refine ⟨by rw [executed_append, idle]; rfl, .inr ⟨state, by simp [seen], ?_⟩⟩
      simp only [given, kind, there, Option.getD_none]
    | some t =>
      simp only [there, Option.map_some, reduceCtorEq, forall_const, and_false, false_or] at made
      obtain ⟨state, hstate, rfl⟩ := made
      obtain ⟨rfl, rfl⟩ := Process.ends_done_iff.mp hrest
      refine ⟨by rw [executed_append, idle]; rfl, .inr ⟨state, ?_, ?_⟩⟩
      · rw [seen_append]
        exact List.mem_append_left _ hstate
      · simp only [given, kind, there, Option.getD_some]
  | _ =>
    rw [kind] at h
    exact plain h (funext fun state => by simp only [given, kind])

/-! ### Requests -/

/-- The request is resolved from this body, in a state that was looked at. -/
def Resolves (s : Situation) (history : List (Happening interface)) (body : Option Json)
    (source : DataSource) (live : Option String) (state : Json) (q : Request) : Prop :=
  (∃ id, s.spec.dataSourceId = some id ∧
      s.dispatcher.registry.find s.invocation.own id = .ok source) ∧
    state ∈ seen history ∧
    (⟨s.dispatcher.translate, live⟩ : Resolver).resolve (source.forAction s.spec.action)
      s.dispatcher.defaults (s.context.scope state) body = .ok q

theorem resolves_of_request (h : (s.request body).Ends history (.ok q)) :
    ∃ source live state, s.Resolves history body source live state q := by
  unfold request at h
  cases named : s.spec.dataSourceId with
  | none =>
    rw [named] at h
    cases (Process.ends_done_iff.mp h).2
  | some id =>
    rw [named] at h
    dsimp only at h
    cases found : s.dispatcher.registry.find s.invocation.own id with
    | error f =>
      rw [found] at h
      cases (Process.ends_done_iff.mp h).2
    | ok source =>
      rw [found] at h
      obtain ⟨state, rest, rfl, looked⟩ := Process.ends_ask_iff.mp h
      obtain ⟨live, rest, rfl, got⟩ := Process.ends_ask_iff.mp looked
      obtain ⟨rfl, same⟩ := Process.ends_done_iff.mp got
      exact ⟨source, live, state, ⟨id, named, found⟩, List.mem_singleton.mpr rfl, same.symm⟩

theorem resolves_of_send (h : (s.send body).Ends history result) (hq : q ∈ executed history) :
    ∃ source live state, s.Resolves history body source live state q := by
  obtain ⟨first, r, rest, rfl, hfirst, hrest⟩ := Process.ends_bind_iff.mp h
  rw [executed_append, (idle_request body).executed hfirst, List.nil_append] at hq
  cases r with
  | error f =>
    obtain ⟨rfl, -⟩ := Process.ends_done_iff.mp hrest
    cases hq
  | ok q₀ =>
    obtain ⟨a, rest, rfl, answered⟩ := Process.ends_ask_iff.mp hrest
    have closed : rest = [] := by
      rcases a with f | response
      · exact (Process.ends_done_iff.mp answered).1
      · rw [Process.done_bind] at answered
        dsimp only at answered
        split at answered
        · exact (Process.ends_done_iff.mp answered).1
        · exact (Process.ends_done_iff.mp answered).1
    subst closed
    obtain rfl : q = q₀ := List.mem_singleton.mp hq
    obtain ⟨source, live, state, there, hstate, resolved⟩ := resolves_of_request hfirst
    refine ⟨source, live, state, there, ?_, resolved⟩
    rw [seen_append]
    exact List.mem_append_left _ hstate

theorem Resolves.of_suffix {before after : List (Happening interface)} {source : DataSource}
    {live : Option String} {state : Json} (h : s.Resolves after body source live state q) :
    s.Resolves (before ++ after) body source live state q := by
  obtain ⟨there, hstate, resolved⟩ := h
  refine ⟨there, ?_, resolved⟩
  rw [seen_append]
  exact List.mem_append_right _ hstate

/-- Up to its request an action executes nothing, and makes the body out of its parameters. -/
def Sends (s : Situation) (history : List (Happening interface)) (result : Except Fault Json) :
    Prop :=
  ∃ before body rest, history = before ++ rest ∧ Made s.given before body ∧
    (s.send body).Ends rest result

theorem sends_of_callSource (other : s.spec.action ≠ .auditLog)
    (h : s.callSource.Ends history result) : s.Sends history result := by
  obtain ⟨before, body, rest, rfl, hbefore, hrest⟩ := Process.ends_bind_iff.mp h
  exact ⟨before, body, rest, rfl, made_of_requestBody other hbefore, hrest⟩

theorem audit_eq (s : Situation) : s.audit = .ask .snapshot fun state =>
    (s.paramText ["event"]).bind fun name =>
      .ask (.track (name.getD "audit_log") (s.entry state)) fun _ =>
        if s.spec.dataSourceId.isSome then s.send (some (s.entry state))
        else .done (.ok (s.entry state)) := rfl

theorem sends_of_audit (kind : s.spec.action = .auditLog) (h : s.audit.Ends history result)
    (hq : q ∈ executed history) : s.Sends history result := by
  rw [audit_eq] at h
  obtain ⟨state, rest, rfl, looked⟩ := Process.ends_ask_iff.mp h
  obtain ⟨naming, name, rest, rfl, hname, hrest⟩ := Process.ends_bind_iff.mp looked
  obtain ⟨_, rest, rfl, tracked⟩ := Process.ends_ask_iff.mp hrest
  have before : executed (⟨.snapshot, state⟩ :: (naming ++
      [⟨.track (name.getD "audit_log") (s.entry state), ()⟩])) = [] := by
    have idle := (idle_text _).executed hname
    change executed (naming ++ _) = []
    rw [executed_append, idle]
    rfl
  have split : (⟨.snapshot, state⟩ :: (naming ++
      ⟨.track (name.getD "audit_log") (s.entry state), ()⟩ :: rest) : List (Happening interface)) =
        (⟨.snapshot, state⟩ :: (naming ++
          [⟨.track (name.getD "audit_log") (s.entry state), ()⟩])) ++ rest := by
    simp
  rw [split] at hq ⊢
  rw [executed_append, before, List.nil_append] at hq
  cases posts : s.spec.dataSourceId.isSome with
  | false =>
    rw [posts, if_neg (by simp)] at tracked
    obtain ⟨rfl, -⟩ := Process.ends_done_iff.mp tracked
    cases hq
  | true =>
    rw [posts, if_pos rfl] at tracked
    have same : s.given state = some (s.entry state) := by
      simp only [given, kind]
    exact ⟨_, _, rest, rfl, ⟨before, .inr ⟨state, List.mem_cons_self, same.symm⟩⟩, tracked⟩

theorem sends_of_perform (kind : s.spec.action.sends = true) (h : s.perform.Ends history result)
    (hq : q ∈ executed history) : s.Sends history result := by
  unfold perform at h
  cases action : s.spec.action with
  | auditLog =>
    rw [action] at h
    exact sends_of_audit action h hq
  | apiCall | crudCreate | crudRead | crudUpdate | crudDelete | graphql | graphqlMutation
  | aiGenerate =>
    rw [action] at h
    exact sends_of_callSource (by simp [action]) h
  | _ =>
    rw [action] at kind
    cases kind

/-- The request that an action executes is resolved from its parameters, filled in before. -/
theorem resolves_of_perform (kind : s.spec.action.sends = true) (h : s.perform.Ends history result)
    (hq : q ∈ executed history) :
    ∃ source live first second, first ∈ seen history ∧
      s.Resolves history (s.given first) source live second q := by
  obtain ⟨before, body, rest, rfl, made, hrest⟩ := sends_of_perform kind h hq
  rw [executed_append, made.idle, List.nil_append] at hq
  obtain ⟨source, live, second, resolves⟩ := resolves_of_send hrest hq
  have whole : s.Resolves (before ++ rest) body source live second q := resolves.of_suffix
  rcases made.source with ⟨rfl, none⟩ | ⟨first, hfirst, rfl⟩
  · exact ⟨source, live, second, second, whole.2.1, by rwa [none second]⟩
  · refine ⟨source, live, first, second, ?_, whole⟩
    rw [seen_append]
    exact List.mem_append_left _ hfirst

/-! ### What is sent -/

/-- What holds of the values of an action, its context and its parameters: they are sound. -/
structure Sound (s : Situation) : Prop where
  params : (Json.obj s.spec.params).Sound
  context : Json.SoundFields s.context

theorem scope_sound (sound : s.Sound) {state : Json} (hstate : state.Sound) :
    (s.context.scope state).Sound := by
  have laid {base : List (String × Json)} (h : (Json.obj base).Sound) :
      (Json.obj (Json.extend base s.context)).Sound :=
    ⟨Json.ascending_extend h.1, Json.sound_extend h.2 sound.context⟩
  cases state with
  | obj fields => exact laid hstate
  | null => exact laid Json.empty_sound
  | _ => exact laid ⟨List.pairwise_singleton .., hstate, trivial⟩

theorem filled_sound (sound : s.Sound) {state v : Json} (hstate : state.Sound) (hv : v.Sound) :
    (s.filled state v).Sound :=
  Template.resolve_sound (scope_sound sound hstate) hv rfl

theorem entry_sound (sound : s.Sound) {state : Json} (hstate : state.Sound) :
    (s.entry state).Sound := by
  have params := filled_sound sound hstate sound.params
  unfold entry
  split
  · rename_i fields same
    rw [same] at params
    refine ⟨Json.ascending_insert params.1, Json.soundFields_iff.mpr fun f hf => ?_⟩
    rcases Json.mem_insert hf with rfl | old
    · trivial
    · exact Json.soundFields_iff.mp params.2 f old
  · exact params

/-- What an action sends of its parameters is sound. -/
theorem given_sound (sound : s.Sound) {state w : Json} (hstate : state.Sound)
    (h : s.given state = some w) : w.Sound := by
  have param {key : String} (h : (s.spec.param? key).map (s.filled state) = some w) : w.Sound := by
    obtain ⟨v, hv, rfl⟩ := Option.map_eq_some_iff.mp h
    exact filled_sound sound hstate (Json.sound_lookup sound.params.2 hv)
  unfold given at h
  split at h
  · exact param h
  · exact param h
  · cases there : s.spec.param? "body" with
    | none =>
      rw [there] at h
      exact Option.some.inj h ▸ filled_sound sound hstate sound.params
    | some v =>
      rw [there] at h
      exact Option.some.inj h ▸ filled_sound sound hstate (Json.sound_lookup sound.params.2 there)
  · exact Option.some.inj h ▸ entry_sound sound hstate
  · exact param h

/-- A request that was made from the value `w` in this scope, and when the value was left as it
is. -/
structure Substituted (r : Resolver) (d : DataSource) (scope w : Json) (q : Request) : Prop where
  again : Resolver.Conveys r d scope (r.fill scope w) q
  verbatim_iff : Resolver.Takes d q →
    (Resolver.Conveys r d scope w q ↔ Template.Inert scope r.translate w)
  plain : Resolver.Takes d q → Template.Plain w → Resolver.Conveys r d scope w q

theorem Substituted.headers {r : Resolver} {d : DataSource} {scope w : Json}
    (h : Substituted r d scope w q) (hs : Headers) :
    Substituted r d scope w { q with headers := hs } := ⟨h.again, h.verbatim_iff, h.plain⟩

/-- What an action sends of its parameters, filled in once, is filled in again on its way, in the
scope of that moment. It arrives as it was exactly if every text in it stands for itself there. -/
theorem sent_verbatim_iff (s : Situation) (kind : s.spec.action.sends = true) (sound : s.Sound)
    (history : List (Happening interface)) (result : Except Fault Json)
    (ends : s.perform.Ends history result) (states : ∀ state ∈ seen history, state.Sound)
    (q : Request) (executes : q ∈ executed history) (x : Executor) (expected : Option ResponseType)
    (sending : List (Happening Executor.interface)) (outcome : Except Fault Response)
    (sends : (x.execute q expected).Ends sending outcome) (q' : Request)
    (sent : q' ∈ Executor.sent sending) :
    ∃ source live first second, first ∈ seen history ∧
      s.Resolves history (s.given first) source live second q ∧
      ∀ w, s.given first = some w → Substituted ⟨s.dispatcher.translate, live⟩
        (source.forAction s.spec.action) (s.context.scope second) w q' := by
  obtain ⟨source, live, first, second, hfirst, resolves⟩ := resolves_of_perform kind ends executes
  refine ⟨source, live, first, second, hfirst, resolves, fun w hw => ?_⟩
  have resolved := resolves.2.2
  rw [hw] at resolved
  have wsound : w.Sound := given_sound sound (states first hfirst) hw
  have substituted : Substituted ⟨s.dispatcher.translate, live⟩ (source.forAction s.spec.action)
      (s.context.scope second) w q := by
    constructor
    · exact Resolver.conveys_of_resolve resolved
    · exact fun takes => Resolver.conveys_iff_inert resolved takes wsound
    · exact fun takes plain => (Resolver.conveys_iff_inert resolved takes wsound).mpr plain.inert
  rw [Executor.same_of_sent sends sent]
  exact substituted.headers q'.headers

/-- A place for notes. -/
def notes : DataSource where
  id := "notes"
  path := "https://a/notes"

/-- An action that posts the note of the state. -/
def noting : Situation where
  dispatcher := {}
  invocation := { id := "i", own := [notes] }
  spec := { action := .apiCall, dataSourceId := some "notes",
            params := [("body", .obj [("text", .str "{{note}}")])] }
  context := Context.ofEvent .null

/-- A state with a note and a secret. -/
def noted (note : String) : Json := .obj [("note", .str note), ("secret", .str "s3cret")]

/-- The request that posts a text. -/
def posted (text : String) : Request where
  dataSourceId := "notes"
  method := .post
  url := "https://a/notes"
  headers := [(contentTypeHeader, "application/json")]
  body := .json (.obj [("text", .str text)])

/-- What happens if a note is posted as this text. -/
def noteTaken (note text : String) : List (Happening interface) :=
  [⟨.snapshot, noted note⟩, ⟨.snapshot, noted note⟩, ⟨.token, none⟩,
    ⟨.execute (posted text) none, .ok { status := 204 }⟩]

theorem noting_resolves {note text : String}
    (h : ((⟨noting.dispatcher.translate, none⟩ : Resolver).resolve (notes.forAction .apiCall) {}
      (noting.context.scope (noted note)) (noting.given (noted note))).toOption =
        some (posted text)) :
    noting.Resolves (noteTaken note text) (noting.given (noted note)) notes none (noted note)
      (posted text) := by
  refine ⟨⟨"notes", rfl, rfl⟩, List.mem_cons_self, ?_⟩
  cases resolved : (⟨noting.dispatcher.translate, none⟩ : Resolver).resolve
      (notes.forAction .apiCall) {} (noting.context.scope (noted note))
      (noting.given (noted note)) with
  | error f =>
    rw [resolved] at h
    cases h
  | ok q =>
    rw [resolved] at h
    exact resolved.trans (congrArg Except.ok (Option.some.inj h))

theorem ends_noting {note text : String} (h : noting.Resolves (noteTaken note text)
    (noting.given (noted note)) notes none (noted note) (posted text)) :
    noting.perform.Ends (noteTaken note text) (.ok .null) := by
  have body : noting.requestBody.Ends [⟨.snapshot, noted note⟩] (noting.given (noted note)) :=
    .asked _ (.done _)
  have request : (noting.request (noting.given (noted note))).Ends
      [⟨.snapshot, noted note⟩, ⟨.token, none⟩] (.ok (posted text)) := by
    rw [← h.2.2]
    exact .asked _ (.asked _ (.done _))
  have sends : (noting.send (noting.given (noted note))).Ends
      ([⟨.snapshot, noted note⟩, ⟨.token, none⟩] ++
        [⟨.execute (posted text) none, .ok { status := 204 }⟩]) (.ok .null) :=
    Process.ends_bind_iff.mpr ⟨_, _, _, rfl, request, .asked _ (.done _)⟩
  exact Process.ends_bind_iff.mpr ⟨_, _, _, rfl, body, sends⟩

/-- How a text is sent that is accepted at once. -/
def accepting (text : String) : List (Happening Executor.interface) :=
  [⟨.cancelled, false⟩, ⟨.cancelled, false⟩,
    ⟨.send (posted text) 30000, some (.replied { status := 204 })⟩]

theorem ends_accepting (text : String) :
    (({} : Executor).execute (posted text) none).Ends (accepting text) (.ok { status := 204 }) := by
  iterate 3 apply Process.Ends.asked
  exact .done _

theorem noting_sound : noting.Sound where
  params := ⟨List.pairwise_singleton .., ⟨List.pairwise_singleton .., trivial, trivial⟩, trivial⟩
  context := ⟨trivial, trivial⟩

theorem noted_sound (note : String) : (noted note).Sound := by
  have ascending : Json.Ascending [("note", .str note), ("secret", .str "s3cret")] :=
    Json.ascending_of_keys ["note", "secret"] rfl (by decide)
  exact ⟨ascending, trivial, trivial, trivial⟩

theorem sent_verbatim_iff_milk :
    ∃ source live first second, first ∈ seen (noteTaken "milk" "milk") ∧
      noting.Resolves (noteTaken "milk" "milk") (noting.given first) source live second
        (posted "milk") ∧
      ∀ w, noting.given first = some w → Substituted ⟨noting.dispatcher.translate, live⟩
        (source.forAction .apiCall) (noting.context.scope second) w (posted "milk") := by
  have resolves : noting.Resolves (noteTaken "milk" "milk") (noting.given (noted "milk")) notes none
      (noted "milk") (posted "milk") := noting_resolves (by decide +kernel)
  refine sent_verbatim_iff noting rfl noting_sound _ _ (ends_noting resolves) ?_ (posted "milk")
    (List.mem_singleton.mpr rfl) {} none _ _ (ends_accepting "milk") _ (List.mem_singleton.mpr rfl)
  intro state hstate
  obtain rfl : state = noted "milk" := by simpa [seen, noteTaken] using hstate
  exact noted_sound "milk"

/-- What is sent is what the action sends of its parameters, filled in once. -/
def FilledOnce : Prop :=
  ∀ (s : Situation) (history : List (Happening interface)) (result : Except Fault Json)
    (state : Json) (q : Request) (x : Executor) (expected : Option ResponseType)
    (sending : List (Happening Executor.interface)) (outcome : Except Fault Response) (q' : Request)
    (source : DataSource) (live : Option String) (w : Json),
    s.spec.action.sends = true → s.Sound → state.Sound → s.perform.Ends history result →
    (∀ st ∈ seen history, st = state) → q ∈ executed history →
    (x.execute q expected).Ends sending outcome → q' ∈ Executor.sent sending →
    s.Resolves history (s.given state) source live state q → s.given state = some w →
    Resolver.Takes (source.forAction s.spec.action) q' →
    Resolver.Conveys ⟨s.dispatcher.translate, live⟩ (source.forAction s.spec.action)
      (s.context.scope state) w q'

/-- A note that looks like a placeholder is taken for one. -/
theorem not_filledOnce : ¬ FilledOnce := by
  intro once
  have resolves : noting.Resolves (noteTaken "{{secret}}" "s3cret")
      (noting.given (noted "{{secret}}")) notes none (noted "{{secret}}") (posted "s3cret") :=
    noting_resolves (by decide +kernel)
  have given : noting.given (noted "{{secret}}") = some (.obj [("text", .str "{{secret}}")]) := by
    decide +kernel
  have verbatim := once noting _ _ (noted "{{secret}}") (posted "s3cret") {} none _ _
    (posted "s3cret") notes none _ rfl noting_sound (noted_sound _) (ends_noting resolves)
    (by simp [seen, noteTaken]) (List.mem_singleton.mpr rfl) (ends_accepting "s3cret")
    (List.mem_singleton.mpr rfl) resolves given (.inr ⟨rfl, rfl⟩)
  have same : (posted "s3cret").body = .json (.obj [("text", .str "{{secret}}")]) :=
    verbatim rfl rfl
  exact absurd same (by decide)

end Situation

end Action

end ScreenFlow
