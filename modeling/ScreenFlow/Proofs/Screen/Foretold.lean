import ScreenFlow.Proofs.Execute.Calls
import ScreenFlow.Proofs.Process.Histories
import ScreenFlow.Proofs.Screen.Findings
import ScreenFlow.Dispatch.Action
import ScreenFlow.Subscription.Session

/-!
# Faults that a check foretells

A handler that nests too deep, one that names no data source, and one whose data source is not there
fail in a way that can be told before anything runs.

* `Fault.Foretold`: these faults;
* `Executor.proper_of_run`: a request comes to one only if the transport reports it;
* `Resolver.proper_resolve`: resolving a data source does not;
* `Action.Answered`: what the questions of an action can be answered with, when some of those who
  are asked never answer with such a fault;
* `Action.Situation.proper_of_perform`: then an action that has its data source does not either.
-/

namespace ScreenFlow

namespace Fault

/-- The faults that the check of a screen is there to rule out. -/
inductive Foretold : Fault → Prop
  | tooDeep (limit : Nat) : Foretold (.validation s!"handler nesting exceeds {limit} levels")
  | sourceless (k : ActionKind) : Foretold (.validation s!"{k.name} requires a dataSourceId")
  | unknown (what : String) : Foretold (.notFound what)

theorem opening_kind (k : ActionKind) :
    Text.opening k.name ∉ [['h', 'a'], ['d', 'a'], ['p', 'a'], ['m', 'u'], ['f', 'o']] := by
  cases k <;> decide

theorem opening_of_foretold {reason : String} (h : Foretold (.validation reason)) :
    Text.opening reason = ['h', 'a'] ∨ ∃ k : ActionKind, Text.opening reason = Text.opening k.name := by
  generalize same : Fault.validation reason = f at h
  cases h with
  | tooDeep limit =>
    obtain rfl := Fault.validation.inj same
    rw [String.append_assoc]
    exact .inl (Text.opening_append (s := "handler nesting exceeds ") (by decide) _)
  | sourceless k =>
    obtain rfl := Fault.validation.inj same
    exact .inr ⟨k, Text.opening_append k.name_long _⟩
  | unknown => cases same

/-- A message that begins like this is not about a handler. -/
theorem not_foretold_of_opening {reason : String}
    (h : Text.opening reason ∈ [['d', 'a'], ['p', 'a'], ['m', 'u'], ['f', 'o']]) :
    ¬ Foretold (.validation reason) := by
  intro foretold
  rcases opening_of_foretold foretold with same | ⟨k, same⟩
  · rw [same] at h
    exact absurd h (by decide)
  · exact opening_kind k (List.mem_cons_of_mem _ (same ▸ h))

/-- What a kind of action says about itself, except about a data source. -/
theorem not_foretold_of_ending {reason : String} {k : ActionKind}
    (begins : Text.opening reason = Text.opening k.name)
    (ends : Text.ending reason ≠ ['d', 'I', 'e']) : ¬ Foretold (.validation reason) := by
  intro foretold
  generalize same : Fault.validation reason = f at foretold
  cases foretold with
  | tooDeep limit =>
    obtain rfl := Fault.validation.inj same
    rw [String.append_assoc,
      Text.opening_append (s := toString "handler nesting exceeds ") (by decide)] at begins
    exact opening_kind k (begins ▸ by decide)
  | sourceless k' =>
    obtain rfl := Fault.validation.inj same
    exact ends (Text.ending_append _ (by decide))
  | unknown => cases same

end Fault

/-- The result is no foretold fault. -/
abbrev Proper {α : Type} (result : Except Fault α) : Prop := Within (fun f => ¬ f.Foretold) result

/-! ### Requests -/

theorem GraphqlCall.proper_openBody (body : ResponseBody) : Proper (GraphqlCall.openBody body) := by
  cases body with
  | json envelope =>
    refine Within.map ?_ _
    rw [GraphqlCall.openEnvelope]
    split
    · exact .ok _
    · split
      · exact .ok _
      · exact .error (by rintro ⟨⟩)
  | _ => exact .ok _

theorem Reply.proper_toResponse (reply : Reply) (isGraphql : Bool) (expected : Option ResponseType) :
    Proper (reply.toResponse isGraphql expected) := by
  rw [Reply.toResponse]
  split
  · exact .error (by rintro ⟨⟩)
  · refine Within.map ?_ _
    split
    · exact GraphqlCall.proper_openBody _
    · exact .ok _

namespace Executor

variable {x : Executor} {r : Request} {expected : Option ResponseType} {offline : Bool}
  {history : List (Happening interface)} {result : Except Fault Response}

/-- If the transport reports a fault, it is no foretold one. -/
def Answered : Happening interface → Prop
  | ⟨.send .., some (.failed f)⟩ => ¬ f.Foretold
  | _ => True

theorem proper_outcome {s : Sent} {q : Request} {budget : Duration}
    (answered : Answered ⟨.send q budget, some s⟩) : Proper (x.outcome r expected s) := by
  cases s with
  | elapsed => exact .error nofun
  | failed f => exact .error answered
  | replied reply => exact reply.proper_toResponse _ _

theorem Tries.proper {left : Nat} (h : Tries x r expected left history result)
    (answered : ∀ e ∈ history, Answered e) : Proper result := by
  induction h with
  | stopped | cut | woken => exact .error nofun
  | settled s => exact proper_outcome (answered ⟨.send r (x.budget r), some s⟩ (by simp [attempted]))
  | exhausted failed =>
    rename_i s _ _ _
    rw [← failed]
    exact proper_outcome (answered ⟨.send r (x.budget r), some s⟩ (by simp [attempted]))
  | again _ _ _ _ _ ih => exact ih fun e he => answered e (by simp [he])

theorem Renews.proper (h : Renews x r expected history result)
    (answered : ∀ e ∈ history, Answered e) : Proper result := by
  cases h with
  | stopped | cut | stoppedAgain | cutAgain => exact .error nofun
  | failed f => cases f <;> exact .error nofun
  | again token s =>
    exact proper_outcome (answered ⟨.send (reauthorized r token) (x.budget r), some s⟩ (by simp))

theorem Attempts.proper (h : Attempts x r expected history result)
    (answered : ∀ e ∈ history, Answered e) : Proper result := by
  cases h with
  | tried tries => exact tries.proper answered
  | denied => exact .error nofun
  | renewed _ renews => exact renews.proper fun e he => answered e (by simp [he])

theorem FallsBack.proper {cause : Option Fault} (h : FallsBack r cause history result)
    (proper : ∀ f ∈ cause, ¬ f.Foretold) : Proper result := by
  have passed (f : Fault) (own : ¬ f.Foretold) : ¬ (cause.getD f).Foretold := by
    cases cause with
    | none => exact own
    | some f' => exact proper f' rfl
  cases h with
  | queued _ _ _ a =>
    cases a with
    | ok => exact .ok _
    | error e => exact .error nofun
  | read _ a =>
    rcases a with e | _ | value
    · exact .error (passed _ nofun)
    · exact .error (passed _ nofun)
    · exact .ok _

/-- A request that the transport answers properly comes to something proper: neither the attempts nor
the offline queue make a foretold fault of their own. -/
theorem proper_of_run (h : (x.run r expected offline).Ends history result)
    (answered : ∀ e ∈ history, Answered e) : Proper result := by
  cases course_of_ends h with
  | streaming | cancelled => exact .error nofun
  | unconnected _ _ falls => exact falls.proper nofun
  | connected _ goes settles =>
    have reached := (attempts_of_ends goes).proper fun e he => answered e (by simp [he])
    cases settles with
    | kept | plain => exact reached
    | fellBack _ _ falls =>
      refine falls.proper fun f hf => ?_
      obtain rfl := Option.some.inj hf
      nofun

end Executor

/-! ### Resolving -/

namespace Resolver

variable {r : Resolver} {d : DataSource} {g : Defaults} {scope : Json} {body : Option Json}

/-- What is wrong with a data source is said with its id. -/
theorem about_source (id text : String) :
    ¬ (Fault.validation ("data source '" ++ id ++ text)).Foretold := by
  refine Fault.not_foretold_of_opening ?_
  rw [String.append_assoc, Text.opening_append (by decide)]
  decide

theorem proper_build (tr : Template.Translator) : Proper (Url.build d g scope tr) := by
  rw [Url.build]
  split
  · exact .error (about_source d.id "' has no URL")
  · exact .ok _

theorem proper_graphqlCall : Proper (r.graphqlCall d scope body) := by
  rw [graphqlCall]
  split
  · exact .error (about_source d.id "' has no GraphQL query")
  · exact .ok _

theorem proper_ofField (name : String) (v : Json) : Proper (MultipartPart.ofField name v) := by
  unfold MultipartPart.ofField
  split
  case h_1 file =>
    split
    · refine Within.bind ?_ fun _ => .ok _
      unfold MultipartPart.fileData
      split
      · cases Base64.decode _ with
        | ok bytes => exact .ok _
        | error e =>
          refine .error (Fault.not_foretold_of_opening ?_)
          rw [String.append_assoc, String.append_assoc, Text.opening_append (by decide)]
          decide
      · exact .ok _
      · exact .ok _
    · exact .ok _
  case h_2 => exact .ok _

theorem proper_mapM {α β : Type} {f : α → Except Fault β} (h : ∀ a, Proper (f a)) (l : List α) :
    Proper (l.mapM f) := by
  induction l with
  | nil => exact .ok _
  | cons a l ih =>
    rw [List.mapM_cons]
    exact (h a).bind fun _ => ih.bind fun _ => .ok _

theorem proper_withEncodedBody (q : Request) (encoding : BodyEncoding) (v : Json) :
    Proper (q.withEncodedBody encoding v) := by
  cases encoding with
  | json | raw => exact .ok _
  | form =>
    refine Within.bind ?_ fun _ => .ok _
    cases v with
    | obj fields => exact .ok _
    | _ =>
      refine .error (Fault.not_foretold_of_opening ?_)
      rw [Text.opening_append (by decide)]
      decide
  | multipart =>
    refine Within.bind ?_ fun _ => .ok _
    cases v with
    | obj fields => exact proper_mapM (fun f => proper_ofField f.1 f.2) fields
    | _ => exact .error (Fault.not_foretold_of_opening (by decide))

theorem proper_withPayload (q : Request) : Proper (r.withPayload d scope body q) := by
  rw [withPayload]
  split
  · exact proper_graphqlCall.bind fun _ => .ok _
  · split
    · split
      · exact proper_withEncodedBody _ _ _
      · exact .ok _
    · exact .ok _

theorem proper_resolve : Proper (r.resolve d g scope body) :=
  (proper_build _).bind fun _ => (proper_withPayload _).bind fun _ => .ok _

end Resolver

/-! ### Actions -/

namespace Action

/-- Those whom a dispatch asks and whose faults it passes on. -/
inductive Collaborator where
  | transport
  | devices
  | scripts
  | host
deriving DecidableEq, Repr

/-- What a question of an action can be answered with. Requests go through an executor, streams are
opened by the subscription manager, and who is trusted does not report a foretold fault. -/
def Answered (trusts : Collaborator → Prop) (x : Executor) : Happening interface → Prop
  | ⟨.execute r expected, result⟩ => ∃ history, (x.execute r expected).Ends history result ∧
      (trusts .transport → ∀ e ∈ history, Executor.Answered e)
  | ⟨.openStream r _, result⟩ =>
    ∀ f, result = .error f → ∃ id settings, Subscription.graphql r id settings = .error f
  | ⟨.device .., result⟩ => trusts .devices → Proper result
  | ⟨.evaluate .., result⟩ => trusts .scripts → Proper result
  | ⟨.host _, result⟩ => trusts .host → Proper result
  | _ => True

namespace Situation

open Process (promises_done promises_ask promises_after promises_then)

variable {s : Situation} {x : Executor} {A : Happening interface → Prop}

/-- Either no data source is called, or one that the screen or the registry has. -/
def HasSource (s : Situation) : Prop :=
  match s.spec.dataSourceId with
  | none => s.spec.action.needsDataSource = false
  | some id => ∃ d, s.dispatcher.registry.find s.invocation.own id = .ok d

theorem proper_missing (s : Situation) {what : String} (long : 3 ≤ what.toList.length)
    (ends : Text.ending what ≠ ['d', 'I', 'e']) : ¬ (s.missing what).Foretold := by
  refine Fault.not_foretold_of_ending (k := s.spec.action) ?_ ?_
  · rw [String.append_assoc]
    exact Text.opening_append s.spec.action.name_long _
  · exact fun same => ends ((Text.ending_append _ long).symm.trans same)

theorem proper_requireText {keys : List String} {what : String} (long : 3 ≤ what.toList.length)
    (ends : Text.ending what ≠ ['d', 'I', 'e']) :
    (s.requireText keys what).Promises A Proper := by
  refine promises_after fun text => ?_
  split
  · exact promises_done (.ok _)
  · exact promises_done (.error (s.proper_missing long ends))

/-- The action calls a data source. -/
def Calls (s : Situation) : Prop :=
  s.spec.action.needsDataSource = true ∨ s.spec.dataSourceId.isSome = true

theorem proper_request (has : s.HasSource) (calls : s.Calls) (body : Option Json) :
    (s.request body).Promises A Proper := by
  unfold HasSource at has
  unfold request
  cases named : s.spec.dataSourceId with
  | none =>
    rw [named] at has
    rcases calls with needs | there
    · exact absurd (has.symm.trans needs) Bool.false_ne_true
    · simp [named] at there
  | some id =>
    rw [named] at has
    obtain ⟨d, found⟩ := has
    dsimp only
    rw [found]
    exact promises_after fun _ => promises_after fun _ => promises_done Resolver.proper_resolve

variable {trusts : Collaborator → Prop}

theorem proper_send (sent : trusts .transport) (has : s.HasSource) (calls : s.Calls)
    (body : Option Json) : (s.send body).Promises (Answered trusts x) Proper := by
  refine promises_then (proper_request has calls body) (fun _ => rfl) fun r => ?_
  refine promises_then (promises_ask fun result answered => promises_done ?_) (fun _ => rfl)
    fun response => ?_
  · obtain ⟨history, ends, clean⟩ := answered
    exact Executor.proper_of_run ends (clean sent)
  · dsimp only
    split <;> exact promises_done (.ok _)

theorem proper_subscribe (has : s.HasSource) (calls : s.Calls) :
    s.subscribe.Promises (Answered trusts x) Proper := by
  unfold subscribe
  split
  · exact promises_done (.error nofun)
  · refine promises_after fun vars => ?_
    refine promises_then (proper_request has calls vars) (fun _ => rfl) fun r => ?_
    refine promises_after fun target => ?_
    refine promises_then (promises_ask fun result answered => promises_done ?_) (fun _ => rfl)
      fun id => promises_done (.ok _)
    rintro f rfl
    obtain ⟨id, settings, refused⟩ := answered f rfl
    rw [Subscription.graphql] at refused
    split at refused
    · obtain rfl := Except.error.inj refused
      exact Resolver.about_source r.dataSourceId "' has no subscription document"
    · cases refused

theorem proper_exportFile (hosted : trusts .host) (filename contentType content : String) (rows : Nat) :
    (exportFile filename contentType content rows).Promises (Answered trusts x) Proper := by
  refine promises_then (promises_ask fun result answered => promises_done (answered hosted))
    (fun _ => rfl) fun _ => promises_done (.ok _)

theorem proper_exportJson (hosted : trusts .host) :
    s.exportJson.Promises (Answered trusts x) Proper := by
  refine promises_after fun data => ?_
  split
  · exact promises_done (.error (s.proper_missing (by decide) (by decide)))
  · exact promises_after fun _ => proper_exportFile hosted _ _ _ _

theorem proper_exportCsv (hosted : trusts .host) :
    s.exportCsv.Promises (Answered trusts x) Proper := by
  refine promises_after fun data => ?_
  split
  · exact promises_done (.error (s.proper_missing (by decide) (by decide)))
  · refine promises_after fun _ => ?_
    split
    · exact promises_after fun _ => proper_exportFile hosted _ _ _ _
    · exact promises_done
        (.error (Fault.not_foretold_of_ending (k := .exportCsv) (by decide) (by decide)))

/-- **An action that has its data source comes to no foretold fault**, if nobody whom it asks reports
one. -/
theorem proper_of_perform (has : s.HasSource) :
    s.perform.Promises (Answered (fun _ => True) x) Proper := by
  have texts {keys : List String} {what : String} (long : 3 ≤ what.toList.length)
      (ends : Text.ending what ≠ ['d', 'I', 'e'])
      {k : Except Fault String → Operation (Except Fault Json)}
      (passes : ∀ f, k (.error f) = pure (.error f))
      (good : ∀ a, (k (.ok a)).Promises (Answered (fun _ => True) x) Proper) :
      (s.requireText keys what >>= k).Promises (Answered (fun _ => True) x) Proper :=
    promises_then (proper_requireText long ends) passes good
  unfold perform
  cases kind : s.spec.action with
  | navigation =>
    refine texts (by decide) (by decide) (fun _ => rfl) fun href => ?_
    exact promises_after fun _ => promises_after fun _ => promises_done (.ok _)
  | openModal | closeModal =>
    refine texts (by decide) (by decide) (fun _ => rfl) fun id => ?_
    exact promises_after fun _ => promises_done (.ok _)
  | toast =>
    refine texts (by decide) (by decide) (fun _ => rfl) fun message => ?_
    exact promises_after fun _ => promises_after fun _ => promises_done (.ok _)
  | updateState =>
    refine texts (by decide) (by decide) (fun _ => rfl) fun path => ?_
    exact promises_after fun _ => promises_after fun _ => promises_done (.ok _)
  | runScript =>
    dsimp only
    unfold runScript
    split
    · exact promises_done (.error (s.proper_missing (by decide) (by decide)))
    · refine promises_after fun scope => ?_
      refine promises_then (promises_ask fun result answered => promises_done (answered trivial))
        (fun _ => rfl) fun value => ?_
      refine promises_after fun path => ?_
      cases path with
      | some path => exact promises_after fun _ => promises_done (.ok value)
      | none => exact promises_done (.ok value)
  | auditLog =>
    dsimp only
    refine promises_after fun params => promises_after fun event => promises_after fun _ => ?_
    split
    case isTrue named => exact proper_send trivial has (.inr named) _
    case isFalse => exact promises_done (.ok _)
  | graphqlSubscription => exact proper_subscribe has (.inl (by rw [kind]; rfl))
  | exportCsv => exact proper_exportCsv trivial
  | exportJson => exact proper_exportJson trivial
  | voiceCommand | initiateCall | walletConnect | walletSign =>
    exact promises_after fun params =>
      promises_ask fun result answered => promises_done (answered trivial)
  | _ => exact promises_after fun body => proper_send trivial has (.inl (by rw [kind]; rfl)) body

end Situation

end Action

end ScreenFlow
