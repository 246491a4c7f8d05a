import ScreenFlow.Proofs.Dispatch.Cancelling
import ScreenFlow.Proofs.Dispatch.Substitution

/-!
# What becomes of a reply

A reply of success decides what the action comes to that made the call. The handler maps the value,
writes it to the state and confirms it. That a request was queued instead is told by a mark in the
same value.

* `Situation.value_of_repliedTo`: an action comes to what the reply to its request says;
* `Succession`, `succession_of_succeed`: what a handler does with the value;
* `received_bound_iff`: a reply is written and confirmed exactly if it does not bear the mark;
* `not_bindsReceived`: one that bears it is dropped.
-/

namespace ScreenFlow

/-! ### The value of a reply -/

/-- The value that a reply of success is taken for. -/
def Reply.value (reply : Reply) (graphql : Bool) (expected : Option ResponseType) :
    Except Fault Json :=
  (if graphql then GraphqlCall.openBody (reply.decode expected)
    else .ok (reply.decode expected)).map ResponseBody.toValue

/-- What an action makes of a response. -/
def Response.told (r : Response) : Json := (r.queued.map Result.queued).getD r.value

theorem Reply.told_of_success {reply : Reply} {graphql : Bool} {expected : Option ResponseType}
    (success : isSuccessStatus reply.status = true) :
    (reply.toResponse graphql expected).map Response.told = reply.value graphql expected := by
  rw [toResponse, if_neg (by simp [success]), value]
  cases graphql with
  | false => rfl
  | true =>
    simp only [↓reduceIte]
    cases GraphqlCall.openBody (reply.decode expected) <;> rfl

/-! ### What an action comes to -/

/-- No kind of action makes a GraphQL source of one that is none. -/
theorem DataSource.isGraphql_forAction (d : DataSource) (k : ActionKind) :
    (d.forAction k).isGraphql = d.isGraphql := by
  cases hm : d.method <;> cases hq : d.query <;> cases k <;>
    simp [forAction, isGraphql, ActionKind.crudMethod?, hm, hq]

/-- The shape in which a handler wants the body of a response. -/
def ActionSpec.wanted (s : ActionSpec) : Option ResponseType := s.response.bind (·.responseType)

namespace Action

variable {history acting : List (Happening interface)} {q : Request}
  {expected : Option ResponseType} {outcome : Except Fault Response}

theorem mem_executed (h : (⟨.execute q expected, outcome⟩ : Happening interface) ∈ history) :
    q ∈ executed history :=
  List.mem_filterMap.mpr ⟨_, h, rfl⟩

/-- A request that was executed here was answered with this reply. -/
def RepliedTo (acting : List (Happening interface)) (q : Request) (reply : Reply) : Prop :=
  ∃ (x : Executor) (expected : Option ResponseType) (outcome : Except Fault Response)
    (sending : List (Happening Executor.interface)),
    (⟨.execute q expected, outcome⟩ : Happening interface) ∈ acting ∧
      (x.execute q expected).Ends sending outcome ∧ reply ∈ Executor.replies sending

namespace Situation

variable {s : Situation} {body : Option Json} {came : Except Fault Json} {reply : Reply}

theorem value_of_send (h : (s.send body).Ends acting came)
    (executes : (⟨.execute q expected, outcome⟩ : Happening interface) ∈ acting) :
    expected = s.spec.wanted ∧ came = outcome.map Response.told := by
  obtain ⟨first, r, rest, rfl, hfirst, hrest⟩ := Process.ends_bind_iff.mp h
  have late : (⟨.execute q expected, outcome⟩ : Happening interface) ∈ rest := by
    refine (List.mem_append.mp executes).resolve_left fun early => ?_
    have here := mem_executed early
    rw [(idle_request body).executed hfirst] at here
    cases here
  cases r with
  | error f =>
    obtain ⟨rfl, -⟩ := Process.ends_done_iff.mp hrest
    cases late
  | ok q₀ =>
    obtain ⟨answer, after, rfl, answered⟩ := Process.ends_ask_iff.mp hrest
    cases answer with
    | error f =>
      obtain ⟨rfl, rfl⟩ := Process.ends_done_iff.mp answered
      cases List.mem_singleton.mp late
      exact ⟨rfl, rfl⟩
    | ok response =>
      rw [Process.done_bind] at answered
      cases waits : response.queued with
      | some id =>
        simp only [waits] at answered
        obtain ⟨rfl, rfl⟩ := Process.ends_done_iff.mp answered
        cases List.mem_singleton.mp late
        refine ⟨rfl, ?_⟩
        simp [Except.map, Response.told, waits]
      | none =>
        simp only [waits] at answered
        obtain ⟨rfl, rfl⟩ := Process.ends_done_iff.mp answered
        cases List.mem_singleton.mp late
        refine ⟨rfl, ?_⟩
        simp [Except.map, Response.told, waits]

/-- What its request came to is what an action comes to. -/
theorem value_of_perform (h : s.perform.Ends acting came)
    (executes : (⟨.execute q expected, outcome⟩ : Happening interface) ∈ acting) :
    expected = s.spec.wanted ∧ came = outcome.map Response.told := by
  have hq := mem_executed executes
  obtain ⟨before, body, rest, rfl, made, sends⟩ := sends_of_perform (sends_of_executed h hq) h hq
  refine value_of_send sends ((List.mem_append.mp executes).resolve_left fun early => ?_)
  have here := mem_executed early
  rw [made.idle] at here
  cases here

/-- An action whose request was answered with success has the value of the reply. -/
theorem value_of_repliedTo (h : s.perform.Ends acting came)
    (success : isSuccessStatus reply.status = true) (answered : RepliedTo acting q reply) :
    came = reply.value q.graphql.isSome s.spec.wanted := by
  obtain ⟨x, expected, outcome, sending, executes, sends, replied⟩ := answered
  obtain ⟨rfl, rfl⟩ := value_of_perform h executes
  rw [Executor.returns_of_replied success sends replied, Reply.told_of_success success]

/-- The request is a GraphQL call exactly if the source of the action is a GraphQL one. -/
theorem graphql_of_repliedTo (h : s.perform.Ends acting came)
    (answered : RepliedTo acting q reply) :
    ∃ id source, s.spec.dataSourceId = some id ∧
      s.dispatcher.registry.find s.invocation.own id = .ok source ∧
      q.graphql.isSome = source.isGraphql := by
  obtain ⟨x, expected, outcome, sending, executes, -, -⟩ := answered
  have hq := mem_executed executes
  obtain ⟨source, live, first, second, -, ⟨id, named, found⟩, -, resolved⟩ :=
    resolves_of_perform (sends_of_executed h hq) h hq
  exact ⟨id, source, named, found,
    (Resolver.isSome_graphql_resolve resolved).trans (source.isGraphql_forAction _)⟩

/-- An action that sends no body, where its request is answered at once. -/
theorem ends_of_resolve (plain : s.perform = s.send none) {id : String} (source : DataSource)
    (named : s.spec.dataSourceId = some id)
    (found : s.dispatcher.registry.find s.invocation.own id = .ok source) {state : Json}
    {live : Option String}
    (resolves : (⟨s.dispatcher.translate, live⟩ : Resolver).resolve
      (source.forAction s.spec.action) s.dispatcher.defaults (s.context.scope state) none = .ok q)
    (response : Response) :
    s.perform.Ends [⟨.snapshot, state⟩, ⟨.token, live⟩, ⟨.execute q s.spec.wanted, .ok response⟩]
      (.ok response.told) := by
  have request : (s.request none).Ends [⟨.snapshot, state⟩, ⟨.token, live⟩] (.ok q) := by
    rw [← resolves]
    simp only [request, named, found]
    exact .asked _ (.asked _ (.done _))
  rw [plain]
  refine Process.ends_bind_iff.mpr ⟨_, _, [⟨.execute q s.spec.wanted, .ok response⟩], rfl, request,
    .asked _ ?_⟩
  rw [Process.done_bind, Response.told]
  dsimp only
  cases response.queued <;> exact .done _

end Situation

end Action

/-! ### What a handler does with the value -/

/-- What a mapping can make of a value. What a script makes of it is up to the script. -/
inductive ResultMapping.Maps : Option ResultMapping → Json → Json → Prop
  | none (v : Json) : Maps none v v
  | paths (ps : List (String × String)) (v : Json) : Maps (some (.paths ps)) v (Result.pick ps v)
  | script (script : String) (v mapped : Json) : Maps (some (.script script)) v mapped

/-- What a response makes of a value where no script is asked. -/
def ResponseHandling.picked (response : ResponseHandling) (v : Json) : Json :=
  match response.mapping with
  | some (.paths ps) => Result.pick ps v
  | _ => v

theorem ResponseHandling.picked_of_maps {response : ResponseHandling} {v mapped : Json}
    (unscripted : ∀ script, response.mapping ≠ some (.script script))
    (maps : ResultMapping.Maps response.mapping v mapped) : mapped = response.picked v := by
  unfold picked
  cases mapping : response.mapping with
  | none =>
    rw [mapping] at maps
    cases maps
    rfl
  | some m =>
    cases m with
    | script script => exact absurd mapping (unscripted script)
    | paths ps =>
      rw [mapping] at maps
      cases maps
      rfl

namespace Dispatch

variable {d : Dispatcher} {i : Invocation} {c c' : Context} {depth : Nat} {spec : ActionSpec}
  {v mapped : Json} {history : List (Happening interface)}

/-- What was written to the state, in order. -/
def written (history : List (Happening interface)) : List (String × Json) :=
  history.filterMap fun
    | ⟨.setState path value, _⟩ => some (path, value)
    | _ => none

/-- The successes that the user was told of, in order. -/
def confirmed (history : List (Happening interface)) : List String :=
  history.filterMap fun
    | ⟨.host (.toast message .success), _⟩ => some message
    | _ => none

@[simp] theorem written_append (first rest : List (Happening interface)) :
    written (first ++ rest) = written first ++ written rest := List.filterMap_append

@[simp] theorem confirmed_append (first rest : List (Happening interface)) :
    confirmed (first ++ rest) = confirmed first ++ confirmed rest := List.filterMap_append

/-- Neither the state nor the user is told of a success. -/
structure Unseen (history : List (Happening interface)) : Prop where
  written : written history = []
  confirmed : confirmed history = []

theorem ends_scope_iff {w : Json} : (scope c).Ends history w ↔
    ∃ state, history = [⟨.snapshot, state⟩] ∧ w = c.scope state := by
  rw [show scope c = .ask .snapshot fun state => .done (c.scope state) from rfl,
    Process.ends_ask_iff]
  constructor
  · rintro ⟨state, rest, rfl, closed⟩
    obtain ⟨rfl, rfl⟩ := Process.ends_done_iff.mp closed
    exact ⟨state, rfl, rfl⟩
  · rintro ⟨state, rfl, rfl⟩
    exact ⟨state, [], rfl, .done _⟩

theorem ends_host_iff {call : Option HostCall} {u : Unit} :
    (host call).Ends history u ↔ history = call.toList.map fun call => ⟨.host call, ()⟩ := by
  cases call with
  | none => exact Process.ends_done_iff.trans (and_iff_left rfl)
  | some call =>
    rw [show host (some call) = .ask (.host call) .done from rfl, Process.ends_ask_iff]
    constructor
    · rintro ⟨_, rest, rfl, closed⟩
      obtain ⟨rfl, -⟩ := Process.ends_done_iff.mp closed
      rfl
    · rintro rfl
      exact ⟨(), [], rfl, .done _⟩

theorem maps_of_mapResult {m : Option ResultMapping} (h : (mapResult m v).Ends history mapped) :
    ResultMapping.Maps m v mapped ∧ Unseen history := by
  match m with
  | none =>
    obtain ⟨rfl, rfl⟩ := Process.ends_done_iff.mp h
    exact ⟨.none mapped, rfl, rfl⟩
  | some (.paths ps) =>
    obtain ⟨rfl, rfl⟩ := Process.ends_done_iff.mp h
    exact ⟨.paths ps v, rfl, rfl⟩
  | some (.script script) =>
    obtain ⟨state, rest, rfl, looked⟩ := Process.ends_ask_iff.mp h
    obtain ⟨came, rest, rfl, evaluated⟩ := Process.ends_ask_iff.mp looked
    have closed : rest = [] := by
      cases came with
      | ok w => exact (Process.ends_done_iff.mp evaluated).1
      | error f => exact (Process.ends_done_iff.mp evaluated).1
    subst closed
    exact ⟨.script script v mapped, rfl, rfl⟩

/-- Where a result goes in this state. -/
def place (d : Dispatcher) (c : Context) (template : String) (state : Json) : String :=
  Result.targetPath (d.fillText (c.scope state) template) c.event? (c.scope state)

/-- The result is written to its place in a state that was looked at, and nothing else is written. -/
def BoundAt (d : Dispatcher) (c : Context) (template : String) (mapped : Json)
    (history : List (Happening interface)) : Prop :=
  ∃ state, (⟨.snapshot, state⟩ : Happening interface) ∈ history ∧
    written history = [(place d c template state, mapped)]

/-- The value is left as it is: there is nothing to do with it, or it bears the mark of the queue. -/
def Skips (spec : ActionSpec) (v : Json) : Prop :=
  spec.response = none ∨ spec.action = .graphqlSubscription ∨ Result.isQueued v = true

theorem bindResult_skips (skips : Skips spec v) : bindResult d spec c v = .done v := by
  unfold bindResult
  cases handles : spec.response with
  | none => rfl
  | some response =>
    refine if_pos ?_
    rcases skips with none | streams | marked
    · rw [none] at handles
      cases handles
    · simp [streams]
    · simp [marked]

/-- What a handler makes of a value, and what it writes of it. -/
structure Binds (d : Dispatcher) (c : Context) (response : ResponseHandling) (v mapped : Json)
    (history : List (Happening interface)) : Prop where
  maps : ResultMapping.Maps response.mapping v mapped
  confirmed : confirmed history = []
  placed : ∀ template, response.statePath = some template → BoundAt d c template mapped history

theorem binds_of_bindResult {response : ResponseHandling} (handles : spec.response = some response)
    (acts : ¬ Skips spec v) (h : (bindResult d spec c v).Ends history mapped) :
    Binds d c response v mapped history := by
  have goes : ¬ (spec.action == .graphqlSubscription || Result.isQueued v) = true := by
    simp only [Bool.or_eq_true, beq_iff_eq]
    exact fun skips => acts (.inr skips)
  simp only [bindResult, handles, if_neg goes] at h
  obtain ⟨mapping, w, rest, rfl, hmapping, hrest⟩ := Process.ends_bind_iff.mp h
  obtain ⟨maps, unseen⟩ := maps_of_mapResult hmapping
  cases path : response.statePath with
  | none =>
    rw [path] at hrest
    obtain ⟨rfl, rfl⟩ := Process.ends_done_iff.mp hrest
    rw [List.append_nil]
    exact ⟨maps, unseen.confirmed, fun template same => by cases path.symm.trans same⟩
  | some template =>
    rw [path] at hrest
    obtain ⟨looking, _, rest, rfl, hlooking, hrest⟩ := Process.ends_bind_iff.mp hrest
    obtain ⟨state, rfl, rfl⟩ := ends_scope_iff.mp hlooking
    obtain ⟨_, rest, rfl, wrote⟩ := Process.ends_ask_iff.mp hrest
    obtain ⟨rfl, rfl⟩ := Process.ends_done_iff.mp wrote
    refine ⟨maps, ?_, fun template' same => ⟨state, by simp, ?_⟩⟩
    · rw [confirmed_append, unseen.confirmed]
      rfl
    · obtain rfl := Option.some.inj (path.symm.trans same)
      rw [written_append, unseen.written]
      rfl

theorem unseen_of_updateSession {u : Unit} (h : (updateSession d i spec v).Ends history u) :
    Unseen history := by
  have navigates {call : Option HostCall} {rest : List (Happening interface)} {u : Unit}
      (h : (host call).Ends rest u) (other : ∀ m variant, call ≠ some (.toast m variant)) :
      Unseen rest := by
    rw [ends_host_iff.mp h]
    cases call with
    | none => exact ⟨rfl, rfl⟩
    | some call =>
      cases call with
      | toast m variant => exact absurd rfl (other m variant)
      | _ => exact ⟨rfl, rfl⟩
  unfold updateSession at h
  split at h
  · obtain ⟨rfl, -⟩ := Process.ends_done_iff.mp h
    exact ⟨rfl, rfl⟩
  split at h
  · obtain ⟨rfl, -⟩ := Process.ends_done_iff.mp h
    exact ⟨rfl, rfl⟩
  · obtain ⟨_, rest, rfl, after⟩ := Process.ends_ask_iff.mp h
    obtain ⟨unwritten, unconfirmed⟩ := navigates after (by simp)
    exact ⟨unwritten, unconfirmed⟩
  · split at h
    · obtain ⟨rfl, -⟩ := Process.ends_done_iff.mp h
      exact ⟨rfl, rfl⟩
    · obtain ⟨begun, rest, rfl, after⟩ := Process.ends_ask_iff.mp h
      cases begun with
      | true =>
        obtain ⟨unwritten, unconfirmed⟩ := navigates after (by simp)
        exact ⟨unwritten, unconfirmed⟩
      | false =>
        obtain ⟨rfl, -⟩ := Process.ends_done_iff.mp after
        exact ⟨rfl, rfl⟩

/-- Tells the user of a success. -/
def confirm (d : Dispatcher) (spec : ActionSpec) (c : Context) (v : Json) : Operation Unit := do
  let message ← confirmation d spec c v
  host (message.map fun m => .toast m .success)

/-- Without a message of its own a handler tells its kind's, unless the value bears the mark. -/
theorem confirmed_of_confirm {u : Unit} (h : (confirm d spec c v).Ends history u) :
    written history = [] ∧ (spec.successMessage = none → confirmed history =
      if Result.isQueued v then [] else spec.action.successMessage?.toList) := by
  obtain ⟨asking, message, rest, rfl, hasking, hrest⟩ := Process.ends_bind_iff.mp h
  rw [ends_host_iff.mp hrest]
  unfold confirmation at hasking
  cases own : spec.successMessage with
  | none =>
    rw [own] at hasking
    obtain ⟨rfl, rfl⟩ := Process.ends_done_iff.mp hasking
    cases Result.isQueued v with
    | true => exact ⟨rfl, fun _ => rfl⟩
    | false => cases spec.action.successMessage? <;> exact ⟨rfl, fun _ => rfl⟩
  | some template =>
    rw [own] at hasking
    obtain ⟨looking, _, closing, rfl, hlooking, hclosing⟩ := Process.ends_bind_iff.mp hasking
    obtain ⟨state, rfl, rfl⟩ := ends_scope_iff.mp hlooking
    obtain ⟨rfl, rfl⟩ := Process.ends_done_iff.mp hclosing
    exact ⟨rfl, fun none => by cases none⟩

/-- What a handler does with a value, one thing after the other. -/
structure Succession (d : Dispatcher) (i : Invocation) (spec : ActionSpec) (c : Context)
    (v mapped : Json) (binding signing telling : List (Happening interface)) : Prop where
  binds : (bindResult d spec c v).Ends binding mapped
  signs : (updateSession d i spec mapped).Ends signing ()
  tells : (confirm d spec (c.set "result" mapped) mapped).Ends telling ()

theorem succession_of_succeed (h : (succeed d i spec c v).Ends history (mapped, c')) :
    ∃ binding signing telling, history = binding ++ (signing ++ telling) ∧
      Succession d i spec c v mapped binding signing telling := by
  obtain ⟨binding, w, rest, rfl, hbinding, hrest⟩ := Process.ends_bind_iff.mp h
  obtain ⟨signing, ⟨⟩, rest, rfl, hsigning, hrest⟩ := Process.ends_bind_iff.mp hrest
  obtain ⟨asking, message, rest, rfl, hasking, hrest⟩ := Process.ends_bind_iff.mp hrest
  obtain ⟨saying, ⟨⟩, rest, rfl, hsaying, hrest⟩ := Process.ends_bind_iff.mp hrest
  obtain ⟨rfl, same⟩ := Process.ends_done_iff.mp hrest
  obtain rfl : mapped = w := congrArg Prod.fst same
  refine ⟨binding, signing, asking ++ saying, by rw [List.append_nil], hbinding, hsigning, ?_⟩
  exact Process.ends_bind_iff.mpr ⟨asking, message, saying, rfl, hasking, hsaying⟩

/-! ### Replies -/

/-- The main action of a handler executed a request that was answered with this reply of success, and
the handler took what came of it. `first` happened up to then, and `rest` after it. -/
structure Received (d : Dispatcher) (i : Invocation) (c : Context) (depth : Nat) (h : EventHandler)
    (reply : Reply) (first rest : List (Happening interface)) (r : Run) : Prop where
  success : isSuccessStatus reply.status = true
  runs : (run d i c depth h).Ends (first ++ rest) r
  acts : ∃ visited came acting q,
    (opening d i c depth h.spec h.before).Ends first (visited, came) ∧
      (Action.Situation.mk d i h.spec c).perform.Ends acting came ∧ Action.RepliedTo acting q reply

variable {h : EventHandler} {reply : Reply} {first rest : List (Happening interface)} {r : Run}

/-- A handler asks something before its main action has come out. -/
theorem opening_asks {before : List EventHandler} {result : List Phase × Except Fault Json} :
    ¬ (opening d i c depth spec before).Ends [] result := by
  intro ends
  have closed := Process.ends_nil_iff.mp ends
  unfold opening at closed
  cases before with
  | nil =>
    rw [runAll] at closed
    cases patches : spec.optimistic with
    | nil =>
      rw [patches] at closed
      cases closed
    | cons p ps =>
      rw [patches] at closed
      cases closed
  | cons h hs =>
    rw [runAll] at closed
    cases closed

/-- A handler that is too deep asks nothing at all. -/
theorem Received.fits (received : Received d i c depth h reply first rest r) :
    depth ≤ d.settings.maxDepth := by
  obtain ⟨-, runs, visited, came, acting, q, opens, -, -⟩ := received
  by_contra deep
  obtain ⟨spec, before, success, error, finally_⟩ := h
  rw [run, if_pos (Nat.lt_of_not_le deep)] at runs
  obtain ⟨nothing, -⟩ := Process.ends_done_iff.mp runs
  obtain ⟨rfl, -⟩ := List.append_eq_nil_iff.mp nothing
  exact opening_asks opens

/-- The handler goes on with the value of the reply. -/
theorem Received.concludes (received : Received d i c depth h reply first rest r) :
    ∃ id source visited, h.spec.dataSourceId = some id ∧ d.registry.find i.own id = .ok source ∧
      (conclude d i c depth h.spec h.success h.error h.finally_
        (visited, reply.value source.isGraphql h.spec.wanted)).Ends rest r := by
  have fits := received.fits
  obtain ⟨success, runs, visited, came, acting, q, opens, performs, answered⟩ := received
  obtain ⟨id, source, named, found, graphql⟩ :=
    Action.Situation.graphql_of_repliedTo performs answered
  have value := Action.Situation.value_of_repliedTo performs success answered
  rw [graphql] at value
  refine ⟨id, source, visited, named, found, ?_⟩
  obtain ⟨spec, before, success, error, finally_⟩ := h
  rw [run_node fits] at runs
  have stands : (opening d i c depth spec before >>= conclude d i c depth spec success error
      finally_).Comes first (conclude d i c depth spec success error finally_ (visited, came)) :=
    (Process.comes_done_iff.mpr opens).bind _
  rw [← value]
  exact stands.ends_iff.mp runs

/-- A value is worked on first of all. -/
theorem succeeds_of_conclude {visited : List Phase} {success error finally_ : List EventHandler}
    (ends : (conclude d i c depth spec success error finally_ (visited, .ok v)).Ends rest r) :
    ∃ own later mapped c', rest = own ++ later ∧ (succeed d i spec c v).Ends own (mapped, c') := by
  obtain ⟨own, ⟨mapped, c'⟩, later, rfl, succeeds, -⟩ := Process.ends_bind_iff.mp ends
  exact ⟨own, later, mapped, c', rfl, succeeds⟩

/-- The value of a reply from a source that is no GraphQL one. -/
def body (reply : Reply) (response : ResponseHandling) : Json :=
  (reply.decode response.responseType).toValue

/-- What a handler does with a reply is what it does with this value, `own` first of all. -/
def Works (d : Dispatcher) (i : Invocation) (c : Context) (spec : ActionSpec) (v : Json)
    (rest own : List (Happening interface)) : Prop :=
  ∃ mapped c', own <+: rest ∧ (succeed d i spec c v).Ends own (mapped, c')

theorem bound_of_works {response : ResponseHandling} {template : String}
    (handles : spec.response = some response) (path : response.statePath = some template)
    (unscripted : ∀ script, response.mapping ≠ some (.script script))
    (streams : spec.action ≠ .graphqlSubscription) {own : List (Happening interface)}
    (works : Works d i c spec v rest own) :
    (BoundAt d c template (response.picked v) own ↔ Result.isQueued v = false) ∧
      ∀ message, spec.successMessage = none → spec.action.successMessage? = some message →
        (confirmed own = [message] ↔
          Result.isQueued v = false ∧ Result.isQueued (response.picked v) = false) := by
  obtain ⟨mapped, c', -, succeeds⟩ := works
  obtain ⟨binding, signing, telling, rfl, binds, signs, tells⟩ := succession_of_succeed succeeds
  obtain ⟨unsigned, unannounced⟩ := unseen_of_updateSession signs
  obtain ⟨untold, told⟩ := confirmed_of_confirm tells
  -- The mark is looked for twice: before the mapping, and in what the mapping has picked.
  cases marked : Result.isQueued v with
  | true =>
    rw [bindResult_skips (.inr (.inr marked))] at binds
    obtain ⟨rfl, rfl⟩ := Process.ends_done_iff.mp binds
    refine ⟨iff_of_false ?_ (by simp), fun message plain default => iff_of_false ?_ (by simp)⟩
    · rintro ⟨state, -, wrote⟩
      simp [unsigned, untold] at wrote
    · simp [unannounced, told plain, marked]
  | false =>
    have acts : ¬ Skips spec v := by simp [Skips, handles, streams, marked]
    obtain ⟨maps, unconfirmed, placed⟩ := binds_of_bindResult handles acts binds
    obtain rfl := response.picked_of_maps unscripted maps
    refine ⟨iff_of_true ?_ rfl, fun message plain default => ?_⟩
    · obtain ⟨state, looked, wrote⟩ := placed template path
      refine ⟨state, List.mem_append_left _ looked, ?_⟩
      simp [unsigned, untold, wrote]
    · simp only [confirmed_append, unconfirmed, unannounced, told plain, default, List.nil_append,
        Option.toList_some, true_and]
      cases Result.isQueued (response.picked v) <;> simp

/-- A reply of success to a request of a handler with a place for it is written there exactly if its
value does not bear the mark of a queued request, and the handler's kind confirms it exactly if what
was picked from the value does not bear the mark either. -/
theorem received_bound_iff (d : Dispatcher) (i : Invocation) (c : Context) (depth : Nat)
    (h : EventHandler) (kind : h.spec.action = .apiCall ∨ h.spec.action.isCrud = true)
    (plain : ∀ id source, h.spec.dataSourceId = some id → d.registry.find i.own id = .ok source →
      source.isGraphql = false)
    (response : ResponseHandling) (handles : h.spec.response = some response) (template : String)
    (path : response.statePath = some template)
    (unscripted : ∀ script, response.mapping ≠ some (.script script)) (reply : Reply)
    (first rest : List (Happening interface)) (r : Run)
    (received : Received d i c depth h reply first rest r) :
    ∃ own, Works d i c h.spec (body reply response) rest own ∧
      (BoundAt d c template (response.picked (body reply response)) own ↔
        Result.isQueued (body reply response) = false) ∧
      ∀ message, h.spec.successMessage = none → h.spec.action.successMessage? = some message →
        (confirmed own = [message] ↔ Result.isQueued (body reply response) = false ∧
          Result.isQueued (response.picked (body reply response)) = false) := by
  have streams : h.spec.action ≠ .graphqlSubscription := by
    intro streams
    simp [streams, ActionKind.isCrud] at kind
  obtain ⟨id, source, visited, named, found, concludes⟩ := received.concludes
  have value : reply.value source.isGraphql h.spec.wanted = .ok (body reply response) := by
    rw [plain id source named found, ActionSpec.wanted, handles]
    rfl
  rw [value] at concludes
  obtain ⟨own, later, mapped, c', rfl, succeeds⟩ := succeeds_of_conclude concludes
  have works : Works d i c h.spec (body reply response) (own ++ later) own :=
    ⟨mapped, c', List.prefix_append own later, succeeds⟩
  exact ⟨own, works, bound_of_works handles path unscripted streams works⟩

/-- A handler that saves something and keeps the answer. -/
def saving : EventHandler :=
  .node { action := .crudCreate, dataSourceId := some "notes",
          response := some { statePath := some "saved" } } [] [] [] []

/-- Where it is called from. -/
def page : Invocation := { id := "i", own := [Action.Situation.notes] }

/-- What it sends. -/
def saveRequest : Request where
  dataSourceId := "notes"
  method := .post
  url := "https://a/notes"

/-- A reply of success. -/
def replying (text : String) : Reply where
  status := 200
  body := Utf8.encode text

/-- A request that is answered at once. -/
def exchange (q : Request) (text : String) : List (Happening Executor.interface) :=
  [⟨.cancelled, false⟩, ⟨.cancelled, false⟩, ⟨.send q 30000, some (.replied (replying text))⟩]

/-- What is received if the answer is this value. -/
theorem received_at_once (alone : h.before = [])
    (prompt : h.spec.optimistic = []) {q : Request} {text : String} {live : Option String}
    {state : Json} (reads : (replying text).decode none = .json v)
    (performs : (Action.Situation.mk d i h.spec c).perform.Ends [⟨.snapshot, state⟩,
      ⟨.token, live⟩, ⟨.execute q none, .ok { status := 200, body := .json v }⟩] (.ok v))
    (sends : (({} : Executor).execute q none).Ends (exchange q text)
      ((replying text).toResponse false none))
    (runs : (run d i c 1 h).Ends
      (⟨.cancelled, false⟩ :: ⟨.act h.spec c, .ok v⟩ :: rest) r) :
    Received d i c 1 h (replying text) [⟨.cancelled, false⟩, ⟨.act h.spec c, .ok v⟩] rest r := by
  have comes : (replying text).toResponse false none =
      .ok { status := 200, body := .json v } := by
    rw [Reply.toResponse, reads]
    rfl
  have opens : (opening d i c 1 h.spec h.before).Ends
      [⟨.cancelled, false⟩, ⟨.act h.spec c, .ok v⟩] ([.idle, .executing], .ok v) := by
    rw [alone, opening, runAll, prompt]
    exact .asked _ (.asked _ (.done _))
  exact ⟨rfl, runs, _, _, _, q, opens, performs, {}, none, _, _, List.mem_of_mem_getLast? rfl,
    comes ▸ sends, List.mem_singleton.mpr rfl⟩

theorem received_saving {text : String} (reads : (replying text).decode none = .json v)
    (runs : (run {} page (.ofEvent .null) 1 saving).Ends
      (⟨.cancelled, false⟩ :: ⟨.act saving.spec (.ofEvent .null), .ok v⟩ :: rest) r) :
    Received {} page (.ofEvent .null) 1 saving (replying text)
      [⟨.cancelled, false⟩, ⟨.act saving.spec (.ofEvent .null), .ok v⟩] rest r := by
  have resolves : ({} : Resolver).resolve (Action.Situation.notes.forAction .crudCreate) {}
      ((Context.ofEvent .null).scope .null) none = .ok saveRequest :=
    ok_of_toOption (by decide +kernel)
  have plain : (Action.Situation.mk {} page saving.spec (.ofEvent .null)).perform =
      (Action.Situation.mk {} page saving.spec (.ofEvent .null)).send none := rfl
  have performs := Action.Situation.ends_of_resolve plain Action.Situation.notes rfl rfl resolves
    { status := 200, body := .json v }
  refine received_at_once rfl rfl reads performs ?_ runs
  iterate 3 apply Process.Ends.asked
  exact .done _

/-- Two answers of the server, and their texts. -/
def numbered : Json := .obj [("id", .nat 7)]

def queuedTrue : Json := .obj [("queued", .bool true)]

def numberedText : String := "\x7b\"id\":7\x7d"

def queuedText : String := "\x7b\"queued\":true\x7d"

theorem decode_numbered : (replying numberedText).decode none = .json numbered := by
  decide +kernel

theorem decode_queuedTrue : (replying queuedText).decode none = .json queuedTrue := by
  decide +kernel

/-- What happens after an answer that is kept. -/
def kept : List (Happening interface) :=
  [⟨.snapshot, .null⟩, ⟨.setState "saved" numbered, ()⟩,
    ⟨.host (.toast "Created successfully" .success), ()⟩]

theorem received_numbered : Received {} page (.ofEvent .null) 1 saving (replying numberedText)
    [⟨.cancelled, false⟩, ⟨.act saving.spec (.ofEvent .null), .ok numbered⟩] kept
    ⟨[.idle, .executing, .success, .finally_, .done], .ok numbered⟩ := by
  refine received_saving decode_numbered ?_
  have path : place {} (.ofEvent .null) "saved" .null = "saved" := by decide +kernel
  rw [kept, ← path]
  iterate 5 apply Process.Ends.asked
  exact .done _

theorem received_queuedTrue :
    Received {} page (.ofEvent .null) 1 saving (replying queuedText)
      [⟨.cancelled, false⟩, ⟨.act saving.spec (.ofEvent .null), .ok queuedTrue⟩] []
      ⟨[.idle, .executing, .success, .finally_, .done], .ok queuedTrue⟩ := by
  refine received_saving decode_queuedTrue ?_
  iterate 2 apply Process.Ends.asked
  exact .done _

theorem plain_saving (id : String) (source : DataSource)
    (named : saving.spec.dataSourceId = some id)
    (found : ({} : Dispatcher).registry.find page.own id = .ok source) :
    source.isGraphql = false := by
  obtain rfl := Option.some.inj named
  cases found
  rfl

theorem received_bound_iff_numbered :
    ∃ own, Works {} page (.ofEvent .null) saving.spec numbered kept own ∧
      BoundAt {} (.ofEvent .null) "saved" numbered own ∧
      confirmed own = ["Created successfully"] := by
  have value : body (replying numberedText) { statePath := some "saved" } = numbered :=
    congrArg ResponseBody.toValue decode_numbered
  obtain ⟨own, works, placed, told⟩ := received_bound_iff {} page (.ofEvent .null) 1 saving
    (.inr rfl) plain_saving _ rfl "saved" rfl nofun _ _ _ _ received_numbered
  rw [value] at works placed told
  have unmarked : Result.isQueued numbered = false := by decide
  exact ⟨own, works, placed.mpr unmarked, (told _ rfl rfl).mpr ⟨unmarked, unmarked⟩⟩

/-- What is received is written to its place, and confirmed once. -/
def BindsReceived : Prop :=
  ∀ (d : Dispatcher) (i : Invocation) (c : Context) (depth : Nat) (h : EventHandler)
    (response : ResponseHandling) (template : String) (reply : Reply)
    (first rest : List (Happening interface)) (r : Run),
    h.spec.action = .apiCall ∨ h.spec.action.isCrud = true →
    (∀ id source, h.spec.dataSourceId = some id → d.registry.find i.own id = .ok source →
      source.isGraphql = false) →
    h.spec.response = some response → response.statePath = some template →
    (∀ script, response.mapping ≠ some (.script script)) →
    Received d i c depth h reply first rest r →
    ∃ own, Works d i c h.spec (body reply response) rest own ∧
      BoundAt d c template (response.picked (body reply response)) own ∧
      ∀ message, h.spec.successMessage = none → h.spec.action.successMessage? = some message →
        confirmed own = [message]

/-- An answer of the server that looks like the mark of the queue is dropped. -/
theorem not_bindsReceived : ¬ BindsReceived := by
  intro binds
  obtain ⟨own, ⟨_, _, early, -⟩, ⟨_, -, wrote⟩, -⟩ := binds {} page (.ofEvent .null) 1 saving
    { statePath := some "saved" } "saved" _ _ _ _ (.inr rfl) plain_saving rfl rfl nofun
    received_queuedTrue
  obtain rfl := List.prefix_nil.mp early
  cases wrote

end Dispatch

end ScreenFlow
