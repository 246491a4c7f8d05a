import ScreenFlow.Proofs.Json.Fields
import ScreenFlow.Resolve.Basic

/-!
# Bodies of resolved requests

Resolving keeps values sound, and a body has the form that its encoding asks for.

* `Template.resolve_sound`: a filled-in value is sound if the template and the scope are;
* `Resolver.resolve_resolved`: what holds of the body and the call of every resolved request;
* `Resolver.isSome_graphql_resolve`: a request is a call exactly if its source is a GraphQL one.
-/

namespace ScreenFlow

namespace Json

/-! ### Parts of sound values -/

theorem sound_lookup {fields : List (String × Json)} (h : SoundFields fields) {k : String} {v : Json}
    (hv : lookup fields k = some v) : v.Sound := by
  obtain ⟨f, hf, rfl⟩ := Option.map_eq_some_iff.mp hv
  exact soundFields_iff.mp h f (List.mem_of_find?_eq_some hf)

theorem sound_step {v w : Json} (h : v.Sound) {s : Segment} (hw : v.step? s = some w) : w.Sound := by
  have item {items : List Json} (h : SoundItems items) {i : Nat} (hw : items[i]? = some w) :
      w.Sound := soundItems_iff.mp h w (List.mem_of_getElem? hw)
  unfold step? at hw
  split at hw
  · exact sound_lookup h.2 hw
  · exact item h hw
  · obtain ⟨i, -, hi⟩ := Option.bind_eq_some_iff.mp hw
    exact item h hi
  · cases hw

theorem sound_at {v w : Json} (h : v.Sound) {p : Path} (hw : v.at? p = some w) : w.Sound := by
  induction p generalizing v with
  | nil => exact Option.some.inj hw ▸ h
  | cons s rest ih =>
    obtain ⟨u, hu, hrest⟩ := Option.bind_eq_some_iff.mp hw
    exact ih (sound_step h hu) hrest

theorem sound_extend {into extra : List (String × Json)} (hinto : SoundFields into)
    (hextra : SoundFields extra) : SoundFields (extend into extra) := by
  induction extra generalizing into with
  | nil => exact hinto
  | cons f extra ih =>
    refine ih (soundFields_iff.mpr fun g hg => ?_) hextra.2
    rcases mem_insert hg with rfl | old
    · exact hextra.1
    · exact soundFields_iff.mp hinto g old

end Json

/-! ### Templates -/

namespace Template

variable {scope : Json} {tr : Translator}

theorem lookup_sound (hs : scope.Sound) {expr : List Char} {v : Json}
    (h : lookup scope tr expr = some v) : v.Sound := by
  unfold lookup at h
  dsimp only at h
  split at h
  · obtain ⟨s, -, rfl⟩ := Option.map_eq_some_iff.mp h
    trivial
  · cases h
  · exact Json.sound_at hs h

theorem resolveString_sound (hs : scope.Sound) {s : String} {v : Json}
    (h : resolveString scope tr s = v) : v.Sound := by
  unfold resolveString at h
  split at h
  · rename_i expr _
    cases hv : lookup scope tr expr with
    | none =>
      rw [hv] at h
      exact h ▸ trivial
    | some w =>
      rw [hv] at h
      exact h ▸ lookup_sound hs hv
  · exact h ▸ trivial

theorem keys_resolveFields (fields : List (String × Json)) :
    (resolveFields scope tr fields).map (·.1) = fields.map (·.1) := by
  induction fields with
  | nil => rfl
  | cons f rest ih => simp [resolveFields, ih]

mutual

/-- A value that is filled in from a sound scope stays sound. -/
theorem resolve_sound (hs : scope.Sound) : ∀ {v : Json}, v.Sound →
    ∀ {w : Json}, resolve scope tr v = w → w.Sound
  | .null, hv | .bool _, hv | .num _, hv => by
    rintro rfl
    exact hv
  | .str s, _ => by
    intro h
    rw [resolve] at h
    exact resolveString_sound hs h
  | .arr items, hv => by
    rintro rfl
    rw [resolve]
    exact resolveItems_sound hs hv
  | .obj fields, hv => by
    rintro rfl
    rw [resolve]
    exact ⟨(Json.ascending_congr (keys_resolveFields fields)).mpr hv.1, resolveFields_sound hs hv.2⟩

theorem resolveItems_sound (hs : scope.Sound) : ∀ {vs : List Json}, Json.SoundItems vs →
    Json.SoundItems (resolveItems scope tr vs)
  | [], _ => trivial
  | _ :: _, h => ⟨resolve_sound hs h.1 rfl, resolveItems_sound hs h.2⟩

theorem resolveFields_sound (hs : scope.Sound) : ∀ {fs : List (String × Json)},
    Json.SoundFields fs → Json.SoundFields (resolveFields scope tr fs)
  | [], _ => trivial
  | (_, _) :: _, h => ⟨resolve_sound hs h.1 rfl, resolveFields_sound hs h.2⟩

end

end Template

/-! ### Requests -/

theorem ok_of_bind {α β : Type} {x : Except Fault α} {next : α → Except Fault β} {b : β}
    (h : x >>= next = .ok b) : ∃ a, x = .ok a ∧ next a = .ok b := by
  cases x with
  | error f => cases h
  | ok a => exact ⟨a, rfl, h⟩

theorem ok_of_map {α β : Type} {x : Except Fault α} {f : α → β} {b : β} (h : x.map f = .ok b) :
    ∃ a, x = .ok a ∧ f a = b := by
  cases x with
  | error f => cases h
  | ok a => exact ⟨a, rfl, Except.ok.inj h⟩

theorem ok_of_toOption {α : Type} {x : Except Fault α} {a : α} (h : x.toOption = some a) :
    x = .ok a := by
  cases x with
  | error f => cases h
  | ok b => exact congrArg _ (Option.some.inj h)

/-- The value of a JSON body is sound, and the names of a form ascend. -/
def RequestBody.Sound : RequestBody → Prop
  | .json v => v.Sound
  | .form ps => ps.Pairwise (·.1 < ·.1)
  | _ => True

namespace Request

/-- What holds of every resolved request: a call has sound variables and is the body, unless the request
opens a socket; any other body is sound. -/
structure Resolved (q : Request) : Prop where
  body : q.graphql = none → q.body.Sound
  call : ∀ c, q.graphql = some c →
    c.vars.Sound ∧ q.body = if q.method == .websocket then .empty else .json c.wireBody

theorem Resolved.headers {q : Request} (h : q.Resolved) (hs : Headers) :
    { q with headers := hs }.Resolved := ⟨h.body, h.call⟩

theorem setNewHeader_eq (q : Request) (name value : String) :
    ∃ hs, q.setNewHeader name value = { q with headers := hs } := by
  unfold setNewHeader
  split
  · exact ⟨q.headers, rfl⟩
  · exact ⟨_, rfl⟩

theorem authenticate_eq (q : Request) (declared : Option Credential) (g : Defaults)
    (live : Option String) (fill : String → String) :
    ∃ hs, q.authenticate declared g live fill = { q with headers := hs } := by
  have same : ∃ hs, q = { q with headers := hs } := ⟨q.headers, rfl⟩
  unfold authenticate
  split
  · split
    · exact setNewHeader_eq q _ _
    · exact same
  split
  · split
    · exact setNewHeader_eq q _ _
    · exact same
  · exact same

theorem defaultContentType_eq (q : Request) (type : String) :
    ∃ hs, q.defaultContentType type = { q with headers := hs } :=
  setNewHeader_eq q contentTypeHeader type

theorem formPairs_sound {v : Json} (hv : v.Sound) {ps : List (String × String)}
    (h : formPairs v = .ok ps) : ps.Pairwise (·.1 < ·.1) := by
  unfold formPairs at h
  split at h
  · rw [← Except.ok.inj h, List.pairwise_map]
    exact hv.1.filter _
  · cases h

theorem withEncodedBody_graphql {q q' : Request} {encoding : BodyEncoding} {v : Json}
    (h : q.withEncodedBody encoding v = .ok q') : q'.graphql = q.graphql := by
  cases encoding with
  | json =>
    obtain ⟨hs, hhs⟩ := defaultContentType_eq { q with body := .json v } "application/json"
    rw [withEncodedBody, hhs] at h
    cases h
    rfl
  | raw =>
    obtain ⟨hs, hhs⟩ := defaultContentType_eq { q with body := .raw v.inlineText } "text/plain"
    rw [withEncodedBody, hhs] at h
    cases h
    rfl
  | form | multipart =>
    obtain ⟨parts, -, h⟩ := ok_of_bind h
    cases h
    rfl

theorem withEncodedBody_sound {q q' : Request} {encoding : BodyEncoding} {v : Json} (hv : v.Sound)
    (h : q.withEncodedBody encoding v = .ok q') : q'.body.Sound := by
  cases encoding with
  | json =>
    obtain ⟨hs, hhs⟩ := defaultContentType_eq { q with body := .json v } "application/json"
    rw [withEncodedBody, hhs] at h
    cases h
    exact hv
  | form =>
    obtain ⟨ps, hps, h⟩ := ok_of_bind h
    cases h
    exact formPairs_sound hv hps
  | raw =>
    obtain ⟨hs, hhs⟩ := defaultContentType_eq { q with body := .raw v.inlineText } "text/plain"
    rw [withEncodedBody, hhs] at h
    cases h
    trivial
  | multipart =>
    obtain ⟨parts, -, h⟩ := ok_of_bind h
    cases h
    trivial

end Request

/-- The values that a source declares are sound. -/
structure DataSource.Sound (d : DataSource) : Prop where
  vars : ∀ v ∈ d.vars, v.Sound
  body : ∀ v ∈ d.body, v.Sound

namespace Resolver

variable {r : Resolver} {d : DataSource} {g : Defaults} {scope : Json} {body : Option Json}

theorem frame_payload (r : Resolver) (d : DataSource) (g : Defaults) (scope : Json)
    (method : Method) (url : String) : (r.frame d g scope method url).body = .empty ∧
      (r.frame d g scope method url).graphql = none := by
  have kept (hs : List (String × String)) (q : Request) :
      (hs.foldl (fun q h => q.setHeader h.1 (r.fillText scope h.2)) q).body = q.body ∧
      (hs.foldl (fun q h => q.setHeader h.1 (r.fillText scope h.2)) q).graphql = q.graphql := by
    induction hs generalizing q with
    | nil => exact ⟨rfl, rfl⟩
    | cons h hs ih => exact ih (q.setHeader h.1 (r.fillText scope h.2))
  exact kept _ _

theorem mergeVariables_sound {declared extra : Json} (hd : declared.Sound) (he : extra.Sound) :
    (mergeVariables declared extra).Sound := by
  unfold mergeVariables
  split
  · exact ⟨Json.ascending_extend hd.1, Json.sound_extend hd.2 he.2⟩
  · exact he

theorem graphqlCall_sound (hscope : scope.Sound) (hd : d.Sound) (hbody : ∀ v ∈ body, v.Sound)
    {c : GraphqlCall} (h : r.graphqlCall d scope body = .ok c) : c.vars.Sound := by
  have declared : ((d.vars.map (r.fill scope)).getD .empty).Sound := by
    cases hv : d.vars with
    | none => exact Json.empty_sound
    | some v => exact Template.resolve_sound hscope (hd.vars v hv) rfl
  unfold graphqlCall at h
  split at h
  · cases h
  · cases h
    cases body with
    | none => exact declared
    | some extra =>
      exact mergeVariables_sound declared (Template.resolve_sound hscope (hbody extra rfl) rfl)

theorem withPayload_resolved (hscope : scope.Sound) (hd : d.Sound) (hbody : ∀ v ∈ body, v.Sound)
    {q q' : Request} (hempty : q.body = .empty) (hplain : q.graphql = none)
    (h : r.withPayload d scope body q = .ok q') : q'.Resolved := by
  unfold withPayload at h
  split at h
  · obtain ⟨c, hc, h⟩ := ok_of_bind h
    have sound := graphqlCall_sound hscope hd hbody hc
    obtain ⟨hs, hhs⟩ := Request.defaultContentType_eq { q with body := .json c.wireBody }
      "application/json"
    cases hm : q.method == .websocket with
    | true =>
      simp only [hm, ↓reduceIte, pure, Except.pure, Except.ok.injEq] at h
      subst h
      refine ⟨nofun, fun c' hc' => ?_⟩
      cases hc'
      exact ⟨sound, by simp only [hm, hempty, ↓reduceIte]⟩
    | false =>
      simp only [hm, hhs, pure, Except.pure, Except.ok.injEq, Bool.false_eq_true, ↓reduceIte] at h
      subst h
      refine ⟨nofun, fun c' hc' => ?_⟩
      cases hc'
      exact ⟨sound, by simp only [hm, Bool.false_eq_true, ↓reduceIte]⟩
  · have plain : q.Resolved := ⟨fun _ => hempty ▸ trivial, fun c hc => by rw [hplain] at hc; cases hc⟩
    split at h
    · rename_i template htemplate
      have declared : template.Sound := by
        cases body with
        | none => exact hd.body template htemplate
        | some v => exact Option.some.inj htemplate ▸ hbody v rfl
      split at h
      · have sound := Request.withEncodedBody_sound (Template.resolve_sound hscope declared rfl) h
        have same := Request.withEncodedBody_graphql h
        exact ⟨fun _ => sound, fun c hc => by rw [same, hplain] at hc; cases hc⟩
      · exact Except.ok.inj h ▸ plain
    · exact Except.ok.inj h ▸ plain

/-- What holds of every resolved request. -/
theorem resolve_resolved (hscope : scope.Sound) (hd : d.Sound) (hbody : ∀ v ∈ body, v.Sound)
    {q : Request} (h : r.resolve d g scope body = .ok q) : q.Resolved := by
  obtain ⟨url, -, h⟩ := ok_of_bind h
  obtain ⟨q₀, hq₀, h⟩ := ok_of_bind h
  obtain ⟨hempty, hplain⟩ := frame_payload r d g scope (d.methodFor (body.or d.body).isSome) url
  obtain ⟨hs, hhs⟩ := q₀.authenticate_eq d.auth g r.live (r.fillText scope)
  obtain rfl := hhs.symm.trans (Except.ok.inj h)
  exact (withPayload_resolved hscope hd hbody hempty hplain hq₀).headers hs

/-- A request is a GraphQL call exactly if its source is one. -/
theorem isSome_graphql_resolve {q : Request} (h : r.resolve d g scope body = .ok q) :
    q.graphql.isSome = d.isGraphql := by
  obtain ⟨url, -, h⟩ := ok_of_bind h
  obtain ⟨q₀, hq₀, h⟩ := ok_of_bind h
  obtain ⟨hs, hhs⟩ := q₀.authenticate_eq d.auth g r.live (r.fillText scope)
  obtain rfl := hhs.symm.trans (Except.ok.inj h)
  obtain ⟨-, hplain⟩ := frame_payload r d g scope (d.methodFor (body.or d.body).isSome) url
  have kept {q' : Request} (same : q'.graphql =
      (r.frame d g scope (d.methodFor (body.or d.body).isSome) url).graphql) :
      q'.graphql.isSome = false := by
    rw [same, hplain]
    rfl
  change q₀.graphql.isSome = d.isGraphql
  unfold withPayload at hq₀
  split at hq₀
  · rename_i graphql
    obtain ⟨c, -, hq₀⟩ := ok_of_bind hq₀
    cases hq₀
    exact graphql.symm
  · rename_i graphql
    rw [Bool.eq_false_iff.mpr graphql]
    split at hq₀
    · split at hq₀
      · exact kept (Request.withEncodedBody_graphql hq₀)
      · exact kept (congrArg _ (Except.ok.inj hq₀).symm)
    · exact kept (congrArg _ (Except.ok.inj hq₀).symm)

end Resolver

end ScreenFlow
