import ScreenFlow.Proofs.Resolve.Payload
import ScreenFlow.Proofs.Resolve.Untouched

/-!
# Values that are filled in once more

Filling in a value replaces the placeholders of its texts, also those that came out of the scope
when it was filled in before. The values that this leaves alone are inert.

* `Resolver.carries_of_resolve`: what a request carries of the body that was given;
* `Resolver.carries_iff_inert`: it carries that body as it was given exactly if it is inert.
-/

namespace ScreenFlow

namespace Resolver

variable {r : Resolver} {d : DataSource} {g : Defaults} {scope v w declared : Json} {q : Request}

/-! ### Variables -/

theorem mergeVariables_of_plain (plain : w.isObject = false) : mergeVariables declared w = w := by
  cases w with
  | obj => cases plain
  | _ => cases declared <;> rfl

theorem isObject_mergeVariables (declared w : Json) :
    (mergeVariables declared w).isObject = w.isObject := by
  cases declared <;> cases w <;> rfl

/-- Whether a value was filled in once more can be told from the merged variables. -/
theorem mergeVariables_fill_iff (sound : w.Sound) :
    mergeVariables declared (r.fill scope w) = mergeVariables declared w ↔
      Template.Inert scope r.translate w := by
  rw [Template.inert_iff]
  constructor
  · intro h
    cases plain : w.isObject with
    | true =>
      obtain ⟨fields, rfl⟩ : ∃ fields, w = .obj fields := by
        cases w with
        | obj fields => exact ⟨fields, rfl⟩
        | _ => cases plain
      cases declared with
      | obj into =>
        have keys :
            (Template.resolveFields scope r.translate fields).map (·.1) = fields.map (·.1) :=
          Template.keys_resolveFields fields
        have ascending := (Json.ascending_congr keys).mpr sound.1
        have same := Json.extend_inj keys ascending (Json.obj.inj h)
        rw [Template.resolve, same]
      | _ => exact h
    | false =>
      have still : (r.fill scope w).isObject = false := by
        rw [← isObject_mergeVariables declared, h, isObject_mergeVariables, plain]
      rwa [mergeVariables_of_plain plain, mergeVariables_of_plain still] at h
  · intro h
    rw [fill, h]

/-! ### Requests -/

/-- The request carries the value: as its JSON body or, for a GraphQL source, among the variables of
its call, laid over those that the source declares. -/
def Conveys (r : Resolver) (d : DataSource) (scope w : Json) (q : Request) : Prop :=
  if d.isGraphql then
    ∃ c, q.graphql = some c ∧ c.vars = mergeVariables ((d.vars.map (r.fill scope)).getD .empty) w ∧
      (q.method ≠ .websocket → q.body = .json c.wireBody)
  else q.method.hasBody = true → d.bodyEncoding = .json → q.body = .json w

/-- The request has a place for a value that is given: a JSON body, or the variables of a call. -/
def Takes (d : DataSource) (q : Request) : Prop :=
  d.isGraphql = true ∨ q.method.hasBody = true ∧ d.bodyEncoding = .json

theorem conveys_of_payload {q₀ : Request} (h : r.withPayload d scope (some v) q₀ = .ok q) :
    Conveys r d scope (r.fill scope v) q := by
  unfold withPayload at h
  cases graphql : d.isGraphql with
  | true =>
    rw [Conveys, if_pos graphql]
    rw [if_pos graphql] at h
    obtain ⟨c, hc, h⟩ := ok_of_bind h
    cases query : d.query with
    | none => simp [graphqlCall, query] at hc
    | some text =>
      simp only [graphqlCall, query, Except.ok.injEq] at hc
      obtain ⟨hs, hhs⟩ := Request.defaultContentType_eq { q₀ with body := .json c.wireBody }
        "application/json"
      have vars : c.vars =
          mergeVariables ((d.vars.map (r.fill scope)).getD .empty) (r.fill scope v) := by
        rw [← hc]
      cases socket : q₀.method == .websocket with
      | true =>
        simp only [socket, ↓reduceIte, pure, Except.pure, Except.ok.injEq] at h
        subst h
        exact ⟨c, rfl, vars, fun other => absurd (eq_of_beq socket) other⟩
      | false =>
        simp only [socket, hhs, pure, Except.pure, Except.ok.injEq, Bool.false_eq_true,
          ↓reduceIte] at h
        subst h
        exact ⟨c, rfl, vars, fun _ => rfl⟩
  | false =>
    rw [Conveys, if_neg (by simp [graphql])]
    rw [if_neg (by simp [graphql])] at h
    intro has json
    cases hasBody : q₀.method.hasBody with
    | true =>
      obtain ⟨hs, hhs⟩ := Request.defaultContentType_eq { q₀ with body := .json (r.fill scope v) }
        "application/json"
      simp only [Option.some_or, hasBody, json, ↓reduceIte, Request.withEncodedBody, hhs] at h
      cases h
      rfl
    | false =>
      simp only [Option.some_or, hasBody, Bool.false_eq_true, ↓reduceIte] at h
      cases h
      rw [hasBody] at has
      cases has

theorem Conveys.headers (h : Conveys r d scope w q) (hs : Headers) :
    Conveys r d scope w { q with headers := hs } := h

/-- A body that is given is filled in. -/
theorem conveys_of_resolve (h : r.resolve d g scope (some v) = .ok q) :
    Conveys r d scope (r.fill scope v) q := by
  obtain ⟨url, -, h⟩ := ok_of_bind h
  obtain ⟨q₀, hq₀, h⟩ := ok_of_bind h
  obtain ⟨hs, hhs⟩ := q₀.authenticate_eq d.auth g r.live (r.fillText scope)
  obtain rfl := hhs.symm.trans (Except.ok.inj h)
  exact (conveys_of_payload hq₀).headers hs

/-- A body that is given is carried as it is exactly if it is inert. -/
theorem conveys_iff_inert (h : r.resolve d g scope (some v) = .ok q) (takes : Takes d q)
    (sound : v.Sound) : Conveys r d scope v q ↔ Template.Inert scope r.translate v := by
  have filled := conveys_of_resolve h
  unfold Conveys at filled ⊢
  by_cases graphql : d.isGraphql = true
  · rw [if_pos graphql] at filled ⊢
    obtain ⟨c, hc, vars, body⟩ := filled
    rw [← mergeVariables_fill_iff sound, ← vars]
    constructor
    · rintro ⟨c', hc', vars', -⟩
      obtain rfl : c' = c := Option.some.inj (hc'.symm.trans hc)
      exact vars'
    · exact fun same => ⟨c, hc, same, body⟩
  · obtain ⟨has, json⟩ := takes.resolve_left graphql
    rw [if_neg graphql] at filled ⊢
    rw [filled has json, Template.inert_iff]
    constructor
    · exact fun same => RequestBody.json.inj (same has json)
    · exact fun same _ _ => congrArg RequestBody.json same

end Resolver

end ScreenFlow
