import ScreenFlow.Execute.Basic
import ScreenFlow.Proofs.Json.Rendering
import ScreenFlow.Proofs.Screen.Parts

/-!
# Targets of reads

A read is kept under a text made of the parts of its target, one behind the other with colons
between. Two targets have the same text if one of them goes on where the document of the other one
begins.

* `Target.Overlaps`: one target takes the beginning of the other one's document for its endpoint;
* `Target.key_eq_iff`: exactly which targets share their key.
-/

namespace ScreenFlow

/-- What a read asks for: an endpoint, or a document at one. -/
inductive Target where
  | endpoint (method : Method) (url : String)
  | document (url query : String) (vars : Json)
deriving DecidableEq

def Request.target (r : Request) : Target :=
  match r.graphql with
  | some g => .document r.url g.query g.vars
  | none => .endpoint r.method r.url

namespace Target

def key : Target → String
  | endpoint method url => method.name ++ ":" ++ url
  | document url query vars => "GRAPHQL:" ++ url ++ ":" ++ query ++ ":" ++ vars.render

/-- The second target is written like the first one: it takes the beginning of the document, or the
whole of it with its variables, for a part of its endpoint. -/
inductive Overlaps : Target → Target → Prop
  | documents (url beginning query : String) (vars : Json) :
      Overlaps (document url (beginning ++ ":" ++ query) vars)
        (document (url ++ ":" ++ beginning) query vars)
  | endpoint (url query : String) (vars : Json) :
      Overlaps (document url query vars)
        (endpoint .graphql (url ++ ":" ++ query ++ ":" ++ vars.render))

theorem Overlaps.ne {t t' : Target} (h : Overlaps t t') : t ≠ t' := by
  cases h with
  | documents url beginning =>
    intro same
    have longer := congrArg String.length (Target.document.inj same).1
    simp only [String.length_append] at longer
    have : ":".length = 1 := rfl
    omega
  | endpoint => exact Target.noConfusion

theorem Overlaps.key_eq {t t' : Target} (h : Overlaps t t') : t.key = t'.key := by
  cases h with
  | documents => simp only [key, String.append_assoc]
  | endpoint =>
    have : Method.graphql.name ++ ":" = "GRAPHQL:" := rfl
    simp only [key, ← String.append_assoc, this]

end Target

/-- Where a colon stands behind two texts, one of them begins with the other. -/
theorem eq_or_goes_on {a b c d : String} (same : a ++ ":" ++ b = c ++ ":" ++ d) :
    (a = c ∧ b = d) ∨ (∃ t, c = a ++ ":" ++ t ∧ b = t ++ ":" ++ d) ∨
      ∃ t, a = c ++ ":" ++ t ∧ d = t ++ ":" ++ b := by
  have texts : a.toList ++ ':' :: b.toList = c.toList ++ ':' :: d.toList := by
    simpa using congrArg String.toList same
  have longer {a b c d : String} {more : List Char} (hc : c.toList = a.toList ++ more)
      (h : ':' :: b.toList = more ++ ':' :: d.toList) :
      (a = c ∧ b = d) ∨ ∃ t, c = a ++ ":" ++ t ∧ b = t ++ ":" ++ d := by
    cases more with
    | nil =>
      rw [List.append_nil] at hc
      exact .inl ⟨String.toList_inj.mp hc.symm, String.toList_inj.mp (List.cons.inj h).2⟩
    | cons x more =>
      obtain ⟨rfl, hb⟩ := List.cons.inj h
      refine .inr ⟨String.ofList more, String.toList_inj.mp ?_, String.toList_inj.mp ?_⟩
      · simp [hc]
      · simp [hb]
  rcases List.append_eq_append_iff.mp texts with ⟨more, hc, h⟩ | ⟨more, ha, h⟩
  · exact (longer hc h).imp_right .inl
  · rcases longer ha h with ⟨rfl, rfl⟩ | goes
    · exact .inl ⟨rfl, rfl⟩
    · exact .inr (.inr goes)

/-- No method has a colon in its name. -/
theorem Method.name_inj {m m' : Method} {rest rest' : String}
    (same : m.name ++ ":" ++ rest = m'.name ++ ":" ++ rest') : m = m' ∧ rest = rest' := by
  have whole (m : Method) (a b : String) : m.name ≠ a ++ ":" ++ b := by
    intro same
    have plain : ':' ∉ m.name.toList := by cases m <;> decide
    exact plain (by simp [same])
  rcases eq_or_goes_on same with ⟨names, rests⟩ | ⟨t, goes, -⟩ | ⟨t, goes, -⟩
  · refine ⟨?_, rests⟩
    have read := Method.decode_name m
    rw [names, Method.decode_name] at read
    exact (Option.some.inj read).symm
  · exact (whole _ _ _ goes).elim
  · exact (whole _ _ _ goes).elim

namespace Target

/-- Two targets share their key exactly if they are the same or one overlaps the other. -/
theorem key_eq_iff {t t' : Target} :
    t.key = t'.key ↔ t = t' ∨ Overlaps t t' ∨ Overlaps t' t := by
  constructor
  · intro same
    have mixed {m : Method} {url url' query : String} {vars : Json}
        (h : m.name ++ ":" ++ url = "GRAPHQL:" ++ url' ++ ":" ++ query ++ ":" ++ vars.render) :
        Overlaps (document url' query vars) (endpoint m url) := by
      have named : "GRAPHQL:" ++ url' ++ ":" ++ query ++ ":" ++ vars.render =
          Method.graphql.name ++ ":" ++ (url' ++ ":" ++ query ++ ":" ++ vars.render) := by
        simp only [← String.append_assoc]
        rfl
      obtain ⟨rfl, rfl⟩ := Method.name_inj (h.trans named)
      exact .endpoint ..
    cases t with
    | endpoint m url =>
      cases t' with
      | endpoint m' url' =>
        obtain ⟨rfl, rfl⟩ := Method.name_inj same
        exact .inl rfl
      | document => exact .inr (.inr (mixed same))
    | document url query vars =>
      cases t' with
      | endpoint m' url' => exact .inr (.inl (mixed same.symm))
      | document url' query' vars' =>
        have behind : url ++ ":" ++ query ++ ":" ++ vars.render =
            url' ++ ":" ++ query' ++ ":" ++ vars'.render := by
          simpa only [key, String.append_assoc, String.append_right_inj] using same
        obtain ⟨front, rfl⟩ := Json.eq_of_behind_colon behind
        rcases eq_or_goes_on front with ⟨rfl, rfl⟩ | ⟨t, rfl, rfl⟩ | ⟨t, rfl, rfl⟩
        · exact .inl rfl
        · exact .inr (.inl (.documents ..))
        · exact .inr (.inr (.documents ..))
  · rintro (rfl | h | h)
    · rfl
    · exact h.key_eq
    · exact h.key_eq.symm

end Target

theorem Executor.cacheKey_eq (r : Request) : cacheKey r = r.target.key := by
  cases h : r.graphql <;> simp only [cacheKey, Request.target, Target.key, Request.endpointKey, h]

end ScreenFlow
