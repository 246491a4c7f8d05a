import ScreenFlow.Proofs.Resolve.Authentication

/-!
# Which headers a request has

The headers of a request are written one after the other: those of all requests, those of the
source, what belongs to the body, and the credential.

* `Resolver.oneSpelling_resolve`: every resolved request has one spelling of each header;
* `Request.Typed`: what a body does to the headers;
* `Request.authenticate_adds`: what a credential does to them;
* `Resolver.headers_disciplined`: the headers of a resolved request.
-/

namespace ScreenFlow

/-! ### One spelling -/

namespace Request

variable {q q' : Request}

theorem oneSpelling_setNewHeader (h : q.headers.OneSpelling) (name value : String) :
    (q.setNewHeader name value).headers.OneSpelling := by
  unfold setNewHeader
  split
  · exact h
  · exact h.set name value

theorem oneSpelling_defaultContentType (h : q.headers.OneSpelling) (type : String) :
    (q.defaultContentType type).headers.OneSpelling :=
  oneSpelling_setNewHeader h contentTypeHeader type

theorem oneSpelling_authenticate (h : q.headers.OneSpelling) (declared : Option Credential)
    (g : Defaults) (live : Option String) (fill : String → String) :
    (q.authenticate declared g live fill).headers.OneSpelling := by
  rw [authenticate_of_header? (Credential.takenFrom_iff.mpr rfl)]
  cases (Credential.sourceOf declared g q.url).header? live fill with
  | none => exact h
  | some f => exact oneSpelling_setNewHeader h f.1 f.2

theorem oneSpelling_withEncodedBody (h : q.headers.OneSpelling) {encoding : BodyEncoding} {v : Json}
    (hq : q.withEncodedBody encoding v = .ok q') : q'.headers.OneSpelling := by
  cases encoding with
  | json | raw =>
    cases hq
    apply oneSpelling_defaultContentType
    exact h
  | form =>
    obtain ⟨ps, -, hq⟩ := ok_of_bind hq
    cases hq
    exact h.set _ _
  | multipart =>
    obtain ⟨parts, -, hq⟩ := ok_of_bind hq
    cases hq
    exact h.remove _

/-- The session token only adds a header where there is none of its name. -/
theorem oneSpelling_attachSession_iff (q : Request) (live : Option String) :
    (q.attachSession live).2.headers.OneSpelling ↔ q.headers.OneSpelling := by
  unfold attachSession
  split
  · rfl
  split
  · rename_i absent _ token _
    have missing : q.headers.has authorizationHeader = false := by
      simpa [hasHeader] using absent
    show (q.headers.set authorizationHeader (bearerValue token)).OneSpelling ↔ _
    rw [Headers.oneSpelling_perm (Headers.set_perm missing _), Headers.oneSpelling_cons_iff]
    refine and_iff_right_iff_imp.mpr fun _ g hg => ?_
    exact Headers.has_eq_false_iff.mp missing g hg
  · rfl

end Request

namespace Resolver

variable {r : Resolver} {d : DataSource} {g : Defaults} {scope : Json} {body : Option Json}
  {q q' : Request}

theorem oneSpelling_frame (method : Method) (url : String) :
    (r.frame d g scope method url).headers.OneSpelling := by
  have kept (hs : List (String × String)) (q : Request) (h : q.headers.OneSpelling) :
      (hs.foldl (fun q h => q.setHeader h.1 (r.fillText scope h.2)) q).headers.OneSpelling := by
    induction hs generalizing q with
    | nil => exact h
    | cons f hs ih => exact ih _ (h.set f.1 (r.fillText scope f.2))
  exact kept _ _ List.Pairwise.nil

theorem oneSpelling_withPayload (h : q.headers.OneSpelling)
    (hq : r.withPayload d scope body q = .ok q') : q'.headers.OneSpelling := by
  unfold withPayload at hq
  split at hq
  · obtain ⟨call, -, hq⟩ := ok_of_bind hq
    cases hq
    split
    · exact h
    · exact Request.oneSpelling_defaultContentType (q := { q with body := .json call.wireBody }) h _
  split at hq
  · split at hq
    · exact Request.oneSpelling_withEncodedBody h hq
    · cases hq
      exact h
  · cases hq
    exact h

/-- A resolved request has one spelling of each header. -/
theorem oneSpelling_resolve (h : r.resolve d g scope body = .ok q) : q.headers.OneSpelling := by
  obtain ⟨url, -, h⟩ := ok_of_bind h
  obtain ⟨q₀, hq₀, h⟩ := ok_of_bind h
  cases h
  exact Request.oneSpelling_authenticate (oneSpelling_withPayload (oneSpelling_frame _ _) hq₀) _ _ _ _

end Resolver

/-- Only a key stands under another name than the authorization. -/
theorem Credential.Signs.authorization_or_key {live : Option String} {fill : String → String}
    {source : Credential.Source} {name value : String}
    (signs : Credential.Signs live fill source name value) : name = "Authorization" ∨
      ∃ c, (source = .declared c ∨ source = .registered c) ∧ c.scheme = .apiKey ∧
        name = c.header.getD defaultKeyHeader := by
  have ofCredential {c : Credential} {v : Option String} (stands : c.Stands v live name value) :
      name = "Authorization" ∨ c.scheme = .apiKey ∧ name = c.header.getD defaultKeyHeader := by
    cases stands with
    | live | stored | pair | encoded => exact .inl rfl
    | key scheme => exact .inr ⟨scheme, rfl⟩
  cases signs with
  | declared stands => exact (ofCredential stands).imp_right fun key => ⟨_, .inl rfl, key⟩
  | registered stands => exact (ofCredential stands).imp_right fun key => ⟨_, .inr rfl, key⟩
  | session => exact .inl rfl

/-! ### Bodies -/

/-- The body determines the content type. -/
def RequestBody.ownsType : RequestBody → Bool
  | form _ | multipart _ => true
  | _ => false

namespace Request

variable {q q' : Request} {name value : String} {h : String × String}

theorem mem_setNewHeader (there : h ∈ q.headers) (name value : String) :
    h ∈ (q.setNewHeader name value).headers := by
  cases has : q.headers.has name with
  | true => rwa [setNewHeader_of_there (Headers.has_iff.mp has)]
  | false =>
    have absent := Headers.has_eq_false_iff.mp has
    rw [setNewHeader_of_absent absent]
    exact Headers.mem_set_of_other there (absent h there) value

/-- What becomes of the headers when a request gets its body. -/
structure Typed (before after : Request) : Prop where
  keeps : ∀ h ∈ before.headers,
    (Text.sameName h.1 contentTypeHeader = true → after.body.ownsType = false) → h ∈ after.headers
  form : ∀ pairs, after.body = .form pairs →
    (contentTypeHeader, "application/x-www-form-urlencoded") ∈ after.headers
  multipart : after.body.isMultipart = true →
    ∀ h ∈ after.headers, Text.sameName h.1 contentTypeHeader = false

/-- A body that leaves the content type to others. -/
theorem typed_of_keeps (keeps : ∀ h ∈ q.headers, h ∈ q'.headers)
    (plain : q'.body.ownsType = false) : Typed q q' where
  keeps h there _ := keeps h there
  form pairs same := by
    rw [same] at plain
    cases plain
  multipart is := by
    cases body : q'.body <;> rw [body] at is plain
    case multipart => cases plain
    all_goals cases is

theorem typed_defaultContentType (type : String) (body : RequestBody)
    (plain : body.ownsType = false) :
    Typed q ({ q with body }.defaultContentType type) := by
  obtain ⟨hs, same⟩ := defaultContentType_eq { q with body } type
  refine typed_of_keeps (fun h there => ?_) (by rw [same]; exact plain)
  exact mem_setNewHeader (q := { q with body }) there contentTypeHeader type

theorem typed_withEncodedBody {encoding : BodyEncoding} {v : Json}
    (encoded : q.withEncodedBody encoding v = .ok q') : Typed q q' := by
  cases encoding with
  | json =>
    cases encoded
    exact typed_defaultContentType _ _ rfl
  | raw =>
    cases encoded
    exact typed_defaultContentType _ _ rfl
  | form =>
    obtain ⟨pairs, -, same⟩ := ok_of_bind encoded
    cases same
    refine ⟨fun h there spared => ?_, fun _ _ => Headers.mem_set_self _ _ _, nofun⟩
    exact Headers.mem_set_of_other there (Bool.eq_false_iff.mpr fun same => nomatch spared same) _
  | multipart =>
    obtain ⟨parts, -, same⟩ := ok_of_bind encoded
    cases same
    refine ⟨fun h there spared => ?_, nofun, fun _ h there => Headers.other_of_mem_remove there⟩
    exact Headers.mem_remove_of_other there (Bool.eq_false_iff.mpr fun same => nomatch spared same)

/-! ### Credentials -/

/-- A credential changes no header, and adds the one that belongs to it at most. -/
theorem authenticate_adds {declared : Option Credential} {g : Defaults} {live : Option String}
    {fill : String → String} : (q.authenticate declared g live fill).headers = q.headers ∨
      ∃ source name value, Credential.TakenFrom declared g q.url source ∧
        Credential.Signs live fill source name value ∧
        (∀ h ∈ q.headers, Text.sameName h.1 name = false) ∧
        (q.authenticate declared g live fill).headers.Perm ((name, value) :: q.headers) := by
  have taken := Credential.takenFrom_iff.mpr (Eq.refl (Credential.sourceOf declared g q.url))
  generalize Credential.sourceOf declared g q.url = source at taken
  by_cases signs : ∃ name value, Credential.Signs live fill source name value
  · obtain ⟨name, value, signs⟩ := signs
    rw [authenticate_of_signs taken signs]
    cases has : q.headers.has name with
    | true => exact .inl (congrArg headers (setNewHeader_of_there (Headers.has_iff.mp has)))
    | false =>
      have absent := Headers.has_eq_false_iff.mp has
      rw [setNewHeader_of_absent absent]
      exact .inr ⟨source, name, value, taken, signs, absent, Headers.set_perm has value⟩
  · have nothing : ∀ name value, ¬ Credential.Signs live fill source name value :=
      fun name value there => signs ⟨name, value, there⟩
    exact .inl (by rw [authenticate_of_not_signs taken nothing])

theorem mem_authenticate {declared : Option Credential} {g : Defaults} {live : Option String}
    {fill : String → String} (there : h ∈ q.headers) :
    h ∈ (q.authenticate declared g live fill).headers := by
  rcases authenticate_adds (q := q) with same | ⟨_, _, _, _, _, _, perm⟩
  · rwa [same]
  · exact perm.mem_iff.mpr (List.mem_cons_of_mem _ there)

/-- Where there is no content type, only a key can become one. -/
theorem exists_key_of_contentType {declared : Option Credential} {g : Defaults}
    {live : Option String} {fill : String → String}
    (none : ∀ h ∈ q.headers, Text.sameName h.1 contentTypeHeader = false)
    (there : h ∈ (q.authenticate declared g live fill).headers)
    (names : Text.sameName h.1 contentTypeHeader = true) :
    ∃ c, (Credential.TakenFrom declared g q.url (.declared c) ∨
        Credential.TakenFrom declared g q.url (.registered c)) ∧ c.scheme = .apiKey ∧
      h.1 = c.header.getD defaultKeyHeader := by
  rcases authenticate_adds (q := q) with same | ⟨source, name, value, taken, signs, -, perm⟩
  · rw [same] at there
    cases (none h there).symm.trans names
  rcases List.mem_cons.mp (perm.mem_iff.mp there) with rfl | old
  · obtain rfl | ⟨c, place, scheme, spelled⟩ := signs.authorization_or_key
    · have apart : Text.sameName "Authorization" contentTypeHeader = false := by decide
      cases apart.symm.trans names
    · refine ⟨c, ?_, scheme, spelled⟩
      rcases place with rfl | rfl
      · exact .inl taken
      · exact .inr taken
  · cases (none h old).symm.trans names

end Request

namespace Resolver

variable {r : Resolver} {d : DataSource} {g : Defaults} {scope : Json} {body : Option Json}
  {q q' : Request}

/-- The headers of a map are set one after the other, and the last one of its name stays. -/
theorem mem_setHeaders {hs : List (String × String)} {name template : String}
    (last : Headers.Last hs name template) (q : Request) : (name, r.fillText scope template) ∈
      (hs.foldl (fun q h => q.setHeader h.1 (r.fillText scope h.2)) q).headers := by
  obtain ⟨before, after, rfl, others⟩ := last
  rw [List.foldl_append, List.foldl_cons]
  generalize before.foldl _ q = q
  have there : (name, r.fillText scope template) ∈
      (q.setHeader name (r.fillText scope template)).headers := Headers.mem_set_self ..
  generalize q.setHeader name (r.fillText scope template) = q at there
  induction after generalizing q with
  | nil => exact there
  | cons h after ih =>
    obtain ⟨other, rest⟩ := List.forall_mem_cons.mp others
    refine ih rest (q.setHeader h.1 (r.fillText scope h.2)) ?_
    exact Headers.mem_set_of_other there (by rw [Text.sameName_comm, other]) _

theorem typed_withPayload (empty : q.body = .empty)
    (paid : r.withPayload d scope body q = .ok q') : Request.Typed q q' := by
  have same : Request.Typed q q :=
    Request.typed_of_keeps (fun _ there => there) (by rw [empty]; rfl)
  unfold withPayload at paid
  split at paid
  · obtain ⟨call, -, paid⟩ := ok_of_bind paid
    cases paid
    have typed : Request.Typed q (if q.method == .websocket then q else
        { q with body := .json call.wireBody }.defaultContentType "application/json") := by
      split
      · exact same
      · exact Request.typed_defaultContentType _ _ rfl
    exact ⟨typed.keeps, typed.form, typed.multipart⟩
  · split at paid
    · split at paid
      · exact Request.typed_withEncodedBody paid
      · exact Except.ok.inj paid ▸ same
    · exact Except.ok.inj paid ▸ same

/-- A resolved request has one spelling of each header. It has the headers of its source, and those
of all requests that the source does not have itself; only a form or multipart body has its own word
on the content type. A multipart body leaves none, unless a key is declared to stand there. The
credential comes last: it changes no header, and adds one at most. -/
theorem headers_disciplined (h : r.resolve d g scope body = .ok q) :
    q.headers.OneSpelling ∧
    (∀ name template,
      (Headers.Last d.headers name template ∨ Headers.Last g.headers name template ∧
        ∀ f ∈ d.headers, Text.sameName f.1 name = false) →
      (Text.sameName name contentTypeHeader = true → q.body.ownsType = false) →
      (name, r.fillText scope template) ∈ q.headers) ∧
    (∀ pairs, q.body = .form pairs →
      (contentTypeHeader, "application/x-www-form-urlencoded") ∈ q.headers) ∧
    (q.body.isMultipart = true → ∀ f ∈ q.headers, Text.sameName f.1 contentTypeHeader = true →
      ∃ c, (Credential.TakenFrom d.auth g q.url (.declared c) ∨
          Credential.TakenFrom d.auth g q.url (.registered c)) ∧ c.scheme = .apiKey ∧
        f.1 = c.header.getD defaultKeyHeader) ∧
    ∃ q₀, r.unsigned d g scope body = .ok q₀ ∧
      q = q₀.authenticate d.auth g r.live (r.fillText scope) ∧
      Headers.AtMostOneMore q₀.headers q.headers := by
  have distinct := oneSpelling_resolve h
  obtain ⟨q₀, unsigned, rfl⟩ := exists_unsigned h
  obtain ⟨url, built, paid⟩ := ok_of_bind unsigned
  have typed := typed_withPayload (frame_payload r d g scope _ url).1 paid
  obtain ⟨hs, same⟩ := q₀.authenticate_eq d.auth g r.live (r.fillText scope)
  have body : (q₀.authenticate d.auth g r.live (r.fillText scope)).body = q₀.body := by rw [same]
  have target : (q₀.authenticate d.auth g r.live (r.fillText scope)).url = q₀.url := by rw [same]
  rw [body, target]
  refine ⟨distinct, ?_, ?_, ?_, q₀, unsigned, rfl, ?_⟩
  · intro name template last spared
    refine Request.mem_authenticate (typed.keeps _ (mem_setHeaders ?_ _) spared)
    rcases last with own | ⟨shared, unused⟩
    · exact own.append_right g.headers
    · exact shared.append_left unused
  · intro pairs form
    exact Request.mem_authenticate (typed.form pairs form)
  · intro multipart f there names
    exact Request.exists_key_of_contentType (typed.multipart multipart) there names
  · rcases Request.authenticate_adds (q := q₀) with same | ⟨_, _, _, _, _, absent, perm⟩
    · rw [same]
      exact .same
    · exact .added absent perm

/-! ### A multipart body -/

def tagged : Defaults where
  headers := [("X-Shared", "s"), ("X-TAG", "all")]

/-- Its content type is dropped, and its second tag wins. -/
def letter : DataSource where
  id := "letter"
  method := some .post
  path := "https://a/letters"
  headers := [("Content-Type", "text/css"), ("X-Tag", "first"), ("x-tag", "second")]
  body := some (.obj [("doc", .str "x")])
  bodyEncoding := .multipart
  auth := some { scheme := .apiKey, value := some "k" }

def sealedLetter : Request where
  dataSourceId := "letter"
  method := .post
  url := "https://a/letters"
  headers := [("X-API-Key", "k"), ("X-Shared", "s"), ("x-tag", "second")]
  body := .multipart [⟨"doc", .text "x"⟩]

theorem headers_disciplined_letter :
    Resolver.resolve {} letter tagged .empty none = .ok sealedLetter ∧
      sealedLetter.headers.OneSpelling ∧
      ("x-tag", Resolver.fillText {} .empty "second") ∈ sealedLetter.headers ∧
      ("X-Shared", Resolver.fillText {} .empty "s") ∈ sealedLetter.headers := by
  have resolved : Resolver.resolve {} letter tagged .empty none = .ok sealedLetter :=
    ok_of_toOption (by decide +kernel)
  obtain ⟨distinct, fields, -⟩ := headers_disciplined resolved
  have own : Headers.Last letter.headers "x-tag" "second" :=
    (Headers.last_iff (by decide)).mpr ⟨by decide, by decide⟩
  have shared : Headers.Last tagged.headers "X-Shared" "s" :=
    (Headers.last_iff (by decide)).mpr ⟨by decide, by decide⟩
  exact ⟨resolved, distinct, fields _ _ (.inl own) (fun same => absurd same (by decide)),
    fields _ _ (.inr ⟨shared, by decide⟩) fun same => absurd same (by decide)⟩

end Resolver

end ScreenFlow
