import ScreenFlow.Proofs.Offline.Replaying
import ScreenFlow.Proofs.Offline.Contents
import ScreenFlow.Proofs.Resolve.Payload

/-!
# Requests that survive the queue

An event is written as text and read again before its request is made. Most bodies come through; those
that do not are told here exactly.

* `RequestBody.Storable`, `Request.Storable`: which bodies and calls come through;
* `OfflineQueue.survives_iff`: the request of a stored event has its body and its variables exactly then.
-/

namespace ScreenFlow

open OfflineEvent (maxNesting)

/-! ### Values -/

namespace Json

/-- A value is read back from an event unless it is null, has too many brackets around its parts, or
has a number that is not what its digits say. -/
def Storable (v : Json) : Prop := v ≠ .null ∧ v.nesting ≤ maxNesting ∧ v.Exact

theorem reread_ne_null {v : Json} (h : v ≠ .null) (depth : Nat) : v.reread depth ≠ .null := by
  cases v with
  | null => exact absurd rfl h
  | num n =>
    rw [reread, n.reread_eq]
    cases n.numeral.value? <;> simp
  | arr items => cases depth <;> simp [reread]
  | obj fields => cases depth <;> simp [reread]
  | _ => simp

/-- A value that is not null is read as what stands there. -/
theorem field_reread {v : Json} (h : v ≠ .null) (depth : Nat) :
    Decoder.value.field (some (v.reread depth)) = (Decoder.value (v.reread depth)).map some := by
  have other := reread_ne_null h depth
  rw [Decoder.field, Option.elim, Decoder.option]
  exact other

theorem field_storable {v : Json} (hv : v.Sound) :
    Decoder.value.field (some (v.reread maxNesting)) = some (some v) ↔ v.Storable := by
  by_cases h : v = .null
  · subst h
    simp [Storable, Decoder.field, Decoder.option]
  · rw [field_reread h, Option.map_eq_some_iff]
    simp [Storable, h, value_reread_iff hv.settled]

/-- A text for each key. -/
theorem plain_fields (ps : List (String × String)) :
    SoundFields (ps.map fun p => (p.1, .str p.2)) ∧
      nestingFields (ps.map fun p => (p.1, .str p.2)) = 0 ∧
      ExactFields (ps.map fun p => (p.1, .str p.2)) := by
  induction ps with
  | nil => exact ⟨trivial, rfl, trivial⟩
  | cons p ps ih =>
    obtain ⟨sound, nesting, exact_⟩ := ih
    exact ⟨⟨trivial, sound⟩, by simpa [nestingFields, Json.nesting] using nesting, trivial, exact_⟩

theorem plain_items {vs : List Json} (h : ∀ v ∈ vs, v.nesting = 0 ∧ v.Exact) :
    nestingItems vs = 0 ∧ ExactItems vs := by
  induction vs with
  | nil => exact ⟨rfl, trivial⟩
  | cons v vs ih =>
    rw [List.forall_mem_cons] at h
    obtain ⟨⟨hnesting, hexact⟩, hvs⟩ := h
    obtain ⟨nesting, exact_⟩ := ih hvs
    exact ⟨by rw [nestingItems, hnesting, nesting]; rfl, hexact, exact_⟩

end Json

/-! ### Bodies -/

namespace PartValue

theorem kept_plain (v : PartValue) : v.kept.nesting ≤ 2 ∧ v.kept.Exact := by
  cases v with
  | text s => exact ⟨Nat.zero_le 2, trivial⟩
  | file name type data =>
    have byte : ∀ v ∈ data.map fun b => Json.nat b.toNat, v.nesting = 0 ∧ v.Exact := fun v hv => by
      obtain ⟨b, -, rfl⟩ := List.mem_map.mp hv
      exact ⟨rfl, Number.reread_int (sound_byte b)⟩
    obtain ⟨nesting, exact_⟩ := Json.plain_items byte
    cases type <;>
      exact ⟨by simp [kept, Json.nesting, Json.nestingFields, Json.ofOption, nesting],
        trivial, exact_, trivial, trivial, trivial⟩

end PartValue

namespace MultipartPart

theorem kept_plain (p : MultipartPart) : p.kept.nesting ≤ 3 ∧ p.kept.Exact := by
  obtain ⟨nesting, exact_⟩ := p.value.kept_plain
  refine ⟨?_, trivial, exact_, trivial⟩
  simp only [kept, Json.nesting, Json.nestingFields]
  omega

theorem keptItems_plain (parts : List MultipartPart) : Json.SoundItems (parts.map kept) ∧
    Json.nestingItems (parts.map kept) ≤ 3 ∧ Json.ExactItems (parts.map kept) := by
  induction parts with
  | nil => exact ⟨trivial, Nat.zero_le 3, trivial⟩
  | cons p parts ih =>
    obtain ⟨sound, nesting, exact_⟩ := ih
    obtain ⟨pnesting, pexact⟩ := p.kept_plain
    exact ⟨⟨p.sound_kept, sound⟩, Nat.max_le.mpr ⟨pnesting, nesting⟩, pexact, exact_⟩

end MultipartPart

namespace RequestBody

/-- Which bodies come through the queue. -/
def Storable : RequestBody → Prop
  | .json v => v.Storable
  | .multipart parts => ∀ p ∈ parts, p.value.isFile = true
  | _ => True

/-- A body that is not JSON is kept as a plain value. -/
theorem toValue?_storable {b : RequestBody} (hb : b.Sound) (hstorable : b.Storable) {v : Json}
    (hv : b.toValue? = some v) : v.Sound ∧ v.Storable := by
  cases b with
  | empty => cases hv
  | json w => exact Option.some.inj hv ▸ ⟨hb, hstorable⟩
  | raw s => exact Option.some.inj hv ▸ ⟨trivial, Json.noConfusion, Nat.zero_le _, trivial⟩
  | form ps =>
    obtain ⟨sound, nesting, exact_⟩ := Json.plain_fields ps
    have ascending : Json.Ascending (ps.map fun p => (p.1, .str p.2)) := List.pairwise_map.mpr hb
    rw [toValue?, Json.ofFields, Json.extend_nil ascending] at hv
    refine Option.some.inj hv ▸ ⟨⟨ascending, sound⟩, Json.noConfusion, ?_, exact_⟩
    rw [Json.nesting, nesting]
    decide
  | multipart parts =>
    obtain ⟨sound, nesting, exact_⟩ := MultipartPart.keptItems_plain parts
    rw [toValue?_multipart hstorable] at hv
    refine Option.some.inj hv ▸
      ⟨⟨Json.ascending_of_keys ["type", "value"] rfl (by decide), trivial, sound, trivial⟩,
        Json.noConfusion, ?_, trivial, exact_, trivial⟩
    have : 5 ≤ maxNesting := by decide
    simp only [Json.nesting, Json.nestingFields]
    omega

theorem kept_storable {b : RequestBody} (hb : b.Sound) (hstorable : b.Storable) : b.kept = b := by
  cases b with
  | form ps =>
    have ascending : Json.Ascending (ps.map fun p => (p.1, .str p.2)) := List.pairwise_map.mpr hb
    rw [kept, Json.extend_nil ascending, List.map_map]
    exact congrArg form (List.map_id' ps)
  | multipart parts => rw [kept, if_pos (List.all_eq_true.mpr hstorable)]
  | _ => rfl

/-- A body is made again from what is read of its value exactly if it is storable. -/
theorem reread_iff {b : RequestBody} (hb : b.Sound) :
    (∃ o, Decoder.value.field (b.toValue?.map (·.reread maxNesting)) = some o ∧
      o.elim (.ok empty) (fun v => ofStored v (b.storedEncoding?.getD .json)) = .ok b) ↔
        b.Storable := by
  constructor
  · rintro ⟨o, hread, hmade⟩
    cases b with
    | json v =>
      cases o with
      | none => cases hmade
      | some w =>
        obtain rfl : w = v := by simpa [ofStored, storedEncoding?] using hmade
        exact (Json.field_storable hb).mp hread
    | multipart parts =>
      refine Classical.byContradiction fun h => ?_
      obtain ⟨p, hp, htext⟩ : ∃ p ∈ parts, p.value.isFile = false := by simpa [Storable] using h
      rw [toValue?_text hp htext] at hread
      cases hread
      cases hmade
    | _ => trivial
  · intro h
    have made := ofStored_toValue b
    rw [kept_storable hb h] at made
    cases hv : b.toValue? with
    | none => exact ⟨none, rfl, hv ▸ made⟩
    | some v =>
      obtain ⟨sound, storable⟩ := toValue?_storable hb h hv
      exact ⟨some v, (Json.field_storable sound).mpr storable, hv ▸ made⟩

end RequestBody

/-! ### Events -/

theorem Decoder.exists_map {α : Type} {d : Decoder α} {format : Format}
    {fields : List (String × Source)} (h : ∀ f ∈ fields, ∃ a, d f.2 = some a) :
    ∃ as, (Decoder.map d).field (some (.obj format fields)) = some (some as) := by
  obtain ⟨as, has⟩ : ∃ as, (fields.mapM fun f => (d f.2).map fun a => (f.1, a)) = some as := by
    induction fields with
    | nil => exact ⟨[], rfl⟩
    | cons f rest ih =>
      rw [List.forall_mem_cons] at h
      obtain ⟨⟨a, ha⟩, hrest⟩ := h
      obtain ⟨as, has⟩ := ih hrest
      exact ⟨(f.1, a) :: as, by simp [ha, has]⟩
  exact ⟨as.foldl (fun acc f => map.put acc f.1 f.2) [], by simp [field, option, map, has]⟩

namespace OfflineEvent

/-- Parameters and headers of an event are always read. -/
theorem exists_params (query : String) : ∃ params, (Decoder.map .value).field
    (some ((Json.obj (QueryParams.ofQuery query)).reread maxNesting)) = some (some params) := by
  rw [show maxNesting = 124 + 1 from rfl, Json.reread_obj]
  refine Decoder.exists_map fun f hf => ?_
  obtain ⟨g, hg, rfl⟩ := List.mem_map.mp hf
  have plain : g.2.nesting ≤ 124 ∧ g.2.Exact := by
    rcases (QueryParams.collected_ofQuery query).texts g hg with ⟨s, hs⟩ | ⟨ss, hs⟩
    · exact hs ▸ ⟨Nat.zero_le _, trivial⟩
    · have text : ∀ v ∈ ss.map Json.str, v.nesting = 0 ∧ v.Exact := fun v hv => by
        obtain ⟨s, -, rfl⟩ := List.mem_map.mp hv
        exact ⟨rfl, trivial⟩
      obtain ⟨nesting, exact_⟩ := Json.plain_items text
      rw [hs]
      exact ⟨by simp [Json.nesting, nesting], exact_⟩
  exact ⟨g.2.normalize, by rw [Decoder.value, Json.toJson?_reread plain.1 plain.2]; rfl⟩

theorem exists_headers_read (hs : Headers) : ∃ headers, (Decoder.map .string).field
    (some ((Json.obj (hs.map fun h => (h.1, .str h.2))).reread maxNesting)) =
      some (some headers) := by
  rw [show maxNesting = 124 + 1 from rfl, Json.reread_obj]
  refine Decoder.exists_map fun f hf => ?_
  obtain ⟨g, hg, rfl⟩ := List.mem_map.mp hf
  obtain ⟨h, -, rfl⟩ := List.mem_map.mp hg
  exact ⟨h.2, rfl⟩

/-- Only the values of an event decide whether it is read, and as what. -/
theorem reread?_ofRequest (id : String) (q : Request) (token : Option String) {stamp : Int}
    (hstamp : Bits.inInt64 stamp = true) : ∃ queryParams headers,
    reread? { ofRequest id q token with createdAt := stamp } = (do
      let vars ← Decoder.value.field ((ofRequest id q token).vars.map (·.reread maxNesting))
      let body ← Decoder.value.field ((ofRequest id q token).body.map (·.reread maxNesting))
      return { ofRequest id q token with vars, body, queryParams, headers, createdAt := stamp }) := by
  generalize he : ofRequest id q token = e
  obtain ⟨params, hparams⟩ : ∃ params, (Decoder.map .value).field
      (e.queryParams.map fun ps => (Json.obj ps).reread maxNesting) = some params := by
    have stored : e.queryParams = (Url.splitQuery q.url).2.map QueryParams.ofQuery := by
      rw [← he, ofRequest]
      cases q.graphql <;> rfl
    rw [stored]
    cases (Url.splitQuery q.url).2 with
    | none => exact ⟨none, rfl⟩
    | some query =>
      obtain ⟨params, h⟩ := exists_params query
      exact ⟨some params, h⟩
  obtain ⟨headers, hheaders⟩ : ∃ headers, (Decoder.map .string).field
      (e.headers.map fun hs => (Json.obj (hs.map fun h => (h.1, .str h.2))).reread maxNesting) =
        some headers := by
    cases e.headers with
    | none => exact ⟨none, rfl⟩
    | some hs =>
      obtain ⟨headers, h⟩ := exists_headers_read hs
      exact ⟨some headers, h⟩
  refine ⟨params, headers, ?_⟩
  rw [reread?, decode_reread, hparams, hheaders, Decoder.int64_reread hstamp]
  rfl

end OfflineEvent

/-! ### Requests -/

/-- Which requests come through the queue with their body and their variables. -/
def Request.Storable (q : Request) : Prop :=
  match q.graphql with
  | some c => q.method ≠ .websocket ∧ c.vars.Storable
  | none => q.body.Storable

namespace OfflineQueue

open OfflineEvent

/-- The text of one event is read as one event, or not at all. -/
theorem ofText_single {e e' : OfflineEvent} :
    ofText (toText [e]) = .ok [e'] ↔ e.reread? = some e' := by
  rw [ofText_toText_iff, List.mapM_cons]
  cases e.reread? with
  | none => simp
  | some e₁ => simp [sortByStamp, eq_comm]

/-- Body and call of a request depend on the values of the event alone. -/
theorem exists_toRequest {e : OfflineEvent} {base : String} (h : e.url = some base)
    (vars body : Option Json) (queryParams : Option (List (String × Json)))
    (headers : Option Headers) (createdAt : Int) {P : RequestBody → Option GraphqlCall → Prop} :
    (∃ q, toRequest { e with vars, body, queryParams, headers, createdAt } = .ok q ∧
      P q.body q.graphql) ↔ ∃ p, payload { e with vars, body } = .ok p ∧ P p.1 p.2 := by
  have same : payload { e with vars, body, queryParams, headers, createdAt } =
      payload { e with vars, body } := rfl
  rw [toRequest_eq (show OfflineEvent.url { e with vars, body, queryParams, headers, createdAt } =
    some base from h), same]
  cases payload { e with vars, body } <;> simp [Except.map]

/-- What of a queued request is made again, body and call, from the values that are read back. -/
def Remade (id : String) (q : Request) (token : Option String)
    (P : RequestBody → Option GraphqlCall → Prop) : Prop :=
  ∃ vars body p,
    Decoder.value.field ((ofRequest id q token).vars.map (·.reread maxNesting)) = some vars ∧
    Decoder.value.field ((ofRequest id q token).body.map (·.reread maxNesting)) = some body ∧
    payload { ofRequest id q token with vars, body } = .ok p ∧ P p.1 p.2

theorem remade_iff (id : String) (q : Request) (token : Option String) {stamp : Int}
    (hstamp : Bits.inInt64 stamp = true) (P : RequestBody → Option GraphqlCall → Prop) :
    (∃ e q', ofText (toText [{ ofRequest id q token with createdAt := stamp }]) = .ok [e] ∧
      e.toRequest = .ok q' ∧ P q'.body q'.graphql) ↔ Remade id q token P := by
  obtain ⟨params, headers, hread⟩ := reread?_ofRequest id q token hstamp
  have url : (ofRequest id q token).url = some (Url.splitQuery q.url).1 := by
    rw [ofRequest]
    cases q.graphql <;> rfl
  rw [Remade]
  generalize ofRequest id q token = e at hread url ⊢
  constructor
  · rintro ⟨e', q', hstored, hmade, hP⟩
    rw [ofText_single, hread] at hstored
    simp only [Option.bind_eq_bind, Option.bind_eq_some_iff, Option.pure_def,
      Option.some.injEq] at hstored
    obtain ⟨vars, hvars, body, hbody, rfl⟩ := hstored
    obtain ⟨p, hp, hP⟩ := (exists_toRequest url vars body params headers stamp).mp ⟨q', hmade, hP⟩
    exact ⟨vars, body, p, hvars, hbody, hp, hP⟩
  · rintro ⟨vars, body, p, hvars, hbody, hp, hP⟩
    obtain ⟨q', hmade, hP⟩ :=
      (exists_toRequest url vars body params headers stamp).mpr ⟨p, hp, hP⟩
    refine ⟨_, q', ofText_single.mpr ?_, hmade, hP⟩
    rw [hread, hvars, hbody]
    rfl

theorem ofRequest_plain (id : String) {q : Request} (token : Option String)
    (hq : q.graphql = none) (vars body : Option Json) :
    (ofRequest id q token).vars = none ∧ (ofRequest id q token).body = q.body.toValue? ∧
    payload { ofRequest id q token with vars, body } = (body.elim (.ok .empty) fun v =>
      RequestBody.ofStored v (q.body.storedEncoding?.getD .json)).map (·, none) := by
  simp [ofRequest, hq, payload]

theorem ofRequest_call (id : String) {q : Request} (token : Option String) {c : GraphqlCall}
    (hq : q.graphql = some c) (vars body : Option Json) :
    (ofRequest id q token).vars = some c.vars ∧ (ofRequest id q token).body = none ∧
    payload { ofRequest id q token with vars, body } =
      .ok (.json { c with vars := vars.getD .empty }.wireBody,
        some { c with vars := vars.getD .empty }) := by
  have operation : Operation.ofName? c.operation.name = some c.operation := by
    cases c.operation <;> rfl
  simp [ofRequest, hq, payload, operation]

/-- The variables of a call are read back exactly if they are storable. -/
theorem vars_reread_iff {v : Json} (hv : v.Sound) :
    (∃ vars, Decoder.value.field (some (v.reread maxNesting)) = some vars ∧
      vars.getD .empty = v) ↔ v.Storable := by
  constructor
  · rintro ⟨vars, hread, hsame⟩
    have hnull : v ≠ .null := by
      rintro rfl
      cases hread
      cases hsame
    have read := hread
    rw [Json.field_reread hnull] at read
    obtain ⟨w, -, rfl⟩ := Option.map_eq_some_iff.mp read
    rw [show w = v from hsame] at hread
    exact (Json.field_storable hv).mp hread
  · intro h
    exact ⟨some v, (Json.field_storable hv).mpr h, rfl⟩

theorem remade_plain {q : Request} (hq : q.graphql = none) (hbody : q.body.Sound) (id : String)
    (token : Option String) : Remade id q token (fun b c => b = q.body ∧ c.map (·.vars) = none) ↔
      q.body.Storable := by
  rw [← RequestBody.reread_iff hbody]
  constructor
  · rintro ⟨vars, o, p, -, hread, hmade, hsame, -⟩
    obtain ⟨-, stored, made⟩ := ofRequest_plain id token hq vars o
    rw [stored] at hread
    rw [made, Except.map.eq_def] at hmade
    split at hmade
    · cases hmade
    · rename_i b hb
      cases hmade
      exact ⟨o, hread, hb.trans (congrArg Except.ok hsame)⟩
  · rintro ⟨o, hread, hmade⟩
    obtain ⟨empty, stored, made⟩ := ofRequest_plain id token hq none o
    refine ⟨none, o, (q.body, none), ?_, stored ▸ hread, ?_, rfl, rfl⟩
    · rw [empty]
      rfl
    · rw [made, hmade]
      rfl

theorem remade_call {q : Request} {c : GraphqlCall} (hq : q.graphql = some c)
    (hvars : c.vars.Sound)
    (hbody : q.body = if q.method == .websocket then .empty else .json c.wireBody) (id : String)
    (token : Option String) :
    Remade id q token (fun b c' => b = q.body ∧ c'.map (·.vars) = some c.vars) ↔
      q.method ≠ .websocket ∧ c.vars.Storable := by
  rw [← vars_reread_iff hvars]
  constructor
  · rintro ⟨vars, o, p, hread, -, hmade, hsame, hcall⟩
    obtain ⟨stored, -, made⟩ := ofRequest_call id token hq vars o
    rw [stored] at hread
    rw [made] at hmade
    cases hmade
    refine ⟨fun socket => ?_, vars, hread, Option.some.inj hcall⟩
    rw [hbody, socket] at hsame
    cases hsame
  · rintro ⟨posted, vars, hread, hsame⟩
    obtain ⟨stored, empty, made⟩ := ofRequest_call id token hq vars none
    refine ⟨vars, none, _, stored ▸ hread, ?_, made, ?_, congrArg some hsame⟩
    · rw [empty]
      rfl
    · rw [hbody, hsame, if_neg (by simpa using posted)]

/-- The request of an event that was written and read again carries the body and the variables of the
request that was queued. -/
def Survives (id : String) (q : Request) (token : Option String) (stamp : Int) : Prop :=
  ∃ e q', ofText (toText [{ ofRequest id q token with createdAt := stamp }]) = .ok [e] ∧
    e.toRequest = .ok q' ∧ q'.body = q.body ∧ q'.graphql.map (·.vars) = q.graphql.map (·.vars)

theorem survives_resolved {q : Request} (resolved : q.Resolved) (id : String)
    (token : Option String) {stamp : Int} (hstamp : Bits.inInt64 stamp = true) :
    Survives id q token stamp ↔ q.Storable := by
  rw [Survives, remade_iff id q token hstamp fun b c =>
    b = q.body ∧ c.map (·.vars) = q.graphql.map (·.vars)]
  cases hq : q.graphql with
  | none =>
    rw [Request.Storable, hq]
    exact remade_plain hq (resolved.body hq) id token
  | some c =>
    obtain ⟨hvars, hcall⟩ := resolved.call c hq
    rw [Request.Storable, hq]
    exact remade_call hq hvars hcall id token

section Resolve

variable {r : Resolver} {d : DataSource} {g : Defaults} {scope : Json} {body : Option Json}
  {q : Request}

/-- A resolved request survives the queue exactly if it is storable. -/
theorem survives_iff (hscope : scope.Sound) (hd : d.Sound) (hbody : ∀ v ∈ body, v.Sound)
    (h : r.resolve d g scope body = .ok q) (id : String) (token : Option String) {stamp : Int}
    (hstamp : Bits.inInt64 stamp = true) : Survives id q token stamp ↔ q.Storable :=
  survives_resolved (Resolver.resolve_resolved hscope hd hbody h) id token hstamp

end Resolve

/-- A source that posts a multipart body of one field. -/
def upload (field : Json) : DataSource where
  id := "up"
  method := some .post
  path := "https://a/up"
  body := some (.obj [("doc", field)])
  bodyEncoding := .multipart

theorem upload_sound {field : Json} (h : field.Sound) : (upload field).Sound where
  vars := nofun
  body := fun v hv => by
    cases hv
    exact ⟨List.pairwise_singleton _ _, h, trivial⟩

/-- The request that a source makes of nothing but its own values. -/
def uploaded (part : PartValue) : Request where
  dataSourceId := "up"
  method := .post
  url := "https://a/up"
  body := .multipart [⟨"doc", part⟩]

/-- A file survives. -/
theorem survives_iff_file :
    (upload (.obj [("content", .str "x"), ("filename", .str "a.txt")])).Sound ∧
    Resolver.resolve {} (upload (.obj [("content", .str "x"), ("filename", .str "a.txt")])) {} .empty
      none = .ok (uploaded (.file "a.txt" none [120])) ∧
    Survives "e1" (uploaded (.file "a.txt" none [120])) none 1 := by
  have sound : (upload (.obj [("content", .str "x"), ("filename", .str "a.txt")])).Sound :=
    upload_sound
      ⟨Json.ascending_of_keys ["content", "filename"] rfl (by decide), trivial, trivial, trivial⟩
  have resolved := ok_of_toOption (show (Resolver.resolve {}
    (upload (.obj [("content", .str "x"), ("filename", .str "a.txt")])) {} .empty none).toOption =
      some (uploaded (.file "a.txt" none [120])) by decide +kernel)
  have storable : (uploaded (.file "a.txt" none [120])).Storable := by
    simp [Request.Storable, uploaded, RequestBody.Storable, PartValue.isFile]
  have given : ∀ v ∈ (none : Option Json), v.Sound := by simp
  exact ⟨sound, resolved,
    (survives_iff Json.empty_sound sound given resolved "e1" none (by decide)).mpr storable⟩

/-- Every request that changes the server survives the queue. -/
def MutationsSurvive : Prop :=
  ∀ (r : Resolver) (d : DataSource) (g : Defaults) (scope : Json) (body : Option Json) (q : Request)
    (id : String) (token : Option String) (stamp : Int), scope.Sound → d.Sound →
    (∀ v ∈ body, v.Sound) → r.resolve d g scope body = .ok q → q.isMutating = true →
    Bits.inInt64 stamp = true → Survives id q token stamp

/-- A text among the parts of a body loses the body. -/
theorem not_mutationsSurvive : ¬ MutationsSurvive := by
  intro survive
  have sound : (upload (.str "hello")).Sound := upload_sound trivial
  have given : ∀ v ∈ (none : Option Json), v.Sound := by simp
  have resolved := ok_of_toOption (show (Resolver.resolve {} (upload (.str "hello")) {} .empty
    none).toOption = some (uploaded (.text "hello")) by decide +kernel)
  have survives := survive {} (upload (.str "hello")) {} .empty none (uploaded (.text "hello")) "e1"
    none 1 Json.empty_sound sound given resolved rfl (by decide)
  rw [survives_resolved (Resolver.resolve_resolved Json.empty_sound sound given resolved) "e1" none
    (by decide)] at survives
  simp [Request.Storable, uploaded, RequestBody.Storable, PartValue.isFile] at survives

end OfflineQueue

end ScreenFlow
