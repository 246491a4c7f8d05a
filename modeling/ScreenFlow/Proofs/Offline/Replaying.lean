import ScreenFlow.Offline.Snapshot
import ScreenFlow.Proofs.Http.Headers
import ScreenFlow.Proofs.Json.Decoding
import ScreenFlow.Proofs.Offline.QueryParams

/-!
# Requests that are replayed

A queued event is made into the request that it was made from. Only the order of query parameters and
the spelling of the session header may differ. The body is made again from a value that is kept for
it.

* `MultipartPart.decode_kept`: a file is read back from the value that is kept for it;
* `RequestBody.ofStored_toValue`: what every body is made again as;
* `OfflineEvent.toRequest_ofRequest`: the request that an event is made into;
* `OfflineEvent.resent_faithful`: with the session token of the moment it is the request once more.
-/

/-! ## Bodies -/

namespace ScreenFlow

open RecordReader (present)

namespace PartValue

def isFile : PartValue → Bool
  | file .. => true
  | text _ => false

/-- The value that is kept for a file, its keys in order; there is none for a text. -/
def kept : PartValue → Json
  | text _ => .null
  | file name type data =>
    .obj [("content_type", .ofOption .str type), ("data", .arr (data.map fun b => .nat b.toNat)),
      ("filename", .str name), ("kind", .str "file")]

theorem sound_byte (b : UInt8) : (Number.int b.toNat).Sound := by
  have := b.toNat_lt
  refine Bool.and_eq_true_iff.mpr ⟨decide_eq_true ?_, decide_eq_true ?_⟩
  · simp only [Bits.minInt64, Bits.values, Nat.pow_eq]
    omega
  · simp only [Bits.values, Nat.pow_eq]
    omega

theorem sound_bytes (data : Bytes) : Json.SoundItems (data.map fun b => .nat b.toNat) := by
  rw [Json.soundItems_iff]
  intro v hv
  obtain ⟨b, -, rfl⟩ := List.mem_map.mp hv
  exact sound_byte b

theorem sound_kept (v : PartValue) : v.kept.Sound := by
  cases v with
  | text s => trivial
  | file name type data =>
    refine ⟨Json.ascending_of_keys ["content_type", "data", "filename", "kind"] rfl (by decide), ?_⟩
    cases type <;> exact ⟨trivial, sound_bytes data, trivial, trivial, trivial⟩

theorem toJson?_kept {v : PartValue} (h : v.isFile = true) :
    v.toJson?.map Json.normalize = some v.kept := by
  cases v with
  | text s => cases h
  | file name type data =>
    obtain ⟨ascending, stype, sdata, sname, skind, -⟩ := sound_kept (.file name type data)
    -- the fields are written in another order than the one in which they are kept
    have order (k f c d : String × Json) : [k, f, c, d].Perm [c, d, f, k] := by
      have halves : ([k, f] ++ [c, d]).Perm ([c, d] ++ [k, f]) := List.perm_append_comm
      exact halves.trans (.append_left [c, d] (.swap f k []))
    have sound : Json.SoundFields [("kind", .str "file"), ("filename", .str name),
        ("content_type", .ofOption .str type), ("data", .arr (data.map fun b => .nat b.toNat))] :=
      ⟨skind, sname, stype, sdata, trivial⟩
    rw [toJson?, Option.map_some, Json.normalize, Json.normalizeFields_sound sound,
      Json.extend_of_perm (order _ _ _ _) ascending, kept]

theorem decodeByte_nat (b : UInt8) : decodeByte (.num (.int b.toNat)) = some b := by
  have := b.toNat_lt
  simp [decodeByte, Decoder.natBelow, Number.toNatBelow?, Bits.values]
  omega

theorem decode_bytes (data : Bytes) :
    (Source.writtenItems .json (data.map fun b => .nat b.toNat)).mapM decodeByte = some data := by
  induction data with
  | nil => rfl
  | cons b rest ih =>
    rw [List.map_cons, Source.writtenItems, List.mapM_cons, ih]
    exact congrArg (·.bind fun a => some (a :: rest)) (decodeByte_nat b)

/-- A file is read from its fields. -/
theorem decodeFile_fields (type data : Source) (name : String) :
    decodeFile (.obj .json [("content_type", type), ("data", data), ("filename", .str name)]) = (do
      let type ← Decoder.string.field (some type)
      let data ← Decoder.list decodeByte data
      return .file name type data) := by
  let fields : List (String × Option Source) :=
    [("content_type", some type), ("data", some data), ("filename", some (.str name))]
  have nodup : (fields.map (·.1)).Nodup := by simp [fields]
  show ((do
    return PartValue.file (← .required "filename" .string) (← .optionalByName "content_type" .string)
      (← .required "data" (.list decodeByte)) : RecordReader PartValue).run
        (.named (present fields))).map (·.1) = _
  simp only [RecordReader.bind_required nodup, RecordReader.bind_optionalByName nodup]
  simp [fields, List.lookup_cons, Decoder.string, Function.comp_def]

theorem decode_kept {v : PartValue} (h : v.isFile = true) :
    decode true (Source.ofJson v.kept) = some v := by
  cases v with
  | text s => cases h
  | file name type data =>
    have readable : (Source.ofJson (kept (.file name type data))).isReadable = true := by
      rw [Source.isReadable, Source.ofJson, Source.toJson?_written]
      rfl
    rw [decode, Decoder.whole, if_pos readable]
    refine (decodeFile_fields _ _ name).trans ?_
    have ofType : Decoder.string.field (some (Source.written .json (.ofOption .str type))) =
        some type := by cases type <;> rfl
    simp [ofType, Source.written, Decoder.list, decode_bytes]

end PartValue

namespace MultipartPart

/-- The value that is kept for a part. -/
def kept (p : MultipartPart) : Json := .obj [("name", .str p.name), ("value", p.value.kept)]

theorem sound_kept (p : MultipartPart) : p.kept.Sound :=
  ⟨Json.ascending_of_keys ["name", "value"] rfl (by decide), trivial, p.value.sound_kept, trivial⟩

theorem toJson?_kept {p : MultipartPart} (h : p.value.isFile = true) :
    p.toJson?.map Json.normalize = some p.kept := by
  obtain ⟨v, hv, hkept⟩ := Option.map_eq_some_iff.mp (PartValue.toJson?_kept h)
  rw [toJson?, hv, Option.map_some, Option.map_some, ← Json.normalize_sound p.sound_kept, kept]
  simp only [Json.normalize, Json.normalizeFields, hkept, Json.normalize_sound p.value.sound_kept]

theorem decode_kept {p : MultipartPart} (h : p.value.isFile = true) :
    decode true (Source.ofJson p.kept) = some p := by
  let fields : List (String × Option Source) :=
    [("name", some (.str p.name)), ("value", some (Source.ofJson p.value.kept))]
  have nodup : (fields.map (·.1)).Nodup := by simp [fields]
  show ((do
    return { name := ← .required "name" .string
             value := ← .required "value" (PartValue.decode true) } : RecordReader MultipartPart).run
      (.named (present fields))).map (·.1) = _
  simp only [RecordReader.bind_required nodup]
  simp [fields, List.lookup_cons, Decoder.string, PartValue.decode_kept h]

end MultipartPart

namespace RequestBody

/-- What a body is made again as. Each key of a form stays once, in order, and a multipart body that
has a text among its parts is lost. -/
def kept : RequestBody → RequestBody
  | form ps =>
    .form ((Json.extend [] (ps.map fun p => (p.1, .str p.2))).map fun f =>
      (f.1, QueryParams.text f.2))
  | multipart parts => if parts.all (·.value.isFile) then multipart parts else empty
  | b => b

theorem toValue?_multipart {parts : List MultipartPart}
    (h : ∀ p ∈ parts, p.value.isFile = true) : (multipart parts).toValue? =
      some (.obj [("type", .str "multipart"), ("value", .arr (parts.map MultipartPart.kept))]) := by
  obtain ⟨items, hitems, hkept⟩ : ∃ items, parts.mapM MultipartPart.toJson? = some items ∧
      Json.normalizeItems items = parts.map MultipartPart.kept := by
    induction parts with
    | nil => exact ⟨[], rfl, rfl⟩
    | cons p rest ih =>
      rw [List.forall_mem_cons] at h
      obtain ⟨v, hv, hkept⟩ := Option.map_eq_some_iff.mp (MultipartPart.toJson?_kept h.1)
      obtain ⟨items, hitems, ih⟩ := ih h.2
      exact ⟨v :: items, by simp [hv, hitems], by simp [Json.normalizeItems, hkept, ih]⟩
  have ascending : Json.Ascending [("type", .str "multipart"),
      ("value", .arr (parts.map MultipartPart.kept))] :=
    Json.ascending_of_keys ["type", "value"] rfl (by decide)
  simp only [toValue?, toJson?, toJson?.tagged, hitems, Option.map_some, Json.normalize,
    Json.normalizeFields, hkept, Json.extend_nil ascending]

theorem toValue?_text {parts : List MultipartPart} {p : MultipartPart} (hp : p ∈ parts)
    (h : p.value.isFile = false) : (multipart parts).toValue? = none := by
  suffices parts.mapM MultipartPart.toJson? = none by simp [toValue?, toJson?, this]
  induction parts with
  | nil => cases hp
  | cons q rest ih =>
    rw [List.mapM_cons]
    rcases List.mem_cons.mp hp with rfl | later
    · cases hv : p.value with
      | text s => simp [MultipartPart.toJson?, PartValue.toJson?, hv]
      | file name type data => simp [hv, PartValue.isFile] at h
    · cases q.toJson? <;> simp [ih later]

/-- Every body can be made again. -/
theorem ofStored_toValue (b : RequestBody) :
    b.toValue?.elim (.ok empty) (fun v => ofStored v (b.storedEncoding?.getD .json)) =
      .ok b.kept := by
  cases b with
  | empty | json | raw | form => rfl
  | multipart parts =>
    by_cases h : ∀ p ∈ parts, p.value.isFile = true
    · rw [toValue?_multipart h, kept, if_pos (List.all_eq_true.mpr h)]
      have read : (Source.writtenItems .json (parts.map MultipartPart.kept)).mapM
          (MultipartPart.decode true) = some parts := by
        induction parts with
        | nil => rfl
        | cons p rest ih =>
          rw [List.forall_mem_cons] at h
          rw [List.map_cons, Source.writtenItems, List.mapM_cons, ih h.2,
            show MultipartPart.decode true (Source.written .json p.kept) = some p from
              MultipartPart.decode_kept h.1]
          rfl
      simp [ofStored, decode, Source.ofJson, Source.written, Source.writtenFields, storedEncoding?,
        decodeTag, Decoder.choice, decodeTagged, Decoder.list, read]
    · obtain ⟨p, hp, htext⟩ : ∃ p ∈ parts, p.value.isFile = false := by simpa using h
      rw [toValue?_text hp htext, kept, if_neg (by simpa using h)]
      rfl

end RequestBody

end ScreenFlow

/-! ## Requests -/

namespace ScreenFlow

namespace OfflineEvent

/-! ### What an event is made into -/

/-- The body of an event's request, and its call. -/
def payload (e : OfflineEvent) : Except Fault (RequestBody × Option GraphqlCall) :=
  match e.kind with
  | .graphql =>
    match e.query with
    | none => .error (.validation s!"queued event {e.id} has no GraphQL query")
    | some query =>
      let call : GraphqlCall := {
        operation := (e.operation.bind Operation.ofName?).getD .mutation
        query
        vars := e.vars.getD .empty }
      .ok (.json call.wireBody, some call)
  | .rest | .action =>
    (e.body.elim (.ok .empty) fun body => RequestBody.ofStored body (e.encoding.getD .json)).map
      (·, none)

theorem toRequest_eq {e : OfflineEvent} {base : String} (h : e.url = some base) :
    e.toRequest = e.payload.map fun p => {
      dataSourceId := e.dsId
      method := e.method.getD (if e.kind == .graphql then .graphql else .post)
      url := fullUrl base (e.queryParams.getD [])
      headers := e.headers.getD []
      credentials := e.credentials.getD .sameOrigin
      body := p.1, graphql := p.2 } := by
  rw [toRequest, h, payload]
  cases e.kind with
  | graphql => cases e.query <;> rfl
  | rest | action =>
    cases e.body with
    | none => rfl
    | some body =>
      dsimp only [Option.elim]
      cases RequestBody.ofStored body (e.encoding.getD .json) <;> rfl

theorem payload_ofRequest (id : String) (r : Request) (token : Option String) :
    (ofRequest id r token).payload = .ok (match r.graphql with
      | some g => (.json g.wireBody, some g)
      | none => (r.body.kept, none)) := by
  cases hg : r.graphql with
  | some g =>
    have op : Operation.ofName? g.operation.name = some g.operation := by
      cases g.operation <;> rfl
    simp [ofRequest, hg, payload, op]
  | none =>
    simp only [ofRequest, hg, payload]
    rw [RequestBody.ofStored_toValue]
    rfl

/-- The request that an event is made into. -/
def replayed (r : Request) (token : Option String) : Request where
  dataSourceId := r.dataSourceId
  method := r.method
  url := fullUrl (Url.splitQuery r.url).1 (QueryParams.ofQuery ((Url.splitQuery r.url).2.getD ""))
  headers := r.headers.filter (!isSessionHeader token ·)
  body := r.graphql.elim r.body.kept fun g => .json g.wireBody
  credentials := r.credentials
  graphql := r.graphql

theorem toRequest_ofRequest (id : String) (r : Request) (token : Option String) :
    (ofRequest id r token).toRequest = .ok (replayed r token) := by
  have url : (ofRequest id r token).url = some (Url.splitQuery r.url).1 := by
    cases hg : r.graphql <;> simp [ofRequest, hg]
  rw [toRequest_eq url, payload_ofRequest]
  have params : ((Url.splitQuery r.url).2.map QueryParams.ofQuery).getD [] =
      QueryParams.ofQuery ((Url.splitQuery r.url).2.getD "") := by
    cases (Url.splitQuery r.url).2 <;> rfl
  have headers : (if (r.headers.filter (!isSessionHeader token ·)).isEmpty then none
      else some (r.headers.filter (!isSessionHeader token ·))).getD [] =
        r.headers.filter (!isSessionHeader token ·) := by
    cases r.headers.filter (!isSessionHeader token ·) <;> rfl
  have credentials : (if r.credentials == .sameOrigin then none else some r.credentials).getD
      .sameOrigin = r.credentials := by
    cases r.credentials <;> rfl
  cases hg : r.graphql <;>
    simp only [ofRequest, replayed, hg, Except.map, params, headers, credentials,
      Option.getD_some, Option.elim]

/-! ### The session header -/

/-- A header as it is sent again: the session header under its usual name. -/
def respelled (token : String) (h : String × String) : String × String :=
  if isSessionHeader (some token) h then (authorizationHeader, h.2) else h

theorem isSessionHeader_iff {token : String} {h : String × String} :
    isSessionHeader (some token) h = true ↔
      Text.sameName h.1 authorizationHeader = true ∧ h.2 = bearerValue token := by
  rw [isSessionHeader, Bool.and_eq_true, Option.map_some, beq_iff_eq, Option.some.injEq, eq_comm (a := h.2)]

/-- Where the session header is, no other header has its name. -/
theorem exists_session {headers : Headers} {token : String}
    (distinct : headers.Pairwise fun a b => Text.sameName a.1 b.1 = false)
    (h : headers.any (isSessionHeader (some token)) = true) :
    ∃ before session after, headers = before ++ session :: after ∧
      isSessionHeader (some token) session = true ∧
      ∀ g ∈ before ++ after, Text.sameName g.1 authorizationHeader = false := by
  obtain ⟨session, hmem, hsession⟩ := List.any_eq_true.mp h
  obtain ⟨before, after, rfl⟩ := List.append_of_mem hmem
  refine ⟨before, session, after, rfl, hsession, fun g hg => ?_⟩
  have name : Text.lower session.1 = Text.lower authorizationHeader :=
    eq_of_beq (isSessionHeader_iff.mp hsession).1
  rw [List.pairwise_append, List.pairwise_cons] at distinct
  rw [Text.sameName, ← name]
  rcases List.mem_append.mp hg with hbefore | hafter
  · exact distinct.2.2 g hbefore session List.mem_cons_self
  · have other := distinct.2.1.1 g hafter
    rwa [Text.sameName, BEq.comm] at other

theorem map_respelled {headers : Headers} {token : String}
    (h : ∀ g ∈ headers, isSessionHeader (some token) g = false) :
    headers.map (respelled token) = headers := by
  have same : ∀ g ∈ headers, respelled token g = g := fun g hg => by
    simp [respelled, h g hg]
  exact (List.map_congr_left same).trans (List.map_id' headers)

/-- The session header is taken out, and put back under its usual name. -/
theorem headers_resent {headers : Headers} {token : String} (nonempty : token ≠ "")
    (distinct : headers.Pairwise fun a b => Text.sameName a.1 b.1 = false) {q : Request}
    (hq : q.headers = headers.filter (!isSessionHeader (some token) ·)) :
    (if headers.any (isSessionHeader (some token)) then (q.attachSession (some token)).2
      else q).headers.Perm (headers.map (respelled token)) := by
  cases had : headers.any (isSessionHeader (some token)) with
  | false =>
    have foreign : ∀ h ∈ headers, isSessionHeader (some token) h = false := by
      simpa using had
    have kept : q.headers = headers :=
      hq.trans (List.filter_eq_self.mpr fun h hh => by rw [foreign h hh]; rfl)
    rw [if_neg (by simp), kept, map_respelled foreign]
  | true =>
    obtain ⟨before, session, after, rfl, hsession, other⟩ := exists_session distinct had
    have foreign : ∀ h ∈ before ++ after, isSessionHeader (some token) h = false :=
      fun h hh => by rw [isSessionHeader, other h hh, Bool.false_and]
    have rest : q.headers = before ++ after := by
      rw [hq, List.filter_append, List.filter_cons_of_neg (by simp [hsession]), ← List.filter_append]
      exact List.filter_eq_self.mpr fun h hh => by rw [foreign h hh]; rfl
    have absent : q.headers.has authorizationHeader = false := by
      rw [rest]
      exact Headers.has_eq_false_iff.mpr other
    have live : Credential.nonempty (some token) = some token := by
      rw [Credential.nonempty, Option.filter_some, if_pos (by simpa using nonempty)]
    have attached : (q.attachSession (some token)).2 =
        q.setHeader authorizationHeader (bearerValue token) := by
      simp [Request.attachSession, Request.hasHeader, absent, live]
    obtain ⟨hbefore, hafter⟩ := List.forall_mem_append.mp foreign
    have put_back : respelled token session = (authorizationHeader, bearerValue token) := by
      rw [respelled, if_pos hsession, (isSessionHeader_iff.mp hsession).2]
    rw [if_pos rfl, attached, List.map_append, List.map_cons, map_respelled hbefore,
      map_respelled hafter, put_back]
    have set := Headers.set_perm absent (bearerValue token)
    have setHeader : (q.setHeader authorizationHeader (bearerValue token)).headers =
        q.headers.set authorizationHeader (bearerValue token) := rfl
    rw [setHeader]
    refine set.trans ?_
    rw [rest]
    exact List.perm_middle.symm

/-- Nothing but the headers changes when the session token is attached. -/
theorem exists_headers (q : Request) (live : Option String) (asks : Bool) :
    ∃ hs, (if asks then (q.attachSession live).2 else q) = { q with headers := hs } := by
  cases asks with
  | false => exact ⟨q.headers, rfl⟩
  | true =>
    rw [if_pos rfl, Request.attachSession]
    split
    · exact ⟨q.headers, rfl⟩
    split
    · exact ⟨_, rfl⟩
    · exact ⟨q.headers, rfl⟩

/-- The same request, up to the order of its query parameters, the spelling of the session header and
what becomes of its body. -/
structure Faithful (token : String) (r r' : Request) : Prop where
  source : r'.dataSourceId = r.dataSourceId
  method : r'.method = r.method
  credentials : r'.credentials = r.credentials
  graphql : r'.graphql = r.graphql
  headers : r'.headers.Perm (r.headers.map (respelled token))
  base : (Url.splitQuery r'.url).1 = (Url.splitQuery r.url).1
  params : FormFields.decode ((Url.splitQuery r'.url).2.getD "") =
    (FormFields.decode ((Url.splitQuery r.url).2.getD "")).mergeSort fun a b => decide (a.1 ≤ b.1)

theorem faithful_replayed {r : Request} {token : String} (nonempty : token ≠ "")
    (distinct : r.headers.Pairwise fun a b => Text.sameName a.1 b.1 = false) :
    Faithful token r (if r.headers.any (isSessionHeader (some token)) then
      ((replayed r (some token)).attachSession (some token)).2 else replayed r (some token)) := by
  have kept : (replayed r (some token)).headers =
      r.headers.filter (!isSessionHeader (some token) ·) := by rw [replayed]
  have url : (replayed r (some token)).url = fullUrl (Url.splitQuery r.url).1
      (QueryParams.ofQuery ((Url.splitQuery r.url).2.getD "")) := by rw [replayed]
  have headers := headers_resent nonempty distinct kept
  obtain ⟨hs, hhs⟩ := exists_headers (replayed r (some token)) (some token)
    (r.headers.any (isSessionHeader (some token)))
  obtain ⟨base, params⟩ := Url.splitQuery_fullUrl (Url.not_mem_base r.url)
    (QueryParams.ofQuery ((Url.splitQuery r.url).2.getD ""))
  rw [← url] at base params
  rw [QueryParams.pairs_ofQuery] at params
  rw [hhs] at headers ⊢
  -- The fields are projected first; otherwise unification compares the requests, and so the URLs.
  constructor <;> dsimp only
  case headers => exact headers
  case base => exact base
  case params => exact params
  all_goals simp only [replayed]

/-- An event with the session token of the moment is the request that it was made from. -/
theorem resent_faithful (id : String) (r : Request) {token : String} (nonempty : token ≠ "")
    (distinct : r.headers.Pairwise fun a b => Text.sameName a.1 b.1 = false) :
    let e := ofRequest id r (some token)
    (∃ q, e.toRequest = .ok q ∧
      Faithful token r (if e.sessionAuth then (q.attachSession (some token)).2 else q)) ∧
    ∀ h ∈ e.headers.getD [],
      Text.sameName h.1 authorizationHeader = true → h.2 ≠ bearerValue token := by
  intro e
  have headers : e.headers.getD [] = r.headers.filter (!isSessionHeader (some token) ·) := by
    simp only [e, ofRequest]
    cases r.graphql <;> cases r.headers.filter (!isSessionHeader (some token) ·) <;> rfl
  have asks : e.sessionAuth = r.headers.any (isSessionHeader (some token)) := by
    simp only [e, ofRequest]
    cases r.graphql <;> rfl
  constructor
  · refine ⟨_, toRequest_ofRequest id r (some token), ?_⟩
    rw [asks]
    exact faithful_replayed nonempty distinct
  · intro h hh name value
    rw [headers] at hh
    have foreign := (List.mem_filter.mp hh).2
    rw [isSessionHeader_iff.mpr ⟨name, value⟩] at foreign
    cases foreign

/-- A session header in another spelling, and a query with a repeated key. -/
theorem resent_faithful_put :
    let r : Request := {
      dataSourceId := "todo", method := .put, url := "https://api.test/todos/42?tag=b&q=two+words&tag=a"
      headers := [("X-Api-Key", "k"), ("authorization", "Bearer live")] }
    ("live" ≠ "" ∧ r.headers.Pairwise fun a b => Text.sameName a.1 b.1 = false) ∧
    (ofRequest "e1" r (some "live")).sessionAuth = true ∧
    ∃ q, (ofRequest "e1" r (some "live")).toRequest = .ok q ∧
      Faithful "live" r (q.attachSession (some "live")).2 := by
  intro r
  have live : "live" ≠ "" := by decide
  have distinct : r.headers.Pairwise fun a b => Text.sameName a.1 b.1 = false := by decide
  have asks : (ofRequest "e1" r (some "live")).sessionAuth = true := by decide
  obtain ⟨q, hq, faithful⟩ := (resent_faithful "e1" r live distinct).1
  rw [asks, if_pos rfl] at faithful
  exact ⟨⟨live, distinct⟩, asks, q, hq, faithful⟩

end OfflineEvent

end ScreenFlow
