import Mathlib.Data.List.Induction
import ScreenFlow.Proofs.Http.Headers
import ScreenFlow.Proofs.Resolve.Payload
import ScreenFlow.Proofs.Text.Occurrences

/-!
# Which credential a request gets

A credential comes from the source itself, from what is registered for its URL, or from the session.

* `Defaults.Registers`, `endpointAuth?_eq_some_iff`: the longest registered prefix counts;
* `TakenFrom`, `takenFrom_iff`: there is one place that the credential is taken from;
* `Signs`, `signs_iff`: the header that belongs to it;
* `Resolver.credential_determined`: a resolved request gets this header, unless it has one already;
* `Resolver.bearsAlike_iff`: when the session token may as well be attached afterwards.
-/

namespace ScreenFlow

/-! ### Registered credentials -/

theorem Text.eq_of_prefix {s t : String} (first : s.toList <+: t.toList)
    (fits : t.utf8ByteSize ≤ s.utf8ByteSize) : s = t := by
  obtain ⟨rest, parts⟩ := first
  have joined : s ++ String.ofList rest = t := by
    rw [← String.ofList_toList (s := t), ← parts, String.ofList_append, String.ofList_toList]
  have size : s.utf8ByteSize + (String.ofList rest).utf8ByteSize = t.utf8ByteSize := by
    rw [← String.utf8ByteSize_append, joined]
  have nothing : String.ofList rest = "" := String.utf8ByteSize_eq_zero_iff.mp (by omega)
  rw [← joined, nothing, String.append_empty]

/-- Of two beginnings of one text, the one with fewer bytes is the shorter one. -/
theorem Text.length_le_of_prefix {s t url : String} (hs : s.toList <+: url.toList)
    (ht : t.toList <+: url.toList) (fits : s.utf8ByteSize ≤ t.utf8ByteSize) :
    s.length ≤ t.length := by
  rcases List.prefix_or_prefix_of_prefix hs ht with first | first
  · rw [← String.length_toList, ← String.length_toList]
    exact first.length_le
  · obtain rfl := Text.eq_of_prefix first fits
    exact Nat.le_refl _

namespace Defaults

variable {g : Defaults} {url : String} {c : Credential}

/-- What is registered for this prefix: its latest entry. -/
def registered? (g : Defaults) (p : String) : Option Credential :=
  ((g.endpointAuth.filter (·.1 == p)).getLast?).map (·.2)

/-- The credential is registered for a prefix of the URL, and no longer prefix is registered. -/
def Registers (g : Defaults) (url : String) (c : Credential) : Prop :=
  ∃ p : String, g.registered? p = some c ∧ p.toList <+: url.toList ∧
    ∀ e ∈ g.endpointAuth, e.1.toList <+: url.toList → e.1.length ≤ p.length

/-- Nothing is registered for a prefix of the URL. -/
def Unregistered (g : Defaults) (url : String) : Prop :=
  ∀ e ∈ g.endpointAuth, ¬ e.1.toList <+: url.toList

theorem exists_entry {p : String} (found : g.registered? p = some c) :
    ∃ e ∈ g.endpointAuth, e.1 = p := by
  obtain ⟨e, last, -⟩ := Option.map_eq_some_iff.mp found
  obtain ⟨there, same⟩ := List.mem_filter.mp (List.mem_of_getLast? last)
  exact ⟨e, there, eq_of_beq same⟩

/-- Going through the entries finds the last one of those with the longest prefix. -/
theorem exists_foldl_longer (e : String × Credential) (es : List (String × Credential)) :
    ∃ before after, e :: es = before ++ es.foldl longer e :: after ∧
      (∀ x ∈ before, x.1.utf8ByteSize ≤ (es.foldl longer e).1.utf8ByteSize) ∧
      ∀ x ∈ after, x.1.utf8ByteSize < (es.foldl longer e).1.utf8ByteSize := by
  induction es using List.reverseRecOn with
  | nil => exact ⟨[], [], rfl, nofun, nofun⟩
  | append_singleton es x ih =>
    obtain ⟨before, after, parts, notLonger, shorter⟩ := ih
    rw [List.foldl_append, List.foldl_cons, List.foldl_nil]
    generalize es.foldl longer e = m at *
    by_cases less : x.1.utf8ByteSize < m.1.utf8ByteSize
    · rw [longer, if_pos less]
      refine ⟨before, after ++ [x], by rw [← List.cons_append, parts]; simp, notLonger, ?_⟩
      intro y hy
      rcases List.mem_append.mp hy with early | late
      · exact shorter y early
      · obtain rfl := List.mem_singleton.mp late
        exact less
    · rw [longer, if_neg less]
      refine ⟨e :: es, [], rfl, fun y hy => ?_, nofun⟩
      rw [parts] at hy
      rcases List.mem_append.mp hy with early | late
      · exact Nat.le_trans (notLonger y early) (Nat.le_of_not_lt less)
      rcases List.mem_cons.mp late with rfl | later
      · exact Nat.le_of_not_lt less
      · exact Nat.le_trans (Nat.le_of_lt (shorter y later)) (Nat.le_of_not_lt less)

theorem endpointAuth?_eq_none_iff : g.endpointAuth? url = none ↔ g.Unregistered url := by
  unfold endpointAuth? Unregistered
  simp only [← Text.startsWith_iff]
  cases matching : g.endpointAuth.filter fun e => Text.startsWith url e.1 with
  | nil => simpa using matching
  | cons e es =>
    have there : e ∈ g.endpointAuth.filter fun e => Text.startsWith url e.1 := by simp [matching]
    obtain ⟨registered, starts⟩ := List.mem_filter.mp there
    exact iff_of_false nofun fun none => none e registered starts

theorem registers_of_endpointAuth? (h : g.endpointAuth? url = some c) : g.Registers url c := by
  unfold endpointAuth? at h
  split at h
  · cases h
  rename_i e es matching
  obtain ⟨before, after, parts, notLonger, shorter⟩ := exists_foldl_longer e es
  obtain rfl := Option.some.inj h
  generalize es.foldl longer e = m at *
  have among (x : String × Credential) :
      x ∈ before ++ m :: after ↔ x ∈ g.endpointAuth ∧ x.1.toList <+: url.toList := by
    rw [← parts, ← matching, List.mem_filter, Text.startsWith_iff]
  have starts : m.1.toList <+: url.toList := ((among m).mp (by simp)).2
  refine ⟨m.1, ?_, starts, ?_⟩
  · have sieved : g.endpointAuth.filter (·.1 == m.1) =
        (g.endpointAuth.filter fun e => Text.startsWith url e.1).filter (·.1 == m.1) := by
      rw [List.filter_filter]
      refine List.filter_congr fun x _ => ?_
      cases same : x.1 == m.1 with
      | false => rfl
      | true =>
        rw [eq_of_beq same, Text.startsWith_iff.mpr starts]
        rfl
    have others : after.filter (·.1 == m.1) = [] := by
      refine List.filter_eq_nil_iff.mpr fun x hx same => ?_
      have less := shorter x hx
      rw [eq_of_beq same] at less
      exact Nat.lt_irrefl _ less
    rw [registered?, sieved, matching, parts, List.filter_append,
      List.filter_cons_of_pos (by simp), others, List.getLast?_concat, Option.map_some]
  · intro x hx first
    refine Text.length_le_of_prefix first starts ?_
    rcases List.mem_append.mp ((among x).mpr ⟨hx, first⟩) with early | late
    · exact notLonger x early
    rcases List.mem_cons.mp late with rfl | later
    · exact Nat.le_refl _
    · exact Nat.le_of_lt (shorter x later)

/-- There is one credential for the longest prefix. -/
theorem Registers.eq {c' : Credential} (h : g.Registers url c) (h' : g.Registers url c') :
    c = c' := by
  obtain ⟨p, found, starts, longest⟩ := h
  obtain ⟨p', found', starts', longest'⟩ := h'
  obtain ⟨e, he, rfl⟩ := exists_entry found
  obtain ⟨e', he', rfl⟩ := exists_entry found'
  have same : e.1 = e'.1 := by
    have length := Nat.le_antisymm (longest' e he starts) (longest e' he' starts')
    rw [← String.length_toList, ← String.length_toList] at length
    refine String.toList_inj.mp ?_
    rcases List.prefix_or_prefix_of_prefix starts starts' with first | first
    · exact first.eq_of_length length
    · exact (first.eq_of_length length.symm).symm
  rw [same, found'] at found
  exact (Option.some.inj found).symm

theorem endpointAuth?_eq_some_iff : g.endpointAuth? url = some c ↔ g.Registers url c := by
  constructor
  · exact registers_of_endpointAuth?
  · intro registers
    cases found : g.endpointAuth? url with
    | none =>
      obtain ⟨p, entry, starts, -⟩ := registers
      obtain ⟨e, there, rfl⟩ := exists_entry entry
      exact absurd starts (endpointAuth?_eq_none_iff.mp found e there)
    | some c' => rw [(registers_of_endpointAuth? found).eq registers]

end Defaults

/-! ### Where it comes from -/

namespace Credential

/-- What a request can get its credential from. -/
inductive Source where
  | declared (c : Credential)
  | registered (c : Credential)
  | session
  | nobody
deriving DecidableEq

/-- The source declares nothing, or a credential of the type none. -/
def Undeclared (declared : Option Credential) : Prop := ∀ c, declared = some c → c.scheme = .none

/-- The place that the credential is taken from: a declared one comes before a registered one, and
the session comes last. A registered credential of the type none leaves no room for the session. -/
inductive TakenFrom (declared : Option Credential) (g : Defaults) (url : String) : Source → Prop
  | declared {c} (given : declared = some c) (typed : c.scheme ≠ .none) :
      TakenFrom declared g url (.declared c)
  | registered {c} (undeclared : Undeclared declared) (registers : g.Registers url c) :
      TakenFrom declared g url (.registered c)
  | session (undeclared : Undeclared declared) (unregistered : g.Unregistered url)
      (injects : g.injectSession = true) : TakenFrom declared g url .session
  | nobody (undeclared : Undeclared declared) (unregistered : g.Unregistered url)
      (keeps : g.injectSession = false) : TakenFrom declared g url .nobody

/-- The header that a credential becomes, given its resolved value and the live token. There is none
for a value that is empty or missing. -/
inductive Stands (c : Credential) (value live : Option String) : String → String → Prop
  | live {token} (scheme : c.scheme = .bearer) (given : live = some token) (full : token ≠ "") :
      Stands c value live "Authorization" ("Bearer " ++ token)
  | stored {token} (scheme : c.scheme = .bearer) (out : live = none) (given : value = some token)
      (full : token ≠ "") : Stands c value live "Authorization" ("Bearer " ++ token)
  | pair {v} (scheme : c.scheme = .basic) (given : value = some v) (colon : ':' ∈ v.toList) :
      Stands c value live "Authorization" ("Basic " ++ Base64.encode (Utf8.encode v))
  | encoded {v} (scheme : c.scheme = .basic) (given : value = some v) (full : v ≠ "")
      (plain : ':' ∉ v.toList) : Stands c value live "Authorization" ("Basic " ++ v)
  | key {v} (scheme : c.scheme = .apiKey) (given : value = some v) (full : v ≠ "") :
      Stands c value live (c.header.getD "X-API-Key") v

/-- The header that a request gets from there. -/
inductive Signs (live : Option String) (fill : String → String) : Source → String → String → Prop
  | declared {c name value} (stands : Stands c (c.value.map fill) live name value) :
      Signs live fill (.declared c) name value
  | registered {c name value} (stands : Stands c (c.value.map fill) live name value) :
      Signs live fill (.registered c) name value
  | session {token} (given : live = some token) :
      Signs live fill .session "Authorization" ("Bearer " ++ token)

section Sources

variable {declared : Option Credential} {g : Defaults} {url : String} {source : Source}
  {c : Credential} {value live : Option String} {name v : String} {fill : String → String}

def sourceOf (declared : Option Credential) (g : Defaults) (url : String) : Source :=
  match declared.filter (!·.isNone) with
  | some c => .declared c
  | none =>
    match g.endpointAuth? url with
    | some c => .registered c
    | none => if g.injectSession then .session else .nobody

theorem undeclared_iff : Undeclared declared ↔ declared.filter (!·.isNone) = none := by
  simp [Undeclared, Option.filter_eq_none_iff, isNone]

theorem declared_iff :
    declared.filter (!·.isNone) = some c ↔ declared = some c ∧ c.scheme ≠ .none := by
  simp [Option.filter_eq_some_iff, isNone]

/-- There is one place that the credential is taken from. -/
theorem takenFrom_iff : TakenFrom declared g url source ↔ source = sourceOf declared g url := by
  unfold sourceOf
  constructor
  · intro taken
    cases taken with
    | declared given typed => rw [declared_iff.mpr ⟨given, typed⟩]
    | registered undeclared registers =>
      rw [undeclared_iff.mp undeclared, Defaults.endpointAuth?_eq_some_iff.mpr registers]
    | session undeclared unregistered injects =>
      rw [undeclared_iff.mp undeclared, Defaults.endpointAuth?_eq_none_iff.mpr unregistered,
        injects]
      rfl
    | nobody undeclared unregistered keeps =>
      rw [undeclared_iff.mp undeclared, Defaults.endpointAuth?_eq_none_iff.mpr unregistered, keeps]
      rfl
  · rintro rfl
    cases typed : declared.filter (!·.isNone) with
    | some c =>
      obtain ⟨given, typed⟩ := declared_iff.mp typed
      exact .declared given typed
    | none =>
      have undeclared := undeclared_iff.mpr typed
      cases found : g.endpointAuth? url with
      | some c => exact .registered undeclared (Defaults.endpointAuth?_eq_some_iff.mp found)
      | none =>
        have unregistered := Defaults.endpointAuth?_eq_none_iff.mp found
        cases injects : g.injectSession with
        | true => exact .session undeclared unregistered injects
        | false => exact .nobody undeclared unregistered injects

theorem nonempty_eq_some_iff : nonempty value = some v ↔ value = some v ∧ v ≠ "" := by
  simp [nonempty, Option.filter_eq_some_iff]

theorem basicValue_pair (colon : ':' ∈ v.toList) :
    basicValue v = Base64.encode (Utf8.encode v) := by
  rw [basicValue, if_pos (List.contains_iff_mem.mpr colon)]

theorem basicValue_plain (plain : ':' ∉ v.toList) : basicValue v = v := by
  rw [basicValue, if_neg (by simpa using plain)]

theorem ne_empty_of_mem {x : Char} (h : x ∈ v.toList) : v ≠ "" := by
  rintro rfl
  cases h

theorem stands_iff : Stands c value live name v ↔ c.header? value live = some (name, v) := by
  unfold header?
  constructor
  · intro stands
    cases stands with
    | live scheme given full | stored scheme out given full =>
      simp [*, nonempty, authorizationHeader, bearerValue]
    | pair scheme given colon =>
      simp [scheme, nonempty_eq_some_iff.mpr ⟨given, ne_empty_of_mem colon⟩, basicValue_pair colon,
        authorizationHeader]
    | encoded scheme given full plain =>
      simp [scheme, nonempty_eq_some_iff.mpr ⟨given, full⟩, basicValue_plain plain,
        authorizationHeader]
    | key scheme given full =>
      simp [scheme, nonempty_eq_some_iff.mpr ⟨given, full⟩, defaultKeyHeader]
  · intro found
    cases scheme : c.scheme with
    | bearer =>
      rw [scheme] at found
      obtain ⟨token, some, same⟩ := Option.map_eq_some_iff.mp found
      obtain ⟨given, full⟩ := nonempty_eq_some_iff.mp some
      cases same
      cases has : live with
      | some t =>
        rw [has, Option.some_or] at given
        exact .live scheme given full
      | none =>
        rw [has, Option.none_or] at given
        exact .stored scheme rfl given full
    | basic =>
      rw [scheme] at found
      obtain ⟨w, some, same⟩ := Option.map_eq_some_iff.mp found
      obtain ⟨given, full⟩ := nonempty_eq_some_iff.mp some
      cases same
      by_cases colon : ':' ∈ w.toList
      · rw [basicValue_pair colon]
        exact .pair scheme given colon
      · rw [basicValue_plain colon]
        exact .encoded scheme given full colon
    | apiKey =>
      rw [scheme] at found
      obtain ⟨w, some, same⟩ := Option.map_eq_some_iff.mp found
      obtain ⟨given, full⟩ := nonempty_eq_some_iff.mp some
      cases same
      exact .key scheme given full
    | none =>
      rw [scheme] at found
      cases found

def Source.header? (live : Option String) (fill : String → String) :
    Source → Option (String × String)
  | .declared c | .registered c => c.header? (c.value.map fill) live
  | .session => live.map fun token => (authorizationHeader, bearerValue token)
  | .nobody => none

theorem signs_iff :
    Signs live fill source name v ↔ source.header? live fill = some (name, v) := by
  cases source with
  | declared c =>
    refine Iff.trans ⟨?_, .declared⟩ stands_iff
    intro signs
    cases signs with
    | declared stands => exact stands
  | registered c =>
    refine Iff.trans ⟨?_, .registered⟩ stands_iff
    intro signs
    cases signs with
    | registered stands => exact stands
  | session =>
    constructor
    · intro signs
      cases signs with
      | session given =>
        rw [Source.header?, given]
        rfl
    · intro found
      obtain ⟨token, given, same⟩ := Option.map_eq_some_iff.mp found
      cases same
      exact .session given
  | nobody => exact iff_of_false nofun nofun

end Sources

end Credential

/-! ### Requests -/

namespace Request

variable {q : Request} {name value : String} {declared : Option Credential} {g : Defaults}
  {live : Option String} {fill : String → String} {source : Credential.Source}

/-- A header that is there in some spelling is left alone. -/
theorem setNewHeader_of_there (there : ∃ h ∈ q.headers, Text.sameName h.1 name = true) :
    q.setNewHeader name value = q :=
  if_pos (Headers.has_iff.mpr there)

theorem setNewHeader_of_absent (absent : ∀ h ∈ q.headers, Text.sameName h.1 name = false) :
    q.setNewHeader name value = q.setHeader name value :=
  if_neg (Bool.eq_false_iff.mp (Headers.has_eq_false_iff.mpr absent))

theorem authenticate_of_header? (taken : Credential.TakenFrom declared g q.url source) :
    q.authenticate declared g live fill =
      ((source.header? live fill).map fun h => q.setNewHeader h.1 h.2).getD q := by
  obtain rfl := Credential.takenFrom_iff.mp taken
  unfold authenticate Credential.effective? Credential.sourceOf
  cases declared.filter (!·.isNone) with
  | some c =>
    cases found : c.header? (c.value.map fill) live <;>
      simp [Credential.Source.header?, found]
  | none =>
    rw [Option.none_or]
    cases g.endpointAuth? q.url with
    | some c =>
      cases found : c.header? (c.value.map fill) live <;>
        simp [Credential.Source.header?, found]
    | none =>
      cases g.injectSession <;> cases live <;> rfl

/-- The header that belongs to the credential is set unless it is there in some spelling. -/
theorem authenticate_of_signs (taken : Credential.TakenFrom declared g q.url source)
    (signs : Credential.Signs live fill source name value) :
    q.authenticate declared g live fill = q.setNewHeader name value := by
  rw [authenticate_of_header? taken, Credential.signs_iff.mp signs]
  rfl

theorem authenticate_of_not_signs (taken : Credential.TakenFrom declared g q.url source)
    (nothing : ∀ name value, ¬ Credential.Signs live fill source name value) :
    q.authenticate declared g live fill = q := by
  have none : source.header? live fill = none := by
    refine Option.eq_none_iff_forall_ne_some.mpr fun h found => ?_
    exact nothing h.1 h.2 (Credential.signs_iff.mpr found)
  rw [authenticate_of_header? taken, none]
  rfl

end Request

namespace Resolver

variable {r : Resolver} {d : DataSource} {g : Defaults} {scope : Json} {body : Option Json}
  {q : Request}

/-- The request before it gets its credential. -/
def unsigned (r : Resolver) (d : DataSource) (g : Defaults) (scope : Json) (body : Option Json) :
    Except Fault Request := do
  let url ← Url.build d g scope r.translate
  r.withPayload d scope body (r.frame d g scope (d.methodFor (body.or d.body).isSome) url)

theorem exists_unsigned (h : r.resolve d g scope body = .ok q) : ∃ q₀,
    r.unsigned d g scope body = .ok q₀ ∧
      q = q₀.authenticate d.auth g r.live (r.fillText scope) := by
  obtain ⟨url, built, h⟩ := ok_of_bind h
  obtain ⟨q₀, paid, h⟩ := ok_of_bind h
  refine ⟨q₀, ?_, (Except.ok.inj h).symm⟩
  rw [unsigned, built]
  exact paid

/-- The credential of a resolved request is taken from one place. The request gets the header that
belongs to it, if there is one, unless it is there in some spelling; nothing else is changed. -/
theorem credential_determined (h : r.resolve d g scope body = .ok q) : ∃ q₀,
    r.unsigned d g scope body = .ok q₀ ∧
      (∃! source, Credential.TakenFrom d.auth g q.url source) ∧
      ∀ source, Credential.TakenFrom d.auth g q.url source →
        (∀ name value, Credential.Signs r.live (r.fillText scope) source name value →
          ((∃ f ∈ q₀.headers, Text.sameName f.1 name = true) → q = q₀) ∧
          ((∀ f ∈ q₀.headers, Text.sameName f.1 name = false) → q = q₀.setHeader name value)) ∧
        ((∀ name value, ¬ Credential.Signs r.live (r.fillText scope) source name value) →
          q = q₀) := by
  obtain ⟨q₀, before, rfl⟩ := exists_unsigned h
  have kept : (q₀.authenticate d.auth g r.live (r.fillText scope)).url = q₀.url := by
    obtain ⟨hs, same⟩ := q₀.authenticate_eq d.auth g r.live (r.fillText scope)
    rw [same]
  refine ⟨q₀, before, ?_, ?_⟩
  · exact ⟨_, Credential.takenFrom_iff.mpr rfl, fun _ taken => Credential.takenFrom_iff.mp taken⟩
  · intro source taken
    rw [kept] at taken
    refine ⟨fun name value signs => ?_, Request.authenticate_of_not_signs taken⟩
    rw [Request.authenticate_of_signs taken signs]
    exact ⟨Request.setNewHeader_of_there, Request.setNewHeader_of_absent⟩

/-! ### Two registered prefixes -/

def inner : Credential := { scheme := .basic, value := some "u:p" }

def nested : Defaults where
  endpointAuth :=
    [("https://a", { scheme := .bearer, value := some "outer" }), ("https://a/notes", inner)]
  injectSession := true

def note : DataSource where
  id := "note"
  path := "https://a/notes/1"

def innerRequest : Request where
  dataSourceId := "note"
  method := .get
  url := "https://a/notes/1"
  headers := [("Authorization", "Basic dTpw")]

theorem credential_determined_inner :
    Resolver.resolve { live := some "t" } note nested .empty none = .ok innerRequest ∧
      ∀ source, Credential.TakenFrom none nested "https://a/notes/1" source →
        source = .registered inner := by
  have resolved : Resolver.resolve { live := some "t" } note nested .empty none =
      .ok innerRequest := ok_of_toOption (by decide +kernel)
  obtain ⟨-, -, ⟨place, -, only⟩, -⟩ := credential_determined resolved
  refine ⟨resolved, fun source taken => (only source taken).trans (only _ ?_).symm⟩
  exact Credential.takenFrom_iff.mpr (by decide +kernel)

end Resolver

/-! ### The session token, at once or afterwards -/

namespace Request

/-- The token as a bearer, unless the request is authorized already. -/
def bearing (q : Request) (token : Option String) : Request :=
  (token.map fun t => q.setNewHeader authorizationHeader (bearerValue t)).getD q

variable {q : Request} {token : Option String} {h : String × String}
  {declared : Option Credential} {g : Defaults} {fill : String → String}

/-- An empty token is not attached. -/
theorem attachSession_eq (q : Request) (live : Option String) :
    (q.attachSession live).2 = q.bearing (Credential.nonempty live) := by
  unfold attachSession bearing setNewHeader
  cases Credential.nonempty live <;> cases q.hasHeader authorizationHeader <;> rfl

/-- A token that goes along with the request is taken as it is. -/
theorem authenticate_of_injecting (live : Option String)
    (undeclared : Credential.Undeclared declared) (unregistered : g.Unregistered q.url) :
    q.authenticate declared { g with injectSession := true } live fill = q.bearing live := by
  have taken : Credential.TakenFrom declared { g with injectSession := true } q.url .session :=
    .session undeclared unregistered rfl
  rw [authenticate_of_header? taken]
  cases live <;> rfl

/-- A token that is attached afterwards is attached to the request as it was. -/
theorem attachSession_of_keeping (live : Option String)
    (undeclared : Credential.Undeclared declared) (unregistered : g.Unregistered q.url) :
    ((q.authenticate declared { g with injectSession := false } live fill).attachSession live).2 =
      q.bearing (Credential.nonempty live) := by
  have taken : Credential.TakenFrom declared { g with injectSession := false } q.url .nobody :=
    .nobody undeclared unregistered rfl
  have kept : q.authenticate declared { g with injectSession := false } live fill = q :=
    authenticate_of_header? taken
  rw [kept]
  exact attachSession_eq q live

theorem mem_bearing (there : h ∈ (q.bearing token).headers) :
    h ∈ q.headers ∨ ∃ t, token = some t ∧ h = ("Authorization", "Bearer " ++ t) := by
  cases token with
  | none => exact .inl there
  | some t =>
    change h ∈ (q.setNewHeader authorizationHeader (bearerValue t)).headers at there
    unfold setNewHeader at there
    split at there
    · exact .inl there
    · exact (Headers.mem_set there).symm.imp_right fun same => ⟨t, rfl, same⟩

theorem mem_bearing_of_absent (t : String)
    (absent : ∀ h ∈ q.headers, Text.sameName h.1 "Authorization" = false) :
    ("Authorization", "Bearer " ++ t) ∈ (q.bearing (some t)).headers := by
  have set : q.bearing (some t) = q.setHeader "Authorization" ("Bearer " ++ t) :=
    setNewHeader_of_absent absent
  rw [set]
  exact Headers.mem_set_self _ _ _

end Request

namespace Resolver

variable {r : Resolver} {d : DataSource} {g : Defaults} {scope : Json} {body : Option Json}
  {q q' : Request}

/-- Neither the source nor its endpoint has a credential of its own. -/
structure LeavesRoom (r : Resolver) (d : DataSource) (g : Defaults) (scope : Json)
    (body : Option Json) : Prop where
  undeclared : Credential.Undeclared d.auth
  unregistered : ∀ q, r.unsigned d g scope body = .ok q → g.Unregistered q.url

/-- The session token goes along when the request is resolved. -/
def bearingAtOnce (r : Resolver) (d : DataSource) (g : Defaults) (scope : Json)
    (body : Option Json) : Except Fault Request :=
  r.resolve d { g with injectSession := true } scope body

/-- The request is resolved without the session token, which is attached to it then. -/
def bearingLater (r : Resolver) (d : DataSource) (g : Defaults) (scope : Json)
    (body : Option Json) : Except Fault Request :=
  (r.resolve d { g with injectSession := false } scope body).map fun q =>
    (q.attachSession r.live).2

/-- Both ways lead to the same request, and neither adds an authorization with an empty token. -/
structure BearsAlike (r : Resolver) (d : DataSource) (g : Defaults) (scope : Json)
    (body : Option Json) : Prop where
  same : r.bearingAtOnce d g scope body = r.bearingLater d g scope body
  full : ∀ q q', r.unsigned d g scope body = .ok q →
    r.bearingAtOnce d g scope body = .ok q' ∨ r.bearingLater d g scope body = .ok q' →
    ("Authorization", "Bearer ") ∈ q'.headers → ("Authorization", "Bearer ") ∈ q.headers

/-- The token is there, but empty, and would be the only authorization of the request. -/
def BearsNothing (r : Resolver) (d : DataSource) (g : Defaults) (scope : Json)
    (body : Option Json) : Prop :=
  r.live = some "" ∧ ∃ q, r.unsigned d g scope body = .ok q ∧
    ∀ h ∈ q.headers, Text.sameName h.1 "Authorization" = false

theorem resolve_eq_map (r : Resolver) (d : DataSource) (g : Defaults) (scope : Json)
    (body : Option Json) : r.resolve d g scope body =
      (r.unsigned d g scope body).map fun q =>
        q.authenticate d.auth g r.live (r.fillText scope) := by
  unfold resolve unsigned
  cases Url.build d g scope r.translate with
  | error f => rfl
  | ok url =>
    change (r.withPayload d scope body _ >>= _) = Except.map _ (r.withPayload d scope body _)
    cases r.withPayload d scope body _ <;> rfl

theorem bearingAtOnce_eq (room : r.LeavesRoom d g scope body) :
    r.bearingAtOnce d g scope body = (r.unsigned d g scope body).map (·.bearing r.live) := by
  rw [bearingAtOnce, resolve_eq_map]
  change (r.unsigned d g scope body).map _ = _
  cases resolved : r.unsigned d g scope body with
  | error f => rfl
  | ok q =>
    exact congrArg Except.ok
      (Request.authenticate_of_injecting r.live room.undeclared (room.unregistered q resolved))

theorem bearingLater_eq (room : r.LeavesRoom d g scope body) : r.bearingLater d g scope body =
    (r.unsigned d g scope body).map (·.bearing (Credential.nonempty r.live)) := by
  rw [bearingLater, resolve_eq_map]
  change ((r.unsigned d g scope body).map _).map _ = _
  cases resolved : r.unsigned d g scope body with
  | error f => rfl
  | ok q =>
    exact congrArg Except.ok
      (Request.attachSession_of_keeping r.live room.undeclared (room.unregistered q resolved))

/-- The token that is attached is never empty, so an empty bearer was there before. -/
theorem full_of_token {token : Option String} (given : token ≠ some "")
    (there : ("Authorization", "Bearer ") ∈ (q.bearing token).headers) :
    ("Authorization", "Bearer ") ∈ q.headers := by
  rcases Request.mem_bearing there with old | ⟨t, rfl, same⟩
  · exact old
  · have bare : ("Bearer " ++ t).toList = ("Bearer " ++ "").toList :=
      congrArg String.toList (Prod.mk.inj same).2.symm
    rw [String.toList_append, String.toList_append] at bare
    exact absurd (congrArg some (String.toList_inj.mp (List.append_cancel_left bare))) given

theorem nonempty_ne_empty (live : Option String) : Credential.nonempty live ≠ some "" := fun h =>
  (Credential.nonempty_eq_some_iff.mp h).2 rfl

theorem nonempty_of_ne {live : Option String} (given : live ≠ some "") :
    Credential.nonempty live = live := by
  cases live with
  | none => rfl
  | some t => exact Credential.nonempty_eq_some_iff.mpr ⟨rfl, fun empty => given (empty ▸ rfl)⟩

/-- The token goes along at once or afterwards, and the request is the same, exactly unless the
token is empty and the request has no authorization: resolving it adds one with nothing in it. -/
theorem bearsAlike_iff (room : r.LeavesRoom d g scope body) :
    r.BearsAlike d g scope body ↔ ¬ r.BearsNothing d g scope body := by
  constructor
  · rintro alike ⟨empty, q, resolved, absent⟩
    have there := Request.mem_bearing_of_absent "" absent
    have sent : r.bearingAtOnce d g scope body = .ok (q.bearing (some "")) := by
      rw [bearingAtOnce_eq room, resolved, empty]
      rfl
    have named := absent _ (alike.full q _ resolved (.inl sent) there)
    cases named.symm.trans (beq_self_eq_true _)
  · intro bears
    have alike : ∀ q, r.unsigned d g scope body = .ok q →
        q.bearing r.live = q.bearing (Credential.nonempty r.live) := by
      intro q resolved
      by_cases empty : r.live = some ""
      · have authorized : ∃ h ∈ q.headers, Text.sameName h.1 "Authorization" = true := by
          by_contra none
          exact bears ⟨empty, q, resolved, fun h hh => Bool.eq_false_iff.mpr fun same =>
            none ⟨h, hh, same⟩⟩
        rw [empty]
        exact Request.setNewHeader_of_there authorized
      · rw [nonempty_of_ne empty]
    have same : r.bearingAtOnce d g scope body = r.bearingLater d g scope body := by
      rw [bearingAtOnce_eq room, bearingLater_eq room]
      cases resolved : r.unsigned d g scope body with
      | error f => rfl
      | ok q => exact congrArg Except.ok (alike q resolved)
    refine ⟨same, fun q q' resolved sent there => ?_⟩
    have later : r.bearingLater d g scope body = .ok q' := sent.elim same.symm.trans id
    rw [bearingLater_eq room, resolved] at later
    obtain rfl := Except.ok.inj later
    exact full_of_token (nonempty_ne_empty r.live) there

/-! ### An empty token -/

def me : DataSource where
  id := "me"
  path := "https://a/me"

def emptyToken : Resolver where
  live := some ""

theorem bearsAlike_iff_me : Resolver.LeavesRoom { live := some "t" } me {} .empty none ∧
    Resolver.BearsAlike { live := some "t" } me {} .empty none := by
  have room : Resolver.LeavesRoom { live := some "t" } me {} .empty none :=
    ⟨nofun, fun _ _ => nofun⟩
  exact ⟨room, (bearsAlike_iff room).mpr fun nothing => absurd nothing.1 (by decide)⟩

/-- The request gets an authorization that is an empty bearer, or none at all. -/
theorem not_bearsAlike : emptyToken.LeavesRoom me {} .empty none ∧
    ¬ emptyToken.BearsAlike me {} .empty none := by
  refine ⟨⟨nofun, fun _ _ => nofun⟩, fun alike => ?_⟩
  have same := congrArg (fun q => q.toOption.map Request.headers) alike.same
  exact absurd same (by decide +kernel)

end Resolver

end ScreenFlow
