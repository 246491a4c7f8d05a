import ScreenFlow.Proofs.Json.Written
import ScreenFlow.Screen

/-!
# Parts of a screen are read back

What a handler or a data source is made of is read back from what it is written as, if it is as the
running program keeps it: its parts that are JSON are settled, keys ascend, numbers are in range.
Whatever is read is like that.

* `decode_name`: a choice is read from its name;
* `Settled`: what the running program keeps of a record;
* `decode_toJson`, `yields_decode`: it is read back, and nothing else is ever read.
-/

namespace ScreenFlow

open Json (Hands)
open RecordReader (Reads)

variable {g : Json → Source} {S : Source → Prop}

/-! ### Choices -/

theorem Method.decode_name (m : Method) : decode (.str m.name) = some m := by
  cases m <;> rfl

theorem Method.decode_toJson (hg : Hands g) (m : Method) : decode (g m.toJson) = some m := by
  rw [toJson, hg.str, decode_name]

theorem BodyEncoding.decode_name (b : BodyEncoding) : decode (.str b.name) = some b := by
  cases b <;> rfl

theorem BodyEncoding.decode_toJson (hg : Hands g) (b : BodyEncoding) : decode (g b.toJson) = some b := by
  rw [toJson, hg.str, decode_name]

theorem Cookies.decode_name (c : Cookies) : decode (.str c.name) = some c := by
  cases c <;> rfl

theorem Cookies.decode_toJson (hg : Hands g) (c : Cookies) : decode (g c.toJson) = some c := by
  rw [toJson, hg.str, decode_name]

theorem ResponseType.decode_name (t : ResponseType) : decode (.str t.name) = some t := by
  cases t <;> rfl

theorem ResponseType.decode_toJson (hg : Hands g) (t : ResponseType) : decode (g t.toJson) = some t := by
  rw [toJson, hg.str, decode_name]

theorem AuthScheme.decode_name (s : AuthScheme) : decode (.str s.name) = some s := by
  cases s <;> rfl

theorem AuthScheme.decode_toJson (hg : Hands g) (s : AuthScheme) : decode (g s.toJson) = some s := by
  rw [toJson, hg.str, decode_name]

theorem Operation.decode_name (o : Operation) : decode (.str o.name) = some o := by
  cases o <;> rfl

theorem Operation.decode_toJson (hg : Hands g) (o : Operation) : decode (g o.toJson) = some o := by
  rw [toJson, hg.str, decode_name]

theorem SubProtocol.decode_name (p : SubProtocol) : decode (.str p.name) = some p := by
  cases p <;> rfl

theorem SubProtocol.decode_toJson (hg : Hands g) (p : SubProtocol) : decode (g p.toJson) = some p := by
  rw [toJson, hg.str, decode_name]

theorem Backoff.decode_name (b : Backoff) : decode (.str b.name) = some b := by
  cases b <;> rfl

theorem Backoff.decode_toJson (hg : Hands g) (b : Backoff) : decode (g b.toJson) = some b := by
  rw [toJson, hg.str, decode_name]

theorem ActionKind.decode_name (k : ActionKind) : decode (.str k.name) = some k := by
  cases k <;> rfl

theorem ActionKind.decode_toJson (hg : Hands g) (k : ActionKind) : decode (g k.toJson) = some k := by
  rw [toJson, hg.str, decode_name]

/-! ### Patches and transitions -/

/-- The value is settled. -/
def StatePatch.Settled (p : StatePatch) : Prop := p.value.Settled

namespace StatePatch

theorem decode_toJson (hg : Hands g) {p : StatePatch} (h : p.Settled) :
    decode (g p.toJson) = some p :=
  hg.record (by simp) fun fs w =>
    .bind (w.required (by simp) (hg.string p.path)) <|
    .bind (w.withDefault (by simp) (hg.value h)) <| .pure p

theorem yields_decode (hS : Source.Hereditary S) : decode.Yields S Settled :=
  Decoder.yields_record (.bind (RecordReader.yields_required (Decoder.yields_true _) "path")
    fun _ _ => .bind (RecordReader.yields_withDefault Decoder.yields_value ["value"] rfl)
      fun _ settled => RecordReader.yields_pure settled) hS

/-- A list of patches is no patch: its first item would have to be a path. -/
theorem decode_list (hg : Hands g) (ps : List StatePatch) :
    decode (g (.arr (ps.map toJson))) = none := by
  rw [hg.arr]
  cases ps with
  | nil => rfl
  | cons p ps =>
    have nodup : (([("path", .str p.path), ("value", p.value)] : List (String × Json)).map
        (·.1)).Nodup := by simp
    obtain ⟨fs, first, -⟩ := hg.obj nodup
    rw [List.map_cons, List.map_cons, toJson, first]
    rfl

theorem decode_many (hg : Hands g) {ps : List StatePatch} (h : ∀ p ∈ ps, p.Settled) :
    decode.oneOrMany (g (.arr (ps.map toJson))) = some ps :=
  hg.oneOrMany (fun p hp => decode_toJson hg (h p hp)) (decode_list hg ps)

end StatePatch

theorem NavigateSpec.decode_toJson (hg : Hands g) (n : NavigateSpec) :
    decode (g n.toJson) = some n :=
  hg.record (by simp) fun fs w =>
    .bind (w.required (by simp) (hg.string n.href)) <|
    .bind (w.withDefault (by simp) (hg.truth n.replace)) <| .pure n

/-- Every patch is settled. -/
def Transition.Settled (t : Transition) : Prop := ∀ p ∈ t.setState, p.Settled

namespace Transition

theorem decode_toJson (hg : Hands g) {t : Transition} (h : t.Settled) :
    decode (g t.toJson) = some t :=
  hg.record (by simp) fun fs w =>
    .bind (w.withDefault (by simp) (hg.option (fun n _ => n.decode_toJson hg) rfl)) <|
    .bind (w.withDefault (by simp) (hg.optionString t.openModal)) <|
    .bind (w.withDefault (by simp) (hg.optionString t.closeModal)) <|
    .bind (w.withDefault (by simp) (StatePatch.decode_many hg h)) <| .pure t

theorem yields_decode (hS : Source.Hereditary S) : decode.Yields S Settled := by
  refine Decoder.yields_record ?_ hS
  refine .bind (RecordReader.yields_optional (Decoder.yields_true _) "navigate") fun _ _ => ?_
  refine .bind (RecordReader.yields_optional (Decoder.yields_true _) "openModal") fun _ _ => ?_
  refine .bind (RecordReader.yields_optional (Decoder.yields_true _) "closeModal") fun _ _ => ?_
  have many := (StatePatch.yields_decode hS).oneOrMany hS
  refine .bind (RecordReader.yields_withDefault many ["setState"] (List.forall_mem_nil _))
    fun _ settled => RecordReader.yields_pure settled

end Transition

/-! ### Response handling -/

/-- The names of picked paths ascend. -/
def ResultMapping.Settled : ResultMapping → Prop
  | script _ => True
  | paths picks => (picks.map (·.1)).Pairwise (· < ·)

namespace ResultMapping

/-- A script is a text, and picked paths are an object of texts. -/
theorem decode_toJson (hg : Hands g) {m : ResultMapping} (h : m.Settled) :
    decode (g m.toJson) = some m := by
  cases m with
  | script s =>
    rw [toJson, hg.str]
    rfl
  | paths picks =>
    have read := hg.map h fun f _ => hg.string f.2
    have readable := hg.readable (.obj (picks.map fun f => (f.1, .str f.2)))
    have sorted : Json.Ascending (picks.map fun f => (f.1, .str f.2)) :=
      Json.ascending_iff_keys.mpr (by rwa [List.map_map])
    rw [toJson]
    rw [hg.sorted sorted] at read readable ⊢
    rw [decode, Decoder.whole, if_pos readable, read, Option.map_some]
    intro _ same
    cases same

theorem yields_decode (hS : Source.Hereditary S) : decode.Yields S Settled := by
  intro v m source read
  unfold decode at read
  split at read
  · cases read
    trivial
  · obtain ⟨picks, hpicks, rfl⟩ := Option.map_eq_some_iff.mp read
    unfold Decoder.whole at hpicks
    split at hpicks
    · exact ((Decoder.yields_true Decoder.string).map hS source hpicks).1
    · cases hpicks

end ResultMapping

def ResponseHandling.Settled (r : ResponseHandling) : Prop := ∀ m ∈ r.mapping, m.Settled

namespace ResponseHandling

theorem decode_toJson (hg : Hands g) {r : ResponseHandling} (h : r.Settled) :
    decode (g r.toJson) = some r :=
  hg.record (by simp) fun fs w =>
    .bind (w.withDefault (by simp) (hg.option (fun t _ => t.decode_toJson hg) rfl)) <|
    .bind (w.withDefault (by simp) (hg.optionString r.statePath)) <|
    .bind (w.withDefault (by simp)
      (hg.option (fun m hm => ResultMapping.decode_toJson hg (h m hm)) rfl)) <| .pure r

theorem yields_decode (hS : Source.Hereditary S) : decode.Yields S Settled := by
  refine Decoder.yields_record ?_ hS
  refine .bind (RecordReader.yields_optional (Decoder.yields_true _) "responseType") fun _ _ => ?_
  refine .bind (RecordReader.yields_optional (Decoder.yields_true _) "statePath") fun _ _ => ?_
  refine .bind (RecordReader.yields_optional (ResultMapping.yields_decode hS) "resultMapping")
    fun _ settled => RecordReader.yields_pure settled

end ResponseHandling

/-! ### Data sources -/

theorem Credential.decode_toJson (hg : Hands g) (c : Credential) : decode (g c.toJson) = some c :=
  hg.record (by simp) fun fs w =>
    .bind (w.withDefault (by simp) (c.scheme.decode_toJson hg)) <|
    .bind (w.withDefault (by simp) (hg.optionString c.value)) <|
    .bind (w.withDefault (by simp) (hg.optionString c.header)) <| .pure c

/-- The numbers fit where they are kept. -/
structure RetryPolicy.Settled (p : RetryPolicy) : Prop where
  attempts : p.attempts < Bits.values 32
  delayMs : p.delayMs < Bits.values 64

namespace RetryPolicy

theorem decode_toJson (hg : Hands g) {p : RetryPolicy} (h : p.Settled) :
    decode (g p.toJson) = some p :=
  hg.record (by simp) fun fs w =>
    .bind (w.withDefault (by simp) (hg.nat h.attempts)) <|
    .bind (w.withDefault (by simp) (hg.nat h.delayMs)) <|
    .bind (w.withDefault (by simp) (p.strategy.decode_toJson hg)) <| .pure p

theorem yields_decode (hS : Source.Hereditary S) : decode.Yields S Settled := by
  refine Decoder.yields_record ?_ hS
  refine .bind (RecordReader.yields_withDefault (Decoder.yields_natBelow 32) ["attempts"]
    (by decide)) fun _ attempts => ?_
  refine .bind (RecordReader.yields_withDefault (Decoder.yields_natBelow 64) ["delayMs", "delay"]
    (by decide)) fun _ delayMs => ?_
  exact .bind (RecordReader.yields_withDefault (Decoder.yields_true _) ["strategy"] trivial)
    fun _ _ => RecordReader.yields_pure ⟨attempts, delayMs⟩

end RetryPolicy

namespace DataSource

/-- Keys ascend, JSON is settled and numbers fit. -/
structure Settled (d : DataSource) : Prop where
  headers : (d.headers.map (·.1)).Pairwise (· < ·)
  queryParams : (d.queryParams.map (·.1)).Pairwise (· < ·) ∧ ∀ p ∈ d.queryParams, p.2.Settled
  body : ∀ v ∈ d.body, v.Settled
  retry : ∀ p ∈ d.retry, p.Settled
  timeoutMs : ∀ t ∈ d.timeoutMs, t < Bits.values 64
  vars : ∀ v ∈ d.vars, v.Settled

/-- The body or the variables are there, but null. Written down, they look as if they were not there. -/
def HoldsNull (d : DataSource) : Prop := d.body = some .null ∨ d.vars = some .null

theorem decode_toJson (hg : Hands g) {d : DataSource} (h : d.Settled) (there : ¬ d.HoldsNull) :
    decode (g d.toJson) = some d := by
  have noBody : d.body ≠ some .null := fun same => there (.inl same)
  have noVars : d.vars ≠ some .null := fun same => there (.inr same)
  exact hg.record (by simp) fun fs w =>
    .bind (w.required (by simp) (hg.string d.id)) <|
    .bind (w.withDefault (by simp) (hg.optionString d.name)) <|
    .bind (w.withDefault (by simp) (hg.option (fun m _ => m.decode_toJson hg) rfl)) <|
    .bind (w.withDefault (by simp) (hg.optionString d.baseUrl)) <|
    .bind (w.withDefault (by simp) (hg.string d.path)) <|
    .bind (w.withDefault (by simp) (hg.map h.headers fun f _ => hg.string f.2)) <|
    .bind (w.withDefault (by simp) (hg.values h.queryParams.1 h.queryParams.2)) <|
    .bind (w.withDefault (by simp) (hg.optionValue h.body noBody)) <|
    .bind (w.withDefault (by simp) (d.bodyEncoding.decode_toJson hg)) <|
    .bind (w.withDefault (by simp) (hg.option (fun c _ => c.decode_toJson hg) rfl)) <|
    .bind (w.withDefault (by simp) (d.credentials.decode_toJson hg)) <|
    .bind (w.withDefault (by simp)
      (hg.option (fun p hp => RetryPolicy.decode_toJson hg (h.retry p hp)) rfl)) <|
    .bind (w.withDefault (by simp) (hg.option (fun t ht => hg.nat (h.timeoutMs t ht)) rfl)) <|
    .bind (w.withDefault (by simp) (hg.option (fun o _ => o.decode_toJson hg) rfl)) <|
    .bind (w.withDefault (by simp) (hg.optionString d.query)) <|
    .bind (w.withDefault (by simp) (hg.optionValue h.vars noVars)) <|
    .bind (w.withDefault (by simp) (hg.option (fun p _ => p.decode_toJson hg) rfl)) <|
    .pure d

/-- A text has only one way to leave out the body or the variables, and null is not another value. -/
theorem yields_decode : decode.Yields Source.Finite fun d => d.Settled ∧ ¬ d.HoldsNull := by
  have hS := Source.hereditary_finite
  refine Decoder.yields_record ?_ hS
  refine .bind (RecordReader.yields_required (Decoder.yields_true _) "id") fun _ _ => ?_
  refine .bind (RecordReader.yields_optional (Decoder.yields_true _) "name") fun _ _ => ?_
  refine .bind (RecordReader.yields_optional (Decoder.yields_true _) "method") fun _ _ => ?_
  refine .bind (RecordReader.yields_optional (Decoder.yields_true _) "baseUrl") fun _ _ => ?_
  refine .bind (RecordReader.yields_withDefault (Decoder.yields_true _) ["path", "url"] trivial)
    fun _ _ => ?_
  refine .bind (RecordReader.yields_withDefault ((Decoder.yields_true _).map hS) ["headers"]
    ⟨.nil, List.forall_mem_nil _⟩) fun _ headers => ?_
  refine .bind (RecordReader.yields_withDefault (Decoder.yields_value.map hS) ["queryParams"]
    ⟨.nil, List.forall_mem_nil _⟩) fun _ queryParams => ?_
  refine .bind (RecordReader.yields_withDefault Decoder.yields_option_value ["body"]
    ⟨nofun, nofun⟩) fun _ body => ?_
  refine .bind (RecordReader.yields_withDefault (Decoder.yields_true _) ["bodyEncoding"] trivial)
    fun _ _ => ?_
  refine .bind (RecordReader.yields_optional (Decoder.yields_true _) "auth") fun _ _ => ?_
  refine .bind (RecordReader.yields_withDefault (Decoder.yields_true _) ["credentials"] trivial)
    fun _ _ => ?_
  refine .bind (RecordReader.yields_optional (RetryPolicy.yields_decode hS) "retry")
    fun _ retry => ?_
  refine .bind (RecordReader.yields_optional (Decoder.yields_natBelow 64) "timeoutMs")
    fun _ timeoutMs => ?_
  refine .bind (RecordReader.yields_optional (Decoder.yields_true _) "operation") fun _ _ => ?_
  refine .bind (RecordReader.yields_optional (Decoder.yields_true _) "query") fun _ _ => ?_
  refine .bind (RecordReader.yields_withDefault Decoder.yields_option_value ["variables"]
    ⟨nofun, nofun⟩) fun _ vars => ?_
  refine .bind (RecordReader.yields_optional (Decoder.yields_true _) "subscriptionProtocol")
    fun _ _ => RecordReader.yields_pure ⟨?_, ?_⟩
  · exact ⟨headers.1, queryParams, body.1, retry, timeoutMs, vars.1⟩
  · rintro (blank | blank)
    · exact body.2 blank
    · exact vars.2 blank

end DataSource

end ScreenFlow
