import Mathlib.Logic.ExistsUnique
import ScreenFlow.Proofs.Offline.QueryParams
import ScreenFlow.Proofs.Resolve.Payload

/-!
# Query parameters of a resolved URL

The parameters of a source are put behind the query that its path has already. Whatever they hold,
reading the query gives them back.

* `Sent`, `sent_iff`: the pairs that the resolved parameters stand for;
* `addQuery_extends`: a URL that gets pairs has them behind its own;
* `build_extends`: the URL of a source has the pairs of its parameters, and no others.
-/

namespace ScreenFlow.Url

/-! ### The pairs -/

/-- The texts of the elements of an array, in their order. Null is left out. -/
inductive Elements : List Json → List String → Prop
  | done : Elements [] []
  | skip {items texts} (rest : Elements items texts) : Elements (.null :: items) texts
  | next {v t items texts} (first : v.Inline t) (rest : Elements items texts) :
      Elements (v :: items) (t :: texts)

/-- The texts that a resolved value gives its parameter. -/
inductive Given : Json → List String → Prop
  | nothing : Given .null []
  | array {items texts} (each : Elements items texts) : Given (.arr items) texts
  | single {v t} (noArray : ∀ items, v ≠ .arr items) (text : v.Inline t) : Given v [t]

/-- The pairs of all parameters, in their order. -/
inductive Sent (fill : Json → Json) : List (String × Json) → List (String × String) → Prop
  | done : Sent fill [] []
  | next {key template texts params ps} (given : Given (fill template) texts)
      (rest : Sent fill params ps) :
      Sent fill ((key, template) :: params) (texts.map (fun t => (key, t)) ++ ps)

variable {v : Json} {t key : String} {texts : List String} {items : List Json}
  {fill : Json → Json} {params : List (String × Json)} {ps : List (String × String)}

theorem elements_iff :
    Elements items texts ↔ texts = (items.filter (!·.isNull)).map Json.inlineText := by
  induction items generalizing texts with
  | nil =>
    constructor
    · rintro ⟨⟩
      rfl
    · rintro rfl
      exact .done
  | cons v items ih =>
    cases v with
    | null =>
      constructor
      · intro elements
        cases elements with
        | skip rest => exact ih.mp rest
        | next first => exact absurd rfl (Json.inline_iff.mp first).1
      · exact fun same => .skip (ih.mpr same)
    | _ =>
      constructor
      · intro elements
        cases elements with
        | next first rest =>
          obtain ⟨-, rfl⟩ := Json.inline_iff.mp first
          rw [ih.mp rest]
          rfl
      · rintro rfl
        exact .next (Json.inline_iff.mpr ⟨nofun, rfl⟩) (ih.mpr rfl)

theorem Given.pairs_eq (given : Given v texts) : pairs key v = texts.map fun t => (key, t) := by
  cases given with
  | nothing => rfl
  | array each =>
    rw [elements_iff.mp each, List.map_map]
    rfl
  | single noArray text =>
    obtain ⟨there, rfl⟩ := Json.inline_iff.mp text
    cases v with
    | null => exact absurd rfl there
    | arr items => exact absurd rfl (noArray items)
    | _ => rfl

theorem exists_given (v : Json) : ∃ texts, Given v texts := by
  cases v with
  | null => exact ⟨_, .nothing⟩
  | arr items => exact ⟨_, .array (elements_iff.mpr rfl)⟩
  | _ => exact ⟨_, .single nofun (Json.inline_iff.mpr ⟨nofun, rfl⟩)⟩

/-- There is one list of pairs that the parameters stand for. -/
theorem sent_iff : Sent fill params ps ↔ ps = params.flatMap fun p => pairs p.1 (fill p.2) := by
  induction params generalizing ps with
  | nil =>
    constructor
    · rintro ⟨⟩
      rfl
    · rintro rfl
      exact .done
  | cons p params ih =>
    obtain ⟨key, template⟩ := p
    rw [List.flatMap_cons]
    constructor
    · intro sent
      cases sent with
      | next given rest => rw [given.pairs_eq, ih.mp rest]
    · rintro rfl
      obtain ⟨texts, given⟩ := exists_given (fill template)
      rw [given.pairs_eq]
      exact .next given (ih.mpr rfl)

theorem Sent.exists_param {p : String × String} (sent : Sent fill params ps) (hp : p ∈ ps) :
    ∃ f ∈ params, f.1 = p.1 := by
  induction sent with
  | done => cases hp
  | next given rest ih =>
    rcases List.mem_append.mp hp with here | later
    · obtain ⟨t, -, rfl⟩ := List.mem_map.mp here
      exact ⟨_, List.mem_cons_self, rfl⟩
    · obtain ⟨f, hf, same⟩ := ih later
      exact ⟨f, List.mem_cons_of_mem _ hf, same⟩

/-- Parameters in key order give pairs in key order. -/
theorem Sent.sorted (sent : Sent fill params ps) (ascending : Json.Ascending params) :
    ps.Pairwise (·.1 ≤ ·.1) := by
  induction sent with
  | done => exact .nil
  | next given rest ih =>
    obtain ⟨above, ascending⟩ := List.pairwise_cons.mp ascending
    refine List.pairwise_append.mpr ⟨?_, ih ascending, fun p hp q hq => ?_⟩
    · exact List.pairwise_map.mpr (List.pairwise_of_forall fun _ _ => String.le_refl _)
    · obtain ⟨t, -, rfl⟩ := List.mem_map.mp hp
      obtain ⟨f, hf, same⟩ := rest.exists_param hq
      exact String.not_lt.mp (String.lt_asymm (same ▸ above f hf))

/-! ### The URL -/

/-- The pairs in the query of a URL: what stands behind the first `?`, read as a form. -/
def held (url : String) : List (String × String) :=
  FormFields.decode ((splitQuery url).2.getD "")

/-- The URL has these pairs behind those that were there, and is otherwise the same. -/
structure Extends (before : String) (ps : List (String × String)) (url : String) : Prop where
  address : (splitQuery url).1 = (splitQuery before).1
  held : held url = held before ++ ps
  bare : ps = [] → url = before

theorem extends_of_absent {url : String} (absent : '?' ∉ url.toList) (given : ps ≠ []) :
    Extends url ps (url ++ "?" ++ FormFields.encode ps) := by
  have text : (url ++ "?" ++ FormFields.encode ps).toList =
      url.toList ++ '?' :: (FormFields.encode ps).toList := by simp
  obtain ⟨address, query⟩ := splitQuery_append absent text
  have none : held url = [] := by
    rw [held, splitQuery_absent absent]
    exact FormFields.decode_encode []
  refine ⟨?_, ?_, fun empty => absurd empty given⟩
  · rw [address, splitQuery_absent absent, String.ofList_toList]
  · rw [none, held, query, String.ofList_toList, FormFields.decode_encode, List.nil_append]

theorem extends_of_there {url : String} (there : '?' ∈ url.toList) (given : ps ≠ []) :
    Extends url ps (url ++ "&" ++ FormFields.encode ps) := by
  obtain ⟨before, after, whole, absent⟩ := List.eq_append_cons_of_mem there
  have text : (url ++ "&" ++ FormFields.encode ps).toList =
      before ++ '?' :: (String.ofList after ++ "&" ++ FormFields.encode ps).toList := by
    simp [whole]
  obtain ⟨address, query⟩ := splitQuery_append absent whole
  obtain ⟨address', query'⟩ := splitQuery_append absent text
  refine ⟨address'.trans address.symm, ?_, fun empty => absurd empty given⟩
  rw [held, held, query, query', String.ofList_toList, FormFields.decode_append,
    FormFields.decode_encode]

theorem addQuery_extends (url : String) (ps : List (String × String)) :
    Extends url ps (addQuery url ps) := by
  cases ps with
  | nil => exact ⟨rfl, (List.append_nil _).symm, fun _ => rfl⟩
  | cons p ps =>
    by_cases there : '?' ∈ url.toList
    · have joined : addQuery url (p :: ps) = url ++ "&" ++ FormFields.encode (p :: ps) := by
        simp [addQuery, there]
      exact joined ▸ extends_of_there there nofun
    · have joined : addQuery url (p :: ps) = url ++ "?" ++ FormFields.encode (p :: ps) := by
        simp [addQuery, there]
      exact joined ▸ extends_of_absent there nofun

variable {d : DataSource} {g : Defaults} {scope : Json} {tr : Template.Translator} {url : String}

/-- The query parameters of a source stand for one list of pairs. Its URL has them behind the pairs
that were there before, in key order, and is otherwise the same. -/
theorem build_extends (built : build d g scope tr = .ok url) :
    (∃! ps, Sent (Template.resolve scope tr) d.queryParams ps) ∧
      ∀ ps, Sent (Template.resolve scope tr) d.queryParams ps →
        (Json.Ascending d.queryParams → ps.Pairwise (·.1 ≤ ·.1)) ∧
          Extends (target d g (Template.resolveText scope tr)) ps url := by
  refine ⟨⟨_, sent_iff.mpr rfl, fun _ => sent_iff.mp⟩, fun ps sent => ⟨sent.sorted, ?_⟩⟩
  unfold build at built
  dsimp only at built
  split at built
  · cases built
  · obtain rfl := sent_iff.mp sent
    obtain rfl := Except.ok.inj built
    exact addQuery_extends _ _

def search : DataSource where
  id := "search"
  path := "https://a/s?q=a%26b"
  queryParams := [("a&b=c", .str "1&q=2?#%+ é"), ("none", .null),
    ("tag", .arr [.str "{{x}}", .null, .bool true])]

def searchUrl : String :=
  "https://a/s?q=a%26b&a%26b%3Dc=1%26q%3D2%3F%23%25%2B+%C3%A9&tag=x+y&tag=true"

/-- No text of a value ends its pair or adds one. -/
theorem build_extends_search :
    build search {} (.obj [("x", .str "x y")]) Template.noTranslations = .ok searchUrl ∧
      held searchUrl =
        [("q", "a&b"), ("a&b=c", "1&q=2?#%+ é"), ("tag", "x y"), ("tag", "true")] := by
  have built : build search {} (.obj [("x", .str "x y")]) Template.noTranslations = .ok searchUrl :=
    ok_of_toOption (by decide +kernel)
  obtain ⟨-, later⟩ := build_extends built
  obtain ⟨-, extended⟩ := later _ (sent_iff.mpr rfl)
  refine ⟨built, extended.held.trans (by decide +kernel)⟩

end ScreenFlow.Url
