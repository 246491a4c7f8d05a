import Mathlib.Data.List.Forall2
import Mathlib.Data.List.Induction
import Mathlib.Data.List.Nodup
import Mathlib.Logic.ExistsUnique
import ScreenFlow.Export
import ScreenFlow.Proofs.Json.Fields

/-!
# Exported tables read back

The text of a table is read by the grammar of comma-separated values: records that end with CR LF,
and fields that hold a comma, a quote or a line end only between quotes, each quote doubled.

* `Records`, `Records.read`: the grammar, and a reader that finds what it derives;
* `records_table`: the grammar derives the columns and the rows of a table from its text;
* `columns_spec`: the columns that rows have by themselves;
* `table_reads_back`: a table is read as its columns and rows and as nothing else.
-/

namespace ScreenFlow.Csv

/-! ### The grammar -/

/-- A character that stands for itself outside of quotes. -/
abbrev Bare (c : Char) : Prop := c ∉ [',', '"', '\n', '\r']

/-- The inside of a quoted field, in which a quote is doubled. -/
inductive Quoted : List Char → List Char → Prop
  | done : Quoted [] []
  | char {c text value} (other : c ≠ '"') (rest : Quoted text value) :
      Quoted (c :: text) (c :: value)
  | quote {text value} (rest : Quoted text value) : Quoted ('"' :: '"' :: text) ('"' :: value)

inductive Field : List Char → List Char → Prop
  | bare {value} (plain : ∀ c ∈ value, Bare c) : Field value value
  | quoted {text value} (inside : Quoted text value) : Field ('"' :: (text ++ ['"'])) value

/-- One field or several, with commas between them. -/
inductive Record : List Char → List String → Prop
  | last {text value} (field : Field text value) : Record text [String.ofList value]
  | next {text value rest values} (field : Field text value) (record : Record rest values) :
      Record (text ++ ',' :: rest) (String.ofList value :: values)

/-- Any number of records. The last one may lack its line end if there is anything in it. -/
inductive Records : List Char → List (List String) → Prop
  | done : Records [] []
  | next {text record rest records} (first : Record text record) (more : Records rest records) :
      Records (text ++ '\r' :: '\n' :: rest) (record :: records)
  | last {text record} (first : Record text record) (there : text ≠ []) : Records text [record]

/-! ### A reader -/

/-- Where the reader is in a field: before its first character, in it with or without quotes, behind
a quote that ends it unless another one follows, or behind the CR after it. -/
inductive Mode where
  | fresh
  | bare
  | quoted
  | closed
  | ended
deriving DecidableEq

/-- What was read: the records, the fields of one more record and the text of one more field. -/
structure Reading where
  records : List (List String) := []
  fields : List String := []
  text : List Char := []
  mode : Mode := .fresh

namespace Reading

def record (s : Reading) : List String := s.fields ++ [String.ofList s.text]

/-- What may follow a field. -/
def separate (s : Reading) (c : Char) : Option Reading :=
  if c = ',' then some { s with fields := s.record, text := [], mode := .fresh }
  else if c = '\r' then some { s with mode := .ended }
  else none

def add (s : Reading) (c : Char) (mode : Mode) : Reading :=
  { s with text := s.text ++ [c], mode := mode }

def step (s : Reading) (c : Char) : Option Reading :=
  match s.mode with
  | .fresh =>
    if c = '"' then some { s with mode := .quoted }
    else if Bare c then some (s.add c .bare)
    else s.separate c
  | .bare => if Bare c then some (s.add c .bare) else s.separate c
  | .quoted => some (if c = '"' then { s with mode := .closed } else s.add c .quoted)
  | .closed => if c = '"' then some (s.add c .quoted) else s.separate c
  | .ended => if c = '\n' then some { records := s.records ++ [s.record] } else none

def finish (s : Reading) : Option (List (List String)) :=
  match s.mode with
  | .fresh => if s.fields = [] then some s.records else some (s.records ++ [s.record])
  | .bare | .closed => some (s.records ++ [s.record])
  | .quoted | .ended => none

end Reading

def read (text : List Char) : Option (List (List String)) :=
  (text.foldlM Reading.step {}).bind Reading.finish

/-- A field may end here: behind something of it, or before its first character if it is empty. -/
inductive Mode.Ends (text : List Char) : Mode → Prop
  | bare : Ends text .bare
  | closed : Ends text .closed
  | fresh (empty : text = []) : Ends text .fresh

section Reader

variable {text value : List Char} {values fs : List String} {records rs : List (List String)}
  {mode : Mode}

theorem Quoted.run (inside : Quoted text value) (v : List Char) :
    text.foldlM Reading.step ⟨rs, fs, v, .quoted⟩ = some ⟨rs, fs, v ++ value, .quoted⟩ := by
  induction inside generalizing v with
  | done => rw [List.append_nil]; rfl
  | @char c text value other rest ih =>
    have step : Reading.step ⟨rs, fs, v, .quoted⟩ c = some ⟨rs, fs, v ++ [c], .quoted⟩ := by
      simp [Reading.step, Reading.add, other]
    rw [List.foldlM_cons, step]
    simpa using ih (v ++ [c])
  | quote rest ih =>
    have steps (text : List Char) : ('"' :: '"' :: text).foldlM Reading.step ⟨rs, fs, v, .quoted⟩ =
        text.foldlM Reading.step ⟨rs, fs, v ++ ['"'], .quoted⟩ := rfl
    rw [steps]
    simpa using ih (v ++ ['"'])

theorem run_bare (plain : ∀ c ∈ value, Bare c) (v : List Char) :
    value.foldlM Reading.step ⟨rs, fs, v, .bare⟩ = some ⟨rs, fs, v ++ value, .bare⟩ := by
  induction value generalizing v with
  | nil => rw [List.append_nil]; rfl
  | cons c value ih =>
    have step : Reading.step ⟨rs, fs, v, .bare⟩ c = some ⟨rs, fs, v ++ [c], .bare⟩ :=
      if_pos (plain c List.mem_cons_self)
    rw [List.foldlM_cons, step]
    simpa using ih (fun c hc => plain c (List.mem_cons_of_mem _ hc)) (v ++ [c])

theorem Field.run (field : Field text value) (rs : List (List String)) (fs : List String) :
    ∃ mode : Mode, mode.Ends text ∧
      text.foldlM Reading.step ⟨rs, fs, [], .fresh⟩ = some ⟨rs, fs, value, mode⟩ := by
  cases field with
  | bare plain =>
    cases text with
    | nil => exact ⟨.fresh, .fresh rfl, rfl⟩
    | cons c text =>
      have bare : Bare c := plain c List.mem_cons_self
      have step : Reading.step ⟨rs, fs, [], .fresh⟩ c = some ⟨rs, fs, [c], .bare⟩ := by
        have noQuote : c ≠ '"' := fun same => bare (by simp [same])
        exact (if_neg noQuote).trans (if_pos bare)
      refine ⟨.bare, .bare, ?_⟩
      rw [List.foldlM_cons, step]
      exact run_bare (fun c hc => plain c (List.mem_cons_of_mem _ hc)) [c]
  | quoted inside =>
    refine ⟨.closed, .closed, ?_⟩
    have opening (text : List Char) : ('"' :: text).foldlM Reading.step ⟨rs, fs, [], .fresh⟩ =
        text.foldlM Reading.step ⟨rs, fs, [], .quoted⟩ := rfl
    rw [opening, List.foldlM_append, inside.run]
    rfl

theorem step_separator (ends : mode.Ends text) (c : Char) (separates : c = ',' ∨ c = '\r') :
    Reading.step ⟨rs, fs, value, mode⟩ c = Reading.separate ⟨rs, fs, value, mode⟩ c := by
  rcases separates with rfl | rfl <;> cases ends <;> rfl

/-- The last field of a record is still open when the record was read. -/
theorem Record.run (derives : Record text values) (rs : List (List String)) (fs : List String) :
    ∃ (mode : Mode) (earlier : List String) (value : List Char),
      values = earlier ++ [String.ofList value] ∧
      (∃ last, mode.Ends last ∧ (earlier = [] → last = text)) ∧
      text.foldlM Reading.step ⟨rs, fs, [], .fresh⟩ = some ⟨rs, fs ++ earlier, value, mode⟩ := by
  induction derives generalizing fs with
  | last field =>
    obtain ⟨mode, ends, run⟩ := field.run rs fs
    exact ⟨mode, [], _, rfl, ⟨_, ends, fun _ => rfl⟩, by rw [run, List.append_nil]⟩
  | @next text value rest values field record ih =>
    obtain ⟨mode, ends, run⟩ := field.run rs fs
    obtain ⟨mode', earlier, value', parts, ⟨last, ends', -⟩, run'⟩ :=
      ih (fs ++ [String.ofList value])
    refine ⟨mode', String.ofList value :: earlier, value', by rw [parts]; rfl,
      ⟨last, ends', nofun⟩, ?_⟩
    rw [List.foldlM_append, run]
    simp only [Option.bind_eq_bind, Option.bind_some, List.foldlM_cons,
      step_separator ends ',' (.inl rfl)]
    simpa [Reading.separate, Reading.record] using run'

theorem finish_last (ends : mode.Ends text) (there : fs = [] → text ≠ []) :
    Reading.finish ⟨rs, fs, value, mode⟩ = some (rs ++ [fs ++ [String.ofList value]]) := by
  cases ends with
  | bare | closed => rfl
  | fresh empty => exact if_neg fun none => there none empty

/-- The reader finds what the grammar derives. -/
theorem Records.read (derives : Records text records) : read text = some records := by
  suffices ∀ rs, (text.foldlM Reading.step ⟨rs, [], [], .fresh⟩).bind Reading.finish =
      some (rs ++ records) from this []
  induction derives with
  | done => exact fun rs => congrArg some (List.append_nil rs).symm
  | next first more ih =>
    intro rs
    obtain ⟨mode, earlier, value, rfl, ⟨last, ends, -⟩, run⟩ := first.run rs []
    rw [List.foldlM_append, run]
    simp only [Option.bind_eq_bind, Option.bind_some, List.foldlM_cons,
      step_separator ends '\r' (.inr rfl)]
    simpa [Reading.separate, Reading.step, Reading.record] using
      ih (rs ++ [earlier ++ [String.ofList value]])
  | last first there =>
    intro rs
    obtain ⟨mode, earlier, value, rfl, ⟨last, ends, only⟩, run⟩ := first.run rs []
    rw [run, Option.bind_some, List.nil_append]
    exact finish_last ends fun none => only none ▸ there

example : read "a,\"b\"\"c\"\r\n,d".toList = some [["a", "b\"c"], ["", "d"]] := by decide +kernel

end Reader

/-! ### What is written -/

section Writing

theorem quoted_escape (cell : List Char) : Quoted (escape cell) cell := by
  induction cell with
  | nil => exact .done
  | cons c cell ih =>
    by_cases quote : c = '"'
    · subst quote
      exact .quote ih
    · rw [escape, List.flatMap_cons, if_neg quote]
      exact .char quote ih

theorem field_derives (cell : List Char) : Field (field cell) cell := by
  unfold field
  split
  · exact .quoted (quoted_escape cell)
  · rename_i bare
    refine .bare fun c hc special => bare ?_
    exact List.any_eq_true.mpr ⟨c, hc, by simpa using special⟩

theorem record_fields {cells : List (List Char)} (some : cells ≠ []) :
    Record (fields cells) (cells.map String.ofList) := by
  induction cells using fields.induct with
  | case1 => exact absurd rfl some
  | case2 c => exact .last (field_derives c)
  | case3 c cells more ih =>
    rw [fields]
    · exact .next (field_derives c) (ih more)
    · exact more

/-- The row is an object that has this value in the column. -/
def Holds (row : Json) (column : String) (v : Json) : Prop :=
  ∃ fields, row = .obj fields ∧ Json.lookup fields column = some v

/-- The text of a row in a column. There is none where the row has no value but null. -/
inductive Shown (row : Json) (column : String) : String → Prop
  | missing (nothing : ∀ v, Holds row column v → v = .null) : Shown row column ""
  | value {v t} (holds : Holds row column v) (text : v.Inline t) : Shown row column t

theorem holds_iff {row v : Json} {column : String} :
    Holds row column v ↔ row.get? column = some v := by
  cases row <;> simp [Json.get?, Holds]

theorem Holds.unique {row v v' : Json} {column : String} (holds : Holds row column v)
    (holds' : Holds row column v') : v = v' :=
  Option.some.inj ((holds_iff.mp holds).symm.trans (holds_iff.mp holds'))

theorem Holds.text {row v : Json} {column t : String} (holds : Holds row column v)
    (there : v ≠ .null) (shown : Shown row column t) : v.Inline t := by
  cases shown with
  | missing nothing => exact absurd (nothing v holds) there
  | value holds' text => exact holds.unique holds' ▸ text

theorem shown_iff {row : Json} {column t : String} :
    Shown row column t ↔ t = String.ofList (cell row column) := by
  unfold cell
  cases given : row.get? column with
  | none =>
    have nothing (v : Json) : ¬ Holds row column v := fun holds => by
      cases (holds_iff.mp holds).symm.trans given
    constructor
    · intro shown
      cases shown with
      | missing => rfl
      | value holds => exact absurd holds (nothing _)
    · rintro rfl
      exact .missing fun v holds => absurd holds (nothing v)
  | some v =>
    have holds : Holds row column v := holds_iff.mpr given
    dsimp only
    rw [String.ofList_toList]
    by_cases null : v = .null
    · subst null
      constructor
      · intro shown
        cases shown with
        | missing => rfl
        | value holds' text => exact absurd (holds'.unique holds) (Json.inline_iff.mp text).1
      · rintro rfl
        exact .missing fun v holds' => holds'.unique holds
    · constructor
      · exact fun shown => (Json.inline_iff.mp (holds.text null shown)).2
      · exact fun same => .value holds (Json.inline_iff.mpr ⟨null, same⟩)

/-- The records of rows: each has one text for each column. -/
def Rows (columns : List String) (rows : List Json) (records : List (List String)) : Prop :=
  List.Forall₂ (fun row record => List.Forall₂ (Shown row) columns record) rows records

theorem forall₂_iff_eq_map {α β : Type} {R : α → β → Prop} {f : α → β} {as : List α} {bs : List β}
    (h : ∀ a b, R a b ↔ b = f a) : List.Forall₂ R as bs ↔ bs = as.map f := by
  have same : R = fun a b => f a = b := funext fun a => funext fun b =>
    propext ((h a b).trans eq_comm)
  rw [same, ← List.forall₂_map_left_iff (R := Eq), List.forall₂_eq_eq_eq, eq_comm]

theorem rows_iff {columns : List String} {rows : List Json} {records : List (List String)} :
    Rows columns rows records ↔ records = rows.map fun row =>
      columns.map fun column => String.ofList (cell row column) :=
  forall₂_iff_eq_map fun _ _ => forall₂_iff_eq_map fun _ _ => shown_iff

theorem next_line {cells : List (List Char)} {text : List Char} {records : List (List String)}
    (given : cells ≠ []) (more : Records text records) :
    Records (line cells ++ text) (cells.map String.ofList :: records) := by
  have parts : line cells ++ text = fields cells ++ '\r' :: '\n' :: text := by simp [line]
  rw [parts]
  exact .next (record_fields given) more

/-- The grammar derives the columns and the rows from the text of a table. -/
theorem records_table {columns : List String} {rows : List Json} {records : List (List String)}
    (given : columns ≠ []) (shown : Rows columns rows records) :
    Records (table columns rows).toList (columns :: records) := by
  obtain rfl := rows_iff.mp shown
  have cells {α : Type} (f : String → α) : columns.map f ≠ [] := mt List.map_eq_nil_iff.mp given
  have body : Records (rows.flatMap fun row => line (columns.map (cell row))) (rows.map fun row =>
      columns.map fun column => String.ofList (cell row column)) := by
    induction rows with
    | nil => exact .done
    | cons row rows ih =>
      have first := next_line (cells (cell row)) (ih (rows_iff.mpr rfl))
      rw [List.map_map] at first
      exact first
  rw [table, String.toList_ofList]
  simpa using next_line (cells String.toList) body

end Writing

/-! ### Columns of their own -/

section Columns

variable {rows : List Json} {row : Json} {k : String}

/-- Adding keys that are not there yet keeps each of them once. -/
theorem foldl_add {seen : List String} (once : seen.Nodup) (keys : List String) :
    (keys.foldl (fun seen k => if seen.contains k then seen else seen ++ [k]) seen).Nodup ∧
      ∀ k, k ∈ keys.foldl (fun seen k => if seen.contains k then seen else seen ++ [k]) seen ↔
        k ∈ seen ∨ k ∈ keys := by
  induction keys generalizing seen with
  | nil => exact ⟨once, by simp⟩
  | cons key keys ih =>
    rw [List.foldl_cons]
    by_cases there : key ∈ seen
    · rw [if_pos (List.contains_iff_mem.mpr there)]
      obtain ⟨nodup, mem⟩ := ih once
      refine ⟨nodup, fun k => (mem k).trans ?_⟩
      grind
    · rw [if_neg (by simpa using there)]
      obtain ⟨nodup, mem⟩ := ih (once.append (List.nodup_singleton key)
        (List.disjoint_singleton.mpr there))
      refine ⟨nodup, fun k => (mem k).trans ?_⟩
      simp [or_assoc]

def keys (row : Json) : List String := (row.fields?.getD []).map (·.1)

theorem columns_spec (rows : List Json) : (columns rows).Nodup ∧
    ∀ k, k ∈ columns rows ↔ ∃ row ∈ rows, k ∈ keys row := by
  unfold columns
  induction rows using List.reverseRecOn with
  | nil => simp
  | append_singleton rows row ih =>
    obtain ⟨once, mem⟩ := ih
    rw [List.foldl_append, List.foldl_cons, List.foldl_nil]
    obtain ⟨nodup, mem'⟩ := foldl_add once (keys row)
    refine ⟨nodup, fun k => (mem' k).trans ?_⟩
    rw [mem]
    simp [or_and_right, exists_or]

theorem mem_keys : k ∈ keys row ↔ ∃ fields, row = .obj fields ∧ ∃ f ∈ fields, f.1 = k := by
  cases row <;> simp [keys, Json.fields?]

theorem Holds.mem_keys {v : Json} (holds : Holds row k v) : k ∈ keys row := by
  obtain ⟨fields, rfl, found⟩ := holds
  obtain ⟨f, there, -⟩ := Option.map_eq_some_iff.mp found
  have same := List.find?_some there
  exact Csv.mem_keys.mpr ⟨fields, rfl, f, List.mem_of_find?_eq_some there, by simpa using same⟩

end Columns

/-! ### Reading back -/

section Back

variable {names : List String} {rows : List Json} {records : List (List String)} {row v : Json}
  {k : String} {i j : Nat}

theorem Rows.field (shown : Rows names rows records) (hrow : rows[i]? = some row)
    (hcolumn : names[j]? = some k) : ∃ record t,
      records[i]? = some record ∧ record[j]? = some t ∧ Shown row k t := by
  obtain rfl := rows_iff.mp shown
  refine ⟨names.map fun column => String.ofList (cell row column), _, ?_, ?_, shown_iff.mpr rfl⟩
  · rw [List.getElem?_map, hrow, Option.map_some]
  · rw [List.getElem?_map, hcolumn, Option.map_some]

/-- The value of this row at this key is what a field shows. -/
def FieldShows (names : List String) (records : List (List String)) (i : Nat) (k : String)
    (v : Json) (j : Nat) : Prop :=
  names[j]? = some k ∧ ∃ record t, records[i]? = some record ∧ record[j]? = some t ∧ v.Inline t

/-- No column repeats, every key of an object has one, and every value that is not null is shown in
one field. -/
structure Covers (names : List String) (rows : List Json) : Prop where
  once : names.Nodup
  all : ∀ fields, .obj fields ∈ rows → ∀ f ∈ fields, f.1 ∈ names
  placed : ∀ records, Rows names rows records → ∀ i row k v, rows[i]? = some row →
    Holds row k v → v ≠ .null → ∃! j, FieldShows names records i k v j

theorem columns_covers (rows : List Json) : Covers (columns rows) rows := by
  obtain ⟨once, mem⟩ := columns_spec rows
  refine ⟨once, fun fields there f hf => ?_, fun records shown i row k v hrow holds present => ?_⟩
  · exact (mem f.1).mpr ⟨_, there, mem_keys.mpr ⟨fields, rfl, f, hf, rfl⟩⟩
  · have there : k ∈ columns rows :=
      (mem k).mpr ⟨row, List.mem_of_getElem? hrow, holds.mem_keys⟩
    obtain ⟨j, hj, hk⟩ := List.getElem_of_mem there
    have hcolumn : (columns rows)[j]? = some k := by rw [List.getElem?_eq_getElem hj, hk]
    obtain ⟨record, t, hrecord, ht, cell⟩ := shown.field hrow hcolumn
    refine ⟨j, ⟨hcolumn, record, t, hrecord, ht, holds.text present cell⟩, fun j' shows => ?_⟩
    exact ((List.getElem?_inj hj once).mp (hcolumn.trans shows.1.symm)).symm

/-- The text of a table is read as its columns and one record for each row, and as nothing else. The
columns that rows have by themselves leave no value out. -/
theorem table_reads_back (rows : List Json) :
    (∀ names, names ≠ [] → ∃ records, Rows names rows records ∧
      ∀ rs, Records (table names rows).toList rs ↔ rs = names :: records) ∧
    Covers (columns rows) rows := by
  refine ⟨fun names given => ?_, columns_covers rows⟩
  have derives := records_table given (rows_iff.mpr rfl : Rows names rows _)
  refine ⟨_, rows_iff.mpr rfl, fun rs => ⟨fun derives' => ?_, fun same => same ▸ derives⟩⟩
  exact Option.some.inj (derives'.read.symm.trans derives.read)

def people : List Json :=
  [.obj [("name", .str "Ada"), ("note", .str "likes \"math\",\r\ntea")], .null,
    .obj [("age", .num (.int 85)), ("name", .str "Grace"), ("note", .null)]]

theorem table_reads_back_people : ["note", "a,b", "age"] ≠ [] ∧
    ∀ rs, Records (table ["note", "a,b", "age"] people).toList rs ↔
      rs = [["note", "a,b", "age"], ["likes \"math\",\r\ntea", "", ""], ["", "", ""],
        ["", "", "85"]] := by
  have given : ["note", "a,b", "age"] ≠ [] := nofun
  obtain ⟨records, shown, only⟩ := (table_reads_back people).1 _ given
  obtain rfl := rows_iff.mp shown
  exact ⟨given, fun rs => (only rs).trans (by rfl)⟩

end Back

end ScreenFlow.Csv
