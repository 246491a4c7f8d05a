import ScreenFlow.Http.Decoding
import ScreenFlow.Proofs.Text.FormFields
import ScreenFlow.Proofs.Text.Occurrences

/-!
# The file name of an attachment

* `splitOn_joinLines`: the parameters of a disposition are cut one by one;
* `filename?_attachment`: the first extended name wins; without one it is the last plain name;
* `extended_quoted`, `plain_quoted`, `extended_escaped`: the names in one parameter;
* `names_read_iff`: a quoted name is read as it stands exactly if there is no semicolon in it, and
  which name is read if there is an escaped one as well.

Pieces are cut at every semicolon, those between quotes too. So a quoted name may hold what is read
as a parameter of its own.
-/

namespace ScreenFlow.Disposition

variable {n m s : String} {piece key value : List Char}

/-! ### Attachments as they are written -/

def quoted (name : String) : String := "filename=\"" ++ name ++ "\""

def charset : String := "UTF-8''"

/-- The name with everything but letters and digits in escapes. -/
def escaped (name : String) : String := "filename*=" ++ (charset ++ Percent.encode name)

/-- A plain name in its quotes. -/
def inQuotes (name : String) : List Char := '"' :: (name.toList ++ ['"'])

def extendedValue (name : String) : List Char := charset.toList ++ (Percent.encode name).toList

theorem toList_quoted (name : String) :
    (quoted name).toList = "filename".toList ++ '=' :: inQuotes name := by
  simp [quoted, inQuotes]

theorem toList_escaped (name : String) :
    (escaped name).toList = "filename*".toList ++ '=' :: extendedValue name := by
  simp [escaped, extendedValue]

def attachment (params : List String) : String :=
  Text.joinLines "; " ("attachment" :: params)

/-- The pieces of a parameter behind the blank that joins it. -/
def cuts (param : String) : List (List Char) := (' ' :: param.toList).splitOn ';'

theorem splitOn_joinLines (before : List Char) (s : String) (ps : List String) :
    (before ++ (Text.joinLines "; " (s :: ps)).toList).splitOn ';' =
      (before ++ s.toList).splitOn ';' ++ ps.flatMap cuts := by
  induction ps generalizing before s with
  | nil => simp [Text.joinLines]
  | cons p ps ih =>
    have shape : before ++ (Text.joinLines "; " (s :: p :: ps)).toList =
        (before ++ s.toList) ++ ';' :: ([' '] ++ (Text.joinLines "; " (p :: ps)).toList) := by
      simp [Text.joinLines]
    rw [shape, List.splitOn_append_cons_self, ih [' '] p, List.flatMap_cons]
    rfl

/-! ### Parameters -/

/-- What a parameter can be called. -/
structure IsKey (key : List Char) : Prop where
  nonempty : key ≠ []
  visible : ∀ c ∈ key, Text.isBlank c = false
  clear : '=' ∉ key ∧ ';' ∉ key

theorem isKey_of_all (nonempty : key ≠ [])
    (all : key.all (fun c => !Text.isBlank c && c != '=' && c != ';') = true) : IsKey key := by
  simp only [List.all_eq_true, Bool.and_eq_true, Bool.not_eq_true', bne_iff_ne] at all
  exact ⟨nonempty, fun c hc => (all c hc).1.1, fun h => (all _ h).1.2 rfl, fun h => (all _ h).2 rfl⟩

theorem isKey_plain : IsKey "filename".toList := isKey_of_all (by decide) (by decide)

theorem isKey_extended : IsKey "filename*".toList := isKey_of_all (by decide) (by decide)

theorem parameter?_named (isKey : IsKey key) (value : List Char) :
    parameter? (' ' :: (key ++ '=' :: value)) =
      some (key.map Text.lowerAscii, Text.trimChars (Text.trimEndChars value)) := by
  have whole : Text.trimChars key = key :=
    Text.trimChars_eq_self (fun c hc => isKey.visible c (List.mem_of_mem_head? hc))
      fun c hc => isKey.visible c (List.mem_of_mem_getLast? hc)
  have trimmed : Text.trimChars (' ' :: (key ++ '=' :: value)) =
      key ++ ['='] ++ Text.trimEndChars value := by
    obtain ⟨k, ks, rfl⟩ := List.exists_cons_of_ne_nil isKey.nonempty
    rw [Text.trimChars_blank rfl, Text.trimChars, List.cons_append,
      Text.trimStartChars_cons (isKey.visible k List.mem_cons_self), ← List.cons_append,
      Text.trimEndChars_append rfl]
    simp
  rw [parameter?, trimmed, Text.splitAt?_eq_some_iff.mpr ⟨rfl, .of_not_mem isKey.clear.1⟩]
  simp only [Option.map_some, whole]

/-- A value that neither begins nor ends with a blank is taken as it stands. -/
theorem parameter?_exact (isKey : IsKey key) (first : ∀ c ∈ value.head?, Text.isBlank c = false)
    (last : ∀ c ∈ value.getLast?, Text.isBlank c = false) :
    parameter? (' ' :: (key ++ '=' :: value)) = some (key.map Text.lowerAscii, value) := by
  rw [parameter?_named isKey, Text.trimEndChars_eq_self last, Text.trimChars_eq_self first last]

/-- The value stands in the piece, behind an equals sign. -/
theorem sublist_of_parameter? (h : parameter? piece = some (key, value)) :
    ('=' :: value).Sublist piece := by
  obtain ⟨⟨before, after⟩, found, same⟩ := Option.map_eq_some_iff.mp h
  obtain ⟨cut, -⟩ := Text.splitAt?_eq_some_iff.mp found
  obtain ⟨-, rfl⟩ := Prod.mk.inj same
  have inside : ('=' :: Text.trimChars after).Sublist (Text.trimChars piece) := by
    rw [cut, List.append_assoc]
    exact ((Text.trimChars_sublist after).cons_cons '=').trans (List.sublist_append_right ..)
  exact inside.trans (Text.trimChars_sublist piece)

theorem length_encodedPart_le (value : List Char) : (encodedPart value).length ≤ value.length := by
  unfold encodedPart
  split
  · rename_i charset rest first
    split
    · rename_i language encoded second
      rw [(Text.splitAt?_eq_some_iff.mp first).1, (Text.splitAt?_eq_some_iff.mp second).1]
      simp only [List.length_append]
      omega
    · exact Nat.le_refl _
  · exact Nat.le_refl _

/-! ### Names -/

/-- The name in a piece, if it is not empty. -/
def name? (read : List Char × List Char → Option String) (piece : List Char) : Option String :=
  ((parameter? piece).bind read).filter (!·.isEmpty)

variable {read : List Char × List Char → Option String}

theorem name?_eq_some_iff : name? read piece = some s ↔
    ∃ key value, parameter? piece = some (key, value) ∧ read (key, value) = some s ∧ s ≠ "" := by
  rw [name?, Option.filter_eq_some_iff, Option.bind_eq_some_iff]
  simp only [Prod.exists, Bool.not_eq_true', String.isEmpty_eq_false_iff]
  constructor
  · rintro ⟨⟨key, value, parameter, named⟩, nonempty⟩
    exact ⟨key, value, parameter, named, nonempty⟩
  · rintro ⟨key, value, parameter, named, nonempty⟩
    exact ⟨⟨key, value, parameter, named⟩, nonempty⟩

theorem filename?_eq (disposition : String) :
    filename? disposition =
      ((disposition.toList.splitOn ';').filterMap (name? extendedName?)).head?.or
        ((disposition.toList.splitOn ';').filterMap (name? plainName?)).getLast? := by
  have names (read) : ((parameters disposition).filterMap read).filter (!·.isEmpty) =
      (disposition.toList.splitOn ';').filterMap (name? read) := by
    rw [parameters, Text.splitChars_eq_splitOn, List.filterMap_filterMap, List.filter_filterMap]
    rfl
  rw [filename?, ← List.head?_filter, names, names]

/-- The first extended name wins; without one it is the last plain name. -/
theorem filename?_attachment (ps : List String) :
    filename? (attachment ps) =
      ((ps.flatMap cuts).filterMap (name? extendedName?)).head?.or
        ((ps.flatMap cuts).filterMap (name? plainName?)).getLast? := by
  have pieces : (attachment ps).toList.splitOn ';' = "attachment".toList :: ps.flatMap cuts :=
    splitOn_joinLines [] "attachment" ps
  rw [filename?_eq, pieces]
  rfl

/-- A parameter without semicolons whose value stands between no blanks. -/
theorem filterMap_cuts {param name : String} (shape : param.toList = key ++ '=' :: value)
    (isKey : IsKey key) (whole : ';' ∉ value) (first : ∀ c ∈ value.head?, Text.isBlank c = false)
    (last : ∀ c ∈ value.getLast?, Text.isBlank c = false)
    (named : read (key.map Text.lowerAscii, value) = some name) (stated : name ≠ "") :
    (cuts param).filterMap (name? read) = [name] := by
  have piece : cuts param = [' ' :: (key ++ '=' :: value)] := by
    rw [cuts, shape, List.splitOn_eq_singleton (by simpa using ⟨isKey.clear.2, whole⟩)]
  have found := name?_eq_some_iff.mpr ⟨_, _, parameter?_exact isKey first last, named, stated⟩
  rw [piece, List.filterMap_cons_some found, List.filterMap_nil]

/-! ### Quoted names -/

/-- Whatever the name says, the first cut is a plain name, and the others are those of the name. -/
theorem cuts_quoted (name : String) : ∃ value,
    cuts (quoted name) = (' ' :: ("filename".toList ++ '=' :: value)) ::
      ((name.toList ++ ['"']).splitOn ';').tail := by
  have shape : ' ' :: (quoted name).toList =
      (' ' :: ("filename".toList ++ ['=', '"'])) ++ (name.toList ++ ['"']) := by
    simp [toList_quoted, inQuotes]
  rw [cuts, shape, Text.splitOn_append (by decide)]
  obtain ⟨first, others, pieces⟩ :=
    List.exists_cons_of_ne_nil (List.splitOn_ne_nil ';' (name.toList ++ ['"']))
  rw [pieces]
  exact ⟨'"' :: first, rfl⟩

/-- The extended names behind the semicolons of a quoted name, its closing quote included. -/
def strayNames (name : String) : List String :=
  ((name.toList ++ ['"']).splitOn ';').tail.filterMap (name? extendedName?)

theorem extended_quoted (name : String) :
    (cuts (quoted name)).filterMap (name? extendedName?) = strayNames name := by
  obtain ⟨value, pieces⟩ := cuts_quoted name
  have first : name? extendedName? (' ' :: ("filename".toList ++ '=' :: value)) = none := by
    rw [name?, parameter?_named isKey_plain]
    rfl
  rw [pieces, List.filterMap_cons_none first, strayNames]

theorem strayNames_of_not_mem (h : ';' ∉ n.toList) : strayNames n = [] := by
  rw [strayNames, List.splitOn_eq_singleton (by simpa using h)]
  rfl

/-- A stray name is shorter than the name it stands in. -/
theorem length_lt_of_stray (h : s ∈ strayNames n) : s.toList.length < n.toList.length := by
  obtain ⟨piece, behind, read⟩ := List.mem_filterMap.mp h
  obtain ⟨key, value, parameter, named, -⟩ := name?_eq_some_iff.mp read
  have pieceShort := Text.length_lt_of_mem_tail behind
  have valueShort := (sublist_of_parameter? parameter).length_le
  have encodedShort := length_encodedPart_le value
  have nameShort := Percent.length_decodeLossy_le (String.ofList (encodedPart value))
  rw [extendedName?] at named
  split at named
  · rw [Option.some.inj named, String.toList_ofList] at nameShort
    simp only [List.length_cons, List.length_append, List.length_nil] at pieceShort valueShort
    omega
  · cases named

/-- A plain name stands in one piece, where no semicolon is. -/
theorem not_mem_of_plain {cs : List Char}
    (h : s ∈ (cs.splitOn ';').filterMap (name? plainName?)) : ';' ∉ s.toList := by
  obtain ⟨piece, member, read⟩ := List.mem_filterMap.mp h
  obtain ⟨key, value, parameter, named, -⟩ := name?_eq_some_iff.mp read
  rw [plainName?] at named
  split at named
  · intro inside
    rw [← Option.some.inj named, String.toList_ofList] at inside
    have there := (Text.trimMatches_sublist '"' value).subset inside
    exact Text.not_mem_of_mem_splitOn member
      ((sublist_of_parameter? parameter).subset (List.mem_cons_of_mem _ there))
  · cases named

theorem plain_quoted (nonempty : n ≠ "") (unquoted : '"' ∉ n.toList) (h : ';' ∉ n.toList) :
    (cuts (quoted n)).filterMap (name? plainName?) = [n] := by
  have last : (inQuotes n).getLast? = some '"' := by simp [inQuotes, List.getLast?_cons]
  refine filterMap_cuts (toList_quoted n) isKey_plain (by simpa [inQuotes] using h)
    (by rintro _ ⟨⟩; rfl) (by rw [last]; rintro _ ⟨⟩; rfl) ?_ nonempty
  rw [inQuotes, plainName?]
  simp only [show "filename".toList.map Text.lowerAscii = "filename".toList by decide,
    ↓reduceIte, Text.trimMatches_between unquoted, String.ofList_toList]

/-! ### Escaped names -/

theorem solid_charset : ∀ c ∈ charset.toList, Text.isBlank c = false ∧ c ≠ ';' := by
  have all : charset.toList.all (fun c => !Text.isBlank c && c != ';') = true := by decide
  simpa using all

theorem extended_escaped (nonempty : m ≠ "") :
    (cuts (escaped m)).filterMap (name? extendedName?) = [m] := by
  have solid : ∀ c ∈ extendedValue m, Text.isBlank c = false ∧ c ≠ ';' := by
    intro c member
    rcases List.mem_append.mp member with before | name
    · exact solid_charset c before
    · rw [Percent.encode, String.toList_ofList] at name
      rcases Percent.mem_encodeChars name with rfl | alnum
      · decide
      · exact ⟨Text.isBlank_of_isAlphanum alnum, by rintro rfl; cases alnum⟩
  refine filterMap_cuts (toList_escaped m) isKey_extended (fun h => (solid _ h).2 rfl)
    (fun c hc => (solid c (List.mem_of_mem_head? hc)).1)
    (fun c hc => (solid c (List.mem_of_mem_getLast? hc)).1) ?_ nonempty
  have encoded : encodedPart (extendedValue m) = (Percent.encode m).toList := rfl
  rw [extendedName?, encoded]
  simp only [show "filename*".toList.map Text.lowerAscii = "filename*".toList by decide,
    ↓reduceIte, String.ofList_toList, Percent.decodeLossy_encode]

/-! ### Which name is read -/

/-- A quoted name is read as it stands exactly if it has no semicolon. An escaped name takes its
place: in front of it always, and behind it unless the quoted name has a stray one. -/
theorem names_read_iff (named : n ≠ "") (unquoted : '"' ∉ n.toList) (other : m ≠ "") :
    (filename? (attachment [quoted n]) = some n ↔ ';' ∉ n.toList) ∧
      filename? (attachment [escaped m, quoted n]) = some m ∧
      filename? (attachment [quoted n, escaped m]) = some ((strayNames n).headD m) ∧
      (';' ∉ n.toList → strayNames n = []) := by
  have alone : filename? (attachment [quoted n]) =
      (strayNames n).head?.or ((cuts (quoted n)).filterMap (name? plainName?)).getLast? := by
    rw [filename?_attachment, List.flatMap_singleton, extended_quoted]
  refine ⟨⟨fun read => ?_, fun clear => ?_⟩, ?_, ?_, strayNames_of_not_mem⟩
  · rw [alone, Option.or_eq_some_iff] at read
    rcases read with stray | ⟨-, plain⟩
    · exact absurd (length_lt_of_stray (List.mem_of_mem_head? stray)) (Nat.lt_irrefl _)
    · exact not_mem_of_plain (List.mem_of_mem_getLast? plain)
  · rw [alone, strayNames_of_not_mem clear, plain_quoted named unquoted clear]
    rfl
  · rw [filename?_attachment, List.flatMap_cons, List.flatMap_singleton, List.filterMap_append,
      extended_escaped other]
    rfl
  · rw [filename?_attachment, List.flatMap_cons, List.flatMap_singleton, List.filterMap_append,
      extended_quoted, extended_escaped other]
    cases strayNames n <;> rfl

theorem names_read_report :
    let n := "a=b.csv"
    let m := "résumé.pdf"
    (n ≠ "" ∧ '"' ∉ n.toList ∧ m ≠ "" ∧ ';' ∉ n.toList) ∧
      filename? (attachment [quoted n]) = some n ∧
      filename? (attachment [escaped m, quoted n]) = some m ∧
      filename? (attachment [quoted n, escaped m]) = some m := by
  intro n m
  have named : n ≠ "" ∧ '"' ∉ n.toList ∧ m ≠ "" ∧ ';' ∉ n.toList := by decide
  obtain ⟨plain, before, behind, stray⟩ := names_read_iff named.1 named.2.1 named.2.2.1
  refine ⟨named, plain.mpr named.2.2.2, before, ?_⟩
  rw [behind, stray named.2.2.2]
  rfl

/-- What is wanted of names: quotes keep them together, and an escaped one goes first. -/
def NamesReadExactly : Prop :=
  ∀ n m : String, n ≠ "" → '"' ∉ n.toList → '\\' ∉ n.toList → m ≠ "" →
    filename? (attachment [quoted n]) = some n ∧
      filename? (attachment [escaped m, quoted n]) = some m ∧
      filename? (attachment [quoted n, escaped m]) = some m

/-- A name with a semicolon is read up to it. -/
theorem not_namesReadExactly : ¬ NamesReadExactly := by
  intro exactly
  have read := (exactly "a;b" "c" (by decide) (by decide) (by decide) (by decide)).1
  have cut : filename? (attachment [quoted "a;b"]) = some "a" := by decide
  exact absurd (cut.symm.trans read) (by decide)

end ScreenFlow.Disposition
