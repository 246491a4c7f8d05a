import ScreenFlow.Json.Printer
import ScreenFlow.Proofs.Json.Decoding
import ScreenFlow.Proofs.Text.Utf8

/-!
# Indented values are read

The reader passes over the blanks and the ends of the lines, so the indented text of a value is read as
the same tree as the compact one, as long as its brackets are few enough.

* `value_indented`: the indented text of a value is read up to its end;
* `decodeBytes_pretty`: what a decoder makes of it.
-/

namespace ScreenFlow.Json

/-! ### The indented text -/

namespace Reader

def gap (level : Nat) : Input := List.replicate (2 * level) (some ' ')

end Reader

/-- The indented text of a value, as it is given to the reader. -/
def indented (level : Nat) (v : Json) : Reader.Input := (prettyAt level v).toList.map some

namespace Reader

/-- The lines of further items, and what closes the list. -/
def itemLines (level : Nat) : List Json → Input
  | [] => some '\n' :: (gap level ++ [some ']'])
  | v :: rest => some ',' :: some '\n' :: (gap (level + 1) ++ (indented (level + 1) v ++
    itemLines level rest))

def fieldLines (level : Nat) : List (String × Json) → Input
  | [] => some '\n' :: (gap level ++ [some '}'])
  | (k, v) :: rest => some ',' :: some '\n' :: (gap (level + 1) ++ ((quote k).toList.map some ++
    some ':' :: some ' ' :: (indented (level + 1) v ++ fieldLines level rest)))

theorem indent_input (level : Nat) : (indent level).toList.map some = gap level := by
  simp [indent, gap]

theorem indented_scalar (level : Nat) {v : Json} (hv : isScalar v = true) :
    indented level v = input v := by
  cases v with
  | arr | obj => cases hv
  | _ => rfl

@[simp] theorem indented_arr_nil (level : Nat) : indented level (.arr []) = [some '[', some ']'] := by
  simp [indented, prettyAt, prettyItems, block]

@[simp] theorem indented_obj_nil (level : Nat) : indented level (.obj []) = [some '{', some '}'] := by
  simp [indented, prettyAt, prettyFields, block]

/-- The lines of a block, joined and closed. -/
theorem joinLines_items (level : Nat) (v : Json) (vs : List Json) :
    (Text.joinLines ",\n" ((prettyItems (level + 1) (v :: vs)).map (indent (level + 1) ++ ·)) ++ "\n" ++
      indent level ++ "]").toList.map some =
      gap (level + 1) ++ (indented (level + 1) v ++ itemLines level vs) := by
  induction vs generalizing v with
  | nil => simp [prettyItems, Text.joinLines, indent_input, indented, itemLines]
  | cons w vs ih =>
    have rest := ih w
    simp only [prettyItems, List.map_cons, Text.joinLines, String.toList_append, List.map_append,
      indent_input, itemLines, indented] at rest ⊢
    simp [← rest]

theorem joinLines_fields (level : Nat) (k : String) (v : Json) (fs : List (String × Json)) :
    (Text.joinLines ",\n" ((prettyFields (level + 1) ((k, v) :: fs)).map (indent (level + 1) ++ ·)) ++
      "\n" ++ indent level ++ "\x7d").toList.map some =
      gap (level + 1) ++ ((quote k).toList.map some ++
        some ':' :: some ' ' :: (indented (level + 1) v ++ fieldLines level fs)) := by
  induction fs generalizing k v with
  | nil => simp [prettyFields, Text.joinLines, indent_input, indented, fieldLines]
  | cons f fs ih =>
    have rest := ih f.1 f.2
    simp only [prettyFields, List.map_cons, Text.joinLines, String.toList_append, List.map_append,
      indent_input, fieldLines, indented] at rest ⊢
    simp [← rest]

theorem indented_arr_cons (level : Nat) (v : Json) (vs : List Json) :
    indented level (.arr (v :: vs)) = some '[' :: some '\n' ::
      (gap (level + 1) ++ (indented (level + 1) v ++ itemLines level vs)) := by
  rw [← joinLines_items]
  simp [indented, prettyAt, block, prettyItems]

theorem indented_obj_cons (level : Nat) (k : String) (v : Json) (fs : List (String × Json)) :
    indented level (.obj ((k, v) :: fs)) = some '{' :: some '\n' ::
      (gap (level + 1) ++ ((quote k).toList.map some ++
        some ':' :: some ' ' :: (indented (level + 1) v ++ fieldLines level fs))) := by
  rw [← joinLines_fields]
  simp [indented, prettyAt, block, prettyFields]

/-! ### Blanks -/

theorem isSpace_of_gap {level : Nat} : ∀ c ∈ gap level, isSpace c = true := by
  intro c hc
  rw [List.eq_of_mem_replicate hc]
  rfl

/-- The end of a line and the blanks after it. -/
theorem isSpace_of_line (level : Nat) : ∀ c ∈ some '\n' :: gap level, isSpace c = true :=
  List.forall_mem_cons.mpr ⟨rfl, isSpace_of_gap⟩

variable {blanks : Input}

theorem skip_blanks (h : ∀ c ∈ blanks, isSpace c = true) (cs : Input) :
    skip (blanks ++ cs) = skip cs :=
  List.dropWhile_append_of_pos h

theorem value_blanks (h : ∀ c ∈ blanks, isSpace c = true) (fuel depth : Nat) (cs : Input) :
    value (fuel + 1) depth (blanks ++ cs) = value (fuel + 1) depth cs := by
  unfold value
  simp only [skip_blanks h]

theorem fieldName_blanks (h : ∀ c ∈ blanks, isSpace c = true) (cs : Input) :
    fieldName (blanks ++ cs) = fieldName cs := by
  rw [fieldName, fieldName, skip_blanks h]

/-- How the indented text of a value begins. -/
theorem indented_head (level : Nat) (v : Json) : ∃ c cs, indented level v = some c :: cs ∧
    isSpace (some c) = false ∧ c ≠ ']' ∧ c ≠ '}' := by
  cases hv : isScalar v with
  | true =>
    obtain ⟨c, cs, h, space, square, curly, -⟩ := input_head v
    exact ⟨c, cs, (indented_scalar level hv).trans h, space, square, curly⟩
  | false =>
    rcases v with _ | _ | _ | _ | (_ | ⟨w, vs⟩) | (_ | ⟨⟨k, w⟩, fields⟩)
    · cases hv
    · cases hv
    · cases hv
    · cases hv
    · exact ⟨'[', _, indented_arr_nil level, by decide⟩
    · exact ⟨'[', _, indented_arr_cons level w vs, by decide⟩
    · exact ⟨'{', _, indented_obj_nil level, by decide⟩
    · exact ⟨'{', _, indented_obj_cons level k w fields, by decide⟩

theorem skip_indented (level : Nat) (v : Json) (rest : Input) :
    skip (indented level v ++ rest) = indented level v ++ rest := by
  obtain ⟨c, cs, h, space, -⟩ := indented_head level v
  simp [h, skip, space]

theorem indented_length_pos (level : Nat) (v : Json) : 0 < (indented level v).length := by
  obtain ⟨c, cs, h, -⟩ := indented_head level v
  simp [h]

theorem closes_itemLines (level : Nat) (vs : List Json) (rest : Input) :
    Closes (itemLines level vs ++ rest) := by
  cases vs <;> simp [itemLines]

theorem closes_fieldLines (level : Nat) (fs : List (String × Json)) (rest : Input) :
    Closes (fieldLines level fs ++ rest) := by
  rcases fs with _ | ⟨⟨k, v⟩, fs⟩ <;> simp [fieldLines]

/-! ### Reading -/

/-- With enough fuel the indented text of the value is read up to its end. -/
def ReadsIndented (level : Nat) (v : Json) : Prop :=
  ∀ depth fuel rest, v.nesting ≤ depth → 2 * (indented level v).length ≤ fuel → Closes rest →
    value fuel depth (indented level v ++ rest) = .ok (v.reread depth, rest)

theorem readsIndented_scalar {v : Json} (hv : isScalar v = true) (level : Nat) :
    ReadsIndented level v := by
  intro depth fuel rest _ hfuel hrest
  rw [indented_scalar level hv] at hfuel ⊢
  exact readsBack_scalar hv depth fuel rest hfuel hrest

theorem skip_line {level : Nat} (cs : Input) :
    skip (some '\n' :: (gap level ++ cs)) = skip cs :=
  skip_blanks (isSpace_of_line level) cs

theorem items_indented {level : Nat} {v : Json} {vs : List Json} (hv : ReadsIndented (level + 1) v)
    (hvs : ∀ w ∈ vs, ReadsIndented (level + 1) w) (depth fuel : Nat) (rest : Input)
    (acc : List Source) (deep : nestingItems (v :: vs) ≤ depth)
    (blank : ∀ c ∈ blanks, isSpace c = true)
    (hfuel : 2 * (indented (level + 1) v ++ itemLines level vs).length ≤ fuel) :
    items fuel depth (blanks ++ (indented (level + 1) v ++ (itemLines level vs ++ rest))) acc =
      .ok (acc.reverse ++ rereadItems (v :: vs) depth, rest) := by
  induction vs generalizing v fuel acc blanks with
  | nil =>
    have here := (Nat.max_le.mp deep).1
    simp only [itemLines, List.length_append, List.length_cons] at hfuel
    obtain ⟨fuel, rfl⟩ : ∃ n, fuel = n + 2 := ⟨fuel - 2, by omega⟩
    rw [items, value_blanks blank, hv depth _ _ here (by omega) (closes_itemLines level [] rest)]
    simp only [itemLines, List.cons_append, List.append_assoc, skip_line, List.nil_append,
      skip_cons (c := some ']') rfl]
    simp [rereadItems]
  | cons w vs ih =>
    obtain ⟨here, later⟩ := Nat.max_le.mp deep
    simp only [itemLines, List.length_append, List.length_cons] at hfuel
    obtain ⟨fuel, rfl⟩ : ∃ n, fuel = n + 2 := ⟨fuel - 2, by omega⟩
    rw [items, value_blanks blank, hv depth _ _ here (by omega) (closes_itemLines level _ rest)]
    have next := ih (hvs w (by simp)) (fun u hu => hvs u (by simp [hu])) (fuel + 1)
      (v.reread depth :: acc) later (isSpace_of_line (level + 1))
      (by rw [List.length_append]; omega)
    simp only [itemLines, List.cons_append, List.append_assoc, skip_cons (c := some ',') rfl] at next ⊢
    rw [next]
    simp [rereadItems]

theorem fields_indented {level : Nat} {k : String} {v : Json} {fs : List (String × Json)}
    (hv : ReadsIndented (level + 1) v) (hfs : ∀ f ∈ fs, ReadsIndented (level + 1) f.2)
    (depth fuel : Nat) (rest : Input) (acc : List (Option String × Source))
    (deep : nestingFields ((k, v) :: fs) ≤ depth) (blank : ∀ c ∈ blanks, isSpace c = true)
    (hfuel : 2 * (indented (level + 1) v ++ fieldLines level fs).length ≤ fuel) :
    fields fuel depth (blanks ++ ((quote k).toList.map some ++
        some ':' :: some ' ' :: (indented (level + 1) v ++ (fieldLines level fs ++ rest)))) acc =
      .ok (acc.reverse ++ (rereadFields ((k, v) :: fs) depth).map fun f => (some f.1, f.2), rest) := by
  have blank' : ∀ c ∈ [some ' '], isSpace c = true := List.forall_mem_singleton.mpr rfl
  induction fs generalizing k v fuel acc blanks with
  | nil =>
    have here := (Nat.max_le.mp deep).1
    simp only [fieldLines, List.length_append, List.length_cons] at hfuel
    obtain ⟨fuel, rfl⟩ : ∃ n, fuel = n + 2 := ⟨fuel - 2, by omega⟩
    have read := hv depth (fuel + 1) (fieldLines level [] ++ rest) here (by omega)
      (closes_fieldLines level [] rest)
    rw [← value_blanks blank'] at read
    rw [fields, fieldName_blanks blank, fieldName_quote]
    dsimp only
    rw [show some ' ' :: (indented (level + 1) v ++ (fieldLines level [] ++ rest)) =
      [some ' '] ++ (indented (level + 1) v ++ (fieldLines level [] ++ rest)) from rfl, read]
    simp only [fieldLines, List.cons_append, List.append_assoc, skip_line, List.nil_append,
      skip_cons (c := some '}') rfl]
    simp [rereadFields]
  | cons f fs ih =>
    obtain ⟨l, w⟩ := f
    obtain ⟨here, later⟩ := Nat.max_le.mp deep
    simp only [fieldLines, List.length_append, List.length_cons] at hfuel
    obtain ⟨fuel, rfl⟩ : ∃ n, fuel = n + 2 := ⟨fuel - 2, by omega⟩
    have read := hv depth (fuel + 1) (fieldLines level ((l, w) :: fs) ++ rest) here (by omega)
      (closes_fieldLines level _ rest)
    rw [← value_blanks blank'] at read
    rw [fields, fieldName_blanks blank, fieldName_quote]
    dsimp only
    rw [show some ' ' :: (indented (level + 1) v ++ (fieldLines level ((l, w) :: fs) ++ rest)) =
      [some ' '] ++ (indented (level + 1) v ++ (fieldLines level ((l, w) :: fs) ++ rest)) from rfl, read]
    have hw : ReadsIndented (level + 1) w := hfs (l, w) (by simp)
    have next := ih hw (fun u hu => hfs u (by simp [hu])) (fuel + 1)
      ((some k, v.reread depth) :: acc) later (isSpace_of_line (level + 1))
      (by rw [List.length_append]; omega)
    simp only [fieldLines, List.cons_append, List.append_assoc, skip_cons (c := some ',') rfl] at next ⊢
    rw [next]
    simp [rereadFields]

theorem readsIndented_arr {level : Nat} {v : Json} {vs : List Json}
    (hvs : ∀ w ∈ v :: vs, ReadsIndented (level + 1) w) : ReadsIndented level (.arr (v :: vs)) := by
  intro depth fuel rest deep hfuel hrest
  cases depth with
  | zero => simp [nesting] at deep
  | succ depth =>
    obtain ⟨hv, hvs⟩ := List.forall_mem_cons.mp hvs
    rw [indented_arr_cons, List.length_cons, List.length_cons, List.length_append] at hfuel
    obtain ⟨fuel, rfl⟩ : ∃ n, fuel = n + 1 := ⟨fuel - 1, by omega⟩
    obtain ⟨c, cs, hc, -, hclose, -⟩ := indented_head (level + 1) v
    have skipped (cs : Input) : skip (some '[' :: cs) = some '[' :: cs := skip_cons rfl cs
    unfold value
    simp only [indented_arr_cons, List.cons_append, List.append_assoc, skipped, skip_line,
      skip_indented]
    split
    · rename_i h
      simp [hc, hclose] at h
    · have read := items_indented hv hvs depth fuel rest [] (Nat.le_of_succ_le_succ deep)
        (List.forall_mem_nil _) (by omega)
      rw [List.nil_append] at read
      simp [read, Except.map, reread]

theorem readsIndented_obj {level : Nat} {k : String} {v : Json} {fs : List (String × Json)}
    (hv : ReadsIndented (level + 1) v) (hfs : ∀ f ∈ fs, ReadsIndented (level + 1) f.2) :
    ReadsIndented level (.obj ((k, v) :: fs)) := by
  intro depth fuel rest deep hfuel hrest
  cases depth with
  | zero => simp [nesting] at deep
  | succ depth =>
    rw [indented_obj_cons] at hfuel
    simp only [List.length_cons, List.length_append] at hfuel
    obtain ⟨fuel, rfl⟩ : ∃ n, fuel = n + 1 := ⟨fuel - 1, by omega⟩
    have skipped (cs : Input) : skip (some '{' :: cs) = some '{' :: cs := skip_cons rfl cs
    unfold value
    simp only [indented_obj_cons, List.cons_append, List.append_assoc, skipped, skip_line, skip_quote]
    split
    · rename_i h
      simp [quote] at h
    · have read := fields_indented hv hfs depth fuel rest [] (Nat.le_of_succ_le_succ deep)
        (List.forall_mem_nil _)
        (by rw [List.length_append]; omega)
      rw [List.nil_append] at read
      rw [read]
      rw [List.reverse_nil, List.nil_append, Except.map, object_some, reread]

theorem readsIndented_empty {v : Json} (hv : v = .arr [] ∨ v = .obj []) (level : Nat) :
    ReadsIndented level v := by
  have same : indented level v = input v := by rcases hv with rfl | rfl <;> simp
  intro depth fuel rest _ hfuel hrest
  rw [same] at hfuel ⊢
  exact readsBack_empty hv depth fuel rest hfuel hrest

mutual

theorem value_indented : ∀ (v : Json) (level : Nat), ReadsIndented level v
  | .arr [], level => readsIndented_empty (.inl rfl) level
  | .obj [], level => readsIndented_empty (.inr rfl) level
  | .arr (v :: vs), level => readsIndented_arr (values_indented (v :: vs) (level + 1))
  | .obj ((_, v) :: fields), level =>
    readsIndented_obj (value_indented v (level + 1)) (fieldValues_indented fields (level + 1))
  | .null, level | .bool _, level | .num _, level | .str _, level => readsIndented_scalar rfl level

theorem values_indented : ∀ (vs : List Json) (level : Nat), ∀ w ∈ vs, ReadsIndented level w
  | [], _ => List.forall_mem_nil _
  | v :: vs, level => List.forall_mem_cons.mpr ⟨value_indented v level, values_indented vs level⟩

theorem fieldValues_indented : ∀ (fs : List (String × Json)) (level : Nat),
    ∀ f ∈ fs, ReadsIndented level f.2
  | [], _ => List.forall_mem_nil _
  | (_, v) :: fs, level =>
    List.forall_mem_cons.mpr ⟨value_indented v level, fieldValues_indented fs level⟩

end

end Reader

/-- What a decoder makes of the bytes of an indented text. -/
theorem decodeBytes_pretty {α : Type} (d : Source → Option α) {v : Json}
    (deep : v.nesting ≤ Reader.maxDepth) {a : α} :
    decodeBytes d (Utf8.encode v.pretty) = .ok a ↔ d (v.reread Reader.maxDepth) = some a := by
  have read := Reader.value_indented v 0 Reader.maxDepth (2 * (indented 0 v).length + 2) [] deep
    (by omega) Reader.closes_nil
  rw [List.append_nil] at read
  have document : Reader.document (Utf8.decodePieces (Utf8.encode v.pretty)) =
      .ok (v.reread Reader.maxDepth) := by
    rw [Utf8.encode, Utf8.decodePieces_encodeChars]
    change Reader.document (indented 0 v) = _
    simp [Reader.document, read, Reader.skip]
  rw [decodeBytes, Reader.decode_eq_ok_iff, document]
  simp

end ScreenFlow.Json
