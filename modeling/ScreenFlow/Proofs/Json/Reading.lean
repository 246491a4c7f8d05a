import ScreenFlow.Json.Printer
import ScreenFlow.Proofs.Json.Numerals

/-!
# Printed values are read

The text of a value is read, whatever the value is. It is read as the same tree, except that a double
is what its digits say, and that what lies too many brackets deep cannot be read.

* `document_input`: the text of a value is read as `Json.reread` of it;
* `decodeText_render`: what a decoder makes of it.
-/

namespace ScreenFlow.Json

namespace Reader

/-! ### Strings -/

theorem hex_control : ∀ n < 32, hex4? '0' '0' (hexDigit (n / 16)) (hexDigit (n % 16)) = some n := by
  decide

theorem escape?_eq_none {c : Char} (h : escape? c = none) :
    c ≠ '"' ∧ c ≠ '\\' ∧ ¬ c.toNat < 0x20 := by
  refine ⟨?_, ?_, fun hc => ?_⟩
  · rintro rfl
    cases h
  · rintro rfl
    cases h
  · revert h
    unfold escape?
    split <;> simp [hc]

theorem string_plain {c : Char} (h : escape? c = none) (sound : Bool) (acc : List Char)
    (rest : Input) : string sound acc (some c :: rest) = string sound (c :: acc) rest := by
  obtain ⟨hquote, hslash, hcontrol⟩ := escape?_eq_none h
  rw [string]
  · simp [hcontrol, hslash]
  · simp [hquote]
  · simp [hslash]
  · simp [hslash]

/-- An escape is read as the character that it stands for. -/
theorem string_escape {c : Char} {text : List Char} (h : escape? c = some text) (sound : Bool)
    (acc : List Char) (rest : Input) :
    string sound acc (text.map some ++ rest) = string sound (c :: acc) rest := by
  unfold escape? at h
  split at h
  case h_8 =>
    split at h
    · rename_i hc
      cases h
      simp only [List.map_cons, List.map_nil, List.cons_append, List.nil_append]
      rw [string, hex_control _ hc]
      have : ¬ (0xDC00 ≤ c.toNat ∧ c.toNat ≤ 0xDFFF) ∧ ¬ (0xD800 ≤ c.toNat ∧ c.toNat ≤ 0xDBFF) := by
        omega
      simp [this, Char.ofNat_toNat]
    · cases h
  all_goals
    cases h
    simp [string, unescape?]

theorem string_quoteChars (acc cs : List Char) (rest : Input) :
    string true acc ((quoteChars cs).map some ++ rest) =
      .ok (String.ofList (acc.reverse ++ cs), rest) := by
  induction cs generalizing acc with
  | nil => simp [quoteChars, string]
  | cons c cs ih =>
    simp only [quoteChars]
    split
    · rename_i h
      rw [List.map_append, List.append_assoc, string_escape h, ih]
      simp
    · rename_i h
      rw [List.map_cons, List.cons_append, string_plain h, ih]
      simp

theorem stringOrPass_quote (s : String) (rest : Input) :
    stringOrPass ((quoteChars s.toList).map some ++ rest) = .ok ((some s, true), rest) := by
  simp [stringOrPass, string_quoteChars]

theorem fieldName_quote (k : String) (rest : Input) :
    fieldName ((quote k).toList.map some ++ some ':' :: rest) = .ok (some k, rest) := by
  simp [fieldName, quote, skip, isSpace, stringOrPass_quote]

end Reader

/-! ### What a value is read as -/

mutual

/-- What the text of a value is read as, where so many brackets may still open. -/
def reread : Json → Nat → Source
  | .null, _ => .null
  | .bool b, _ => .bool b
  | .num n, _ => n.reread
  | .str s, _ => .str s
  | .arr _, 0 | .obj _, 0 => .unreadable false
  | .arr items, depth + 1 => .arr .json (rereadItems items depth)
  | .obj fields, depth + 1 => .obj .json (rereadFields fields depth)

def rereadItems : List Json → Nat → List Source
  | [], _ => []
  | v :: rest, depth => reread v depth :: rereadItems rest depth

def rereadFields : List (String × Json) → Nat → List (String × Source)
  | [], _ => []
  | (k, v) :: rest, depth => (k, reread v depth) :: rereadFields rest depth

end

/-- The text of a value, as it is given to the reader. -/
def input (v : Json) : Reader.Input := v.render.toList.map some

namespace Reader

/-- The items of a list, and what closes it. -/
def itemsInput (items : List Json) : Input := (renderItems items).toList.map some

def fieldsInput (fields : List (String × Json)) : Input := (renderFields fields).toList.map some

@[simp] theorem itemsInput_nil : itemsInput [] = [some ']'] := rfl

@[simp] theorem itemsInput_cons (v : Json) (rest : List Json) :
    itemsInput (v :: rest) = some ',' :: (input v ++ itemsInput rest) := by
  simp [itemsInput, input, renderItems]

@[simp] theorem fieldsInput_nil : fieldsInput [] = [some '}'] := rfl

@[simp] theorem fieldsInput_cons (k : String) (v : Json) (rest : List (String × Json)) :
    fieldsInput ((k, v) :: rest) =
      some ',' :: ((quote k).toList.map some ++ some ':' :: (input v ++ fieldsInput rest)) := by
  simp [fieldsInput, input, renderFields]

@[simp] theorem input_arr_nil : input (.arr []) = [some '[', some ']'] := rfl

@[simp] theorem input_arr_cons (v : Json) (rest : List Json) :
    input (.arr (v :: rest)) = some '[' :: (input v ++ itemsInput rest) := by
  simp [itemsInput, input, render]

@[simp] theorem input_obj_nil : input (.obj []) = [some '{', some '}'] := rfl

@[simp] theorem input_obj_cons (k : String) (v : Json) (rest : List (String × Json)) :
    input (.obj ((k, v) :: rest)) =
      some '{' :: ((quote k).toList.map some ++ some ':' :: (input v ++ fieldsInput rest)) := by
  simp [fieldsInput, input, render]

theorem closes_itemsInput (items : List Json) (rest : Input) : Closes (itemsInput items ++ rest) := by
  cases items <;> simp

theorem closes_fieldsInput (fields : List (String × Json)) (rest : Input) :
    Closes (fieldsInput fields ++ rest) := by
  rcases fields with _ | ⟨⟨k, v⟩, fields⟩ <;> simp

/-- Whether a value stands without brackets. -/
def isScalar : Json → Bool
  | .arr _ | .obj _ => false
  | _ => true

theorem scalar_input {v : Json} (hv : isScalar v = true) (depth : Nat) {rest : Input}
    (hrest : Closes rest) : scalar (input v ++ rest) = .ok (v.reread depth, rest) := by
  cases v with
  | null => rfl
  | bool b => cases b <;> rfl
  | num n => exact n.scalar_number hrest
  | str s =>
    have : input (.str s) = some '"' :: (quoteChars s.toList).map some := by
      simp [input, render, quote]
    simp [this, scalar, stringOrPass_quote, Except.map, reread]
  | arr | obj => cases hv

/-- How the text of a value begins. -/
theorem input_head (v : Json) : ∃ c cs, input v = some c :: cs ∧ isSpace (some c) = false ∧
    c ≠ ']' ∧ c ≠ '}' ∧ (isScalar v = true → c ≠ '[' ∧ c ≠ '{') := by
  cases v with
  | null => exact ⟨'n', _, rfl, by decide⟩
  | bool b =>
    cases b
    · exact ⟨'f', _, rfl, by decide⟩
    · exact ⟨'t', _, rfl, by decide⟩
  | num n =>
    obtain ⟨c, cs, htext, hc⟩ := n.wellFormed_numeral.head
    refine ⟨c, cs.map some, by rw [input, render, n.render_eq, htext, List.map_cons], ?_⟩
    rcases hc with rfl | hc
    · simp [isSpace]
    · have other : ∀ d : Char, d.isDigit = false → c ≠ d := by
        rintro d hd rfl
        simp [hc] at hd
      refine ⟨?_, other _ (by decide), other _ (by decide), fun _ =>
        ⟨other _ (by decide), other _ (by decide)⟩⟩
      simp [isSpace, other ' ' (by decide), other '\n' (by decide), other '\t' (by decide),
        other '\r' (by decide)]
  | str s => exact ⟨'"', _, by simp [input, render, quote]; rfl, by simp [isSpace]⟩
  | arr items => cases items <;> exact ⟨'[', _, by simp; rfl, by decide, by decide, by decide, nofun⟩
  | obj fields =>
    rcases fields with _ | ⟨⟨k, v⟩, fields⟩ <;>
      exact ⟨'{', _, by simp; rfl, by decide, by decide, by decide, nofun⟩

theorem skip_cons {c : Option Char} (h : isSpace c = false) (cs : Input) :
    skip (c :: cs) = c :: cs := by
  simp [skip, h]

theorem skip_quote (k : String) (rest : Input) :
    skip ((quote k).toList.map some ++ rest) = (quote k).toList.map some ++ rest := by
  simp [quote, skip, isSpace]

theorem skip_input (v : Json) (rest : Input) : skip (input v ++ rest) = input v ++ rest := by
  obtain ⟨c, cs, h, hspace, -⟩ := input_head v
  simp [h, skip, hspace]

/-! ### Passing over what lies too deep -/

theorem input_length_pos (v : Json) : 0 < (input v).length := by
  obtain ⟨c, cs, h, -⟩ := input_head v
  simp [h]

theorem pass_scalar {v : Json} (hv : isScalar v = true) : ∃ n ≤ (input v).length,
    ∀ fuel opened rest, Closes rest →
      pass (n + fuel) false opened (input v ++ rest) = pass fuel true opened rest := by
  refine ⟨1, input_length_pos v, fun fuel opened rest hrest => ?_⟩
  obtain ⟨c, cs, hc, -, -, -, hopen⟩ := input_head v
  rw [Nat.add_comm, pass, skip_input]
  split
  · rename_i h
    simp [hc, hopen hv] at h
  · rename_i h
    simp [hc, hopen hv] at h
  · rw [scalar_input hv 0 hrest]

mutual

theorem pass_input : ∀ v : Json, ∃ n ≤ (input v).length, ∀ fuel opened rest, Closes rest →
    pass (n + fuel) false opened (input v ++ rest) = pass fuel true opened rest
  | .arr [] => ⟨1, by simp, fun fuel opened rest _ => by
      rw [Nat.add_comm]
      rfl⟩
  | .arr (v :: items) => by
    obtain ⟨n, hn, hv⟩ := pass_input v
    obtain ⟨m, hm, hitems⟩ := pass_itemsInput items
    refine ⟨1 + n + m, by simp; omega, fun fuel opened rest _ => ?_⟩
    rw [show 1 + n + m + fuel = n + (m + fuel) + 1 by omega, input_arr_cons, List.cons_append,
      List.append_assoc, pass, skip_cons (by decide)]
    simp only [skip_input]
    obtain ⟨c, cs, hc, -, hclose, -⟩ := input_head v
    split
    · rename_i h
      simp [hc, hclose] at h
    · rw [hv _ _ _ (closes_itemsInput items rest), hitems]
  | .obj [] => ⟨1, by simp, fun fuel opened rest _ => by
      rw [Nat.add_comm]
      rfl⟩
  | .obj ((k, v) :: fields) => by
    obtain ⟨n, hn, hv⟩ := pass_input v
    obtain ⟨m, hm, hfields⟩ := pass_fieldsInput fields
    refine ⟨1 + n + m, by simp; omega, fun fuel opened rest _ => ?_⟩
    rw [show 1 + n + m + fuel = n + (m + fuel) + 1 by omega, input_obj_cons, List.cons_append,
      List.append_assoc, pass, skip_cons (by decide)]
    simp only [skip_quote]
    split
    · rename_i h
      simp [quote] at h
    · rw [List.cons_append, fieldName_quote]
      dsimp only
      rw [List.append_assoc, hv _ _ _ (closes_fieldsInput fields rest), hfields]
  | .null | .bool _ | .num _ | .str _ => by
    exact pass_scalar rfl

theorem pass_itemsInput : ∀ items : List Json, ∃ n ≤ (itemsInput items).length,
    ∀ fuel opened rest, pass (n + fuel) true (.square :: opened) (itemsInput items ++ rest) =
      pass fuel true opened rest
  | [] => ⟨1, by simp, fun fuel opened rest => by
      rw [Nat.add_comm]
      rfl⟩
  | v :: items => by
    obtain ⟨n, hn, hv⟩ := pass_input v
    obtain ⟨m, hm, hitems⟩ := pass_itemsInput items
    refine ⟨1 + n + m, by simp; omega, fun fuel opened rest => ?_⟩
    have comma : pass (1 + n + m + fuel) true (.square :: opened)
        (itemsInput (v :: items) ++ rest) =
          pass (n + (m + fuel)) false (.square :: opened) (input v ++ (itemsInput items ++ rest)) := by
      rw [show 1 + n + m + fuel = n + (m + fuel) + 1 by omega, itemsInput_cons]
      simp [pass, skip, isSpace]
    rw [comma, hv _ _ _ (closes_itemsInput items rest), hitems]

theorem pass_fieldsInput : ∀ fields : List (String × Json), ∃ n ≤ (fieldsInput fields).length,
    ∀ fuel opened rest, pass (n + fuel) true (.curly :: opened) (fieldsInput fields ++ rest) =
      pass fuel true opened rest
  | [] => ⟨1, by simp, fun fuel opened rest => by
      rw [Nat.add_comm]
      rfl⟩
  | (k, v) :: fields => by
    obtain ⟨n, hn, hv⟩ := pass_input v
    obtain ⟨m, hm, hfields⟩ := pass_fieldsInput fields
    refine ⟨1 + n + m, by simp; omega, fun fuel opened rest => ?_⟩
    have comma : pass (1 + n + m + fuel) true (.curly :: opened)
        (fieldsInput ((k, v) :: fields) ++ rest) =
          pass (n + (m + fuel)) false (.curly :: opened)
            (input v ++ (fieldsInput fields ++ rest)) := by
      rw [show 1 + n + m + fuel = n + (m + fuel) + 1 by omega, fieldsInput_cons]
      simp [pass, skip, isSpace, fieldName_quote]
    rw [comma, hv _ _ _ (closes_fieldsInput fields rest), hfields]

end

/-! ### Reading values -/

theorem object_some (fs : List (String × Source)) :
    object (fs.map fun f => (some f.1, f.2)) = .obj .json fs := by
  have : (fs.map fun f => (some f.1, f.2)).mapM
      (fun f : Option String × Source => f.1.map (·, f.2)) = some fs := by
    rw [List.mapM_map]
    induction fs with
    | nil => rfl
    | cons f fs ih => simp [List.mapM_cons, ih]
  rw [object, this]

/-- With enough fuel the text of the value is read up to its end. -/
def ReadsBack (v : Json) : Prop :=
  ∀ depth fuel rest, 2 * (input v).length ≤ fuel → Closes rest →
    value fuel depth (input v ++ rest) = .ok (v.reread depth, rest)

theorem readsBack_scalar {v : Json} (hv : isScalar v = true) : ReadsBack v := by
  intro depth fuel rest hfuel hrest
  have := input_length_pos v
  obtain ⟨fuel, rfl⟩ : ∃ n, fuel = n + 1 := ⟨fuel - 1, by omega⟩
  obtain ⟨c, cs, hc, -, -, -, hopen⟩ := input_head v
  have skipped : skip (input v ++ rest) = some c :: (cs ++ rest) := by
    rw [skip_input, hc, List.cons_append]
  rw [value, skipped, ← List.cons_append, ← hc, scalar_input hv depth hrest]
  all_goals simp [skipped, hopen hv]

/-- What is no scalar begins with a bracket. -/
theorem input_bracket {v : Json} (hv : isScalar v = false) :
    ∃ b c cs, input v = some b :: c :: cs ∧ (b = '[' ∨ b = '{') := by
  rcases v with _ | _ | _ | _ | (_ | ⟨w, vs⟩) | (_ | ⟨⟨k, w⟩, fields⟩)
  · cases hv
  · cases hv
  · cases hv
  · cases hv
  · exact ⟨'[', some ']', [], rfl, .inl rfl⟩
  · obtain ⟨c, cs, hc, -⟩ := input_head w
    exact ⟨'[', some c, _, by rw [input_arr_cons, hc]; rfl, .inl rfl⟩
  · exact ⟨'{', some '}', [], rfl, .inr rfl⟩
  · refine ⟨'{', some '"', ((quoteChars k.toList).map some ++ some ':' ::
      (input w ++ fieldsInput fields)), ?_, .inr rfl⟩
    simp [quote]

/-- Where no bracket may open, the value is passed over. -/
theorem value_too_deep {v : Json} (hv : isScalar v = false) {fuel : Nat} {rest : Input}
    (hfuel : 2 * (input v).length ≤ fuel) (hrest : Closes rest) :
    value fuel 0 (input v ++ rest) = .ok (.unreadable false, rest) := by
  obtain ⟨n, hn, hpass⟩ := pass_input v
  obtain ⟨b, c, cs, hc, hb⟩ := input_bracket hv
  have long : 2 ≤ (input v).length := by simp [hc]
  obtain ⟨fuel, rfl⟩ : ∃ m, fuel = n + (m + 1) + 1 := ⟨fuel - n - 2, by omega⟩
  have passed := hpass (fuel + 1) [] rest hrest
  rw [pass, hc] at passed
  unfold value
  simp only [hc, List.cons_append] at passed ⊢
  rcases hb with rfl | rfl
  · simp only [skip_cons (c := some '[') rfl, passed]
    rfl
  · simp only [skip_cons (c := some '{') rfl, passed]
    rfl

theorem items_input {v : Json} {vs : List Json} (hv : ReadsBack v) (hvs : ∀ w ∈ vs, ReadsBack w)
    (depth fuel : Nat) (rest : Input) (acc : List Source)
    (hfuel : 2 * (input v ++ itemsInput vs).length ≤ fuel) :
    items fuel depth (input v ++ (itemsInput vs ++ rest)) acc =
      .ok (acc.reverse ++ rereadItems (v :: vs) depth, rest) := by
  have := input_length_pos v
  obtain ⟨fuel, rfl⟩ : ∃ n, fuel = n + 1 := ⟨fuel - 1, by simp at hfuel; omega⟩
  rw [List.length_append] at hfuel
  induction vs generalizing v fuel acc with
  | nil =>
    rw [itemsInput_nil, List.length_singleton] at hfuel
    rw [items, hv depth fuel _ (by omega) (closes_itemsInput [] rest)]
    simp [skip_cons, isSpace, rereadItems]
  | cons w vs ih =>
    have := input_length_pos w
    simp only [itemsInput_cons, List.length_cons, List.length_append] at hfuel
    obtain ⟨fuel, rfl⟩ : ∃ n, fuel = n + 1 := ⟨fuel - 1, by omega⟩
    rw [items, hv depth _ _ (by omega) (closes_itemsInput _ rest)]
    simp only [itemsInput_cons, List.cons_append, List.append_assoc, skip_cons (c := some ',') rfl]
    rw [ih (hvs w (by simp)) (fun u hu => hvs u (by simp [hu])) _ this _ (by omega)]
    simp [rereadItems]

theorem fields_input {k : String} {v : Json} {fs : List (String × Json)} (hv : ReadsBack v)
    (hfs : ∀ f ∈ fs, ReadsBack f.2) (depth fuel : Nat) (rest : Input)
    (acc : List (Option String × Source)) (hfuel : 2 * (input v ++ fieldsInput fs).length ≤ fuel) :
    fields fuel depth
        ((quote k).toList.map some ++ some ':' :: (input v ++ (fieldsInput fs ++ rest))) acc =
      .ok (acc.reverse ++ (rereadFields ((k, v) :: fs) depth).map fun f => (some f.1, f.2), rest) := by
  have := input_length_pos v
  obtain ⟨fuel, rfl⟩ : ∃ n, fuel = n + 1 := ⟨fuel - 1, by simp at hfuel; omega⟩
  rw [List.length_append] at hfuel
  induction fs generalizing k v fuel acc with
  | nil =>
    rw [fieldsInput_nil, List.length_singleton] at hfuel
    rw [fields, fieldName_quote]
    dsimp only
    rw [hv depth fuel _ (by omega) (closes_fieldsInput [] rest)]
    simp [skip_cons, isSpace, rereadFields]
  | cons f fs ih =>
    obtain ⟨l, w⟩ := f
    have := input_length_pos w
    simp only [fieldsInput_cons, List.length_cons, List.length_append] at hfuel
    obtain ⟨fuel, rfl⟩ : ∃ n, fuel = n + 1 := ⟨fuel - 1, by omega⟩
    rw [fields, fieldName_quote]
    dsimp only
    rw [hv depth _ _ (by omega) (closes_fieldsInput _ rest)]
    simp only [fieldsInput_cons, List.cons_append, List.append_assoc, skip_cons (c := some ',') rfl]
    have hw : ReadsBack w := hfs (l, w) (by simp)
    rw [ih hw (fun u hu => hfs u (by simp [hu])) _ this _ (by omega)]
    simp [rereadFields]

theorem readsBack_empty {v : Json} (hv : v = .arr [] ∨ v = .obj []) : ReadsBack v := by
  intro depth fuel rest hfuel hrest
  cases depth with
  | zero => rcases hv with rfl | rfl <;> exact value_too_deep rfl hfuel hrest
  | succ depth =>
    have := input_length_pos v
    obtain ⟨fuel, rfl⟩ : ∃ n, fuel = n + 1 := ⟨fuel - 1, by omega⟩
    rcases hv with rfl | rfl <;> rfl

theorem readsBack_arr {v : Json} {vs : List Json} (hv : ReadsBack v) (hvs : ∀ w ∈ vs, ReadsBack w) :
    ReadsBack (.arr (v :: vs)) := by
  intro depth fuel rest hfuel hrest
  cases depth with
  | zero => exact value_too_deep rfl hfuel hrest
  | succ depth =>
    rw [input_arr_cons, List.length_cons] at hfuel
    obtain ⟨fuel, rfl⟩ : ∃ n, fuel = n + 1 := ⟨fuel - 1, by omega⟩
    obtain ⟨c, cs, hc, -, hclose, -⟩ := input_head v
    have skipped (cs : Input) : skip (some '[' :: cs) = some '[' :: cs := skip_cons rfl cs
    unfold value
    simp only [input_arr_cons, List.cons_append, List.append_assoc, skipped, skip_input]
    split
    · rename_i h
      simp [hc, hclose] at h
    · rw [items_input hv hvs depth fuel rest [] (by omega)]
      simp [Except.map, reread]

theorem readsBack_obj {k : String} {v : Json} {fs : List (String × Json)} (hv : ReadsBack v)
    (hfs : ∀ f ∈ fs, ReadsBack f.2) : ReadsBack (.obj ((k, v) :: fs)) := by
  intro depth fuel rest hfuel hrest
  cases depth with
  | zero => exact value_too_deep rfl hfuel hrest
  | succ depth =>
    rw [input_obj_cons, List.length_cons, List.length_append, List.length_cons] at hfuel
    obtain ⟨fuel, rfl⟩ : ∃ n, fuel = n + 1 := ⟨fuel - 1, by omega⟩
    have skipped (cs : Input) : skip (some '{' :: cs) = some '{' :: cs := skip_cons rfl cs
    unfold value
    simp only [input_obj_cons, List.cons_append, List.append_assoc, skipped, skip_quote]
    split
    · rename_i h
      simp [quote] at h
    · rw [fields_input hv hfs depth fuel rest [] (by omega)]
      rw [List.reverse_nil, List.nil_append, Except.map, object_some, reread]

mutual

theorem value_input : ∀ v : Json, ReadsBack v
  | .arr [] => readsBack_empty (.inl rfl)
  | .obj [] => readsBack_empty (.inr rfl)
  | .arr (v :: vs) => readsBack_arr (value_input v) (values_input vs)
  | .obj ((_, v) :: fields) => readsBack_obj (value_input v) (fieldValues_input fields)
  | .null | .bool _ | .num _ | .str _ => readsBack_scalar rfl

theorem values_input : ∀ vs : List Json, ∀ w ∈ vs, ReadsBack w
  | [] => nofun
  | v :: vs => List.forall_mem_cons.mpr ⟨value_input v, values_input vs⟩

theorem fieldValues_input : ∀ fs : List (String × Json), ∀ f ∈ fs, ReadsBack f.2
  | [] => nofun
  | (_, v) :: fs => List.forall_mem_cons.mpr ⟨value_input v, fieldValues_input fs⟩

end

theorem document_input (v : Json) : document (input v) = .ok (v.reread maxDepth) := by
  have read := value_input v maxDepth (2 * (input v).length + 2) [] (by omega) closes_nil
  rw [List.append_nil] at read
  simp [document, read, skip]

end Reader

/-- A printed value is decoded from what it is reread as. -/
theorem decodeText_render {α : Type} (d : Source → Option α) (v : Json) {a : α} :
    decodeText d v.render = .ok a ↔ d (v.reread Reader.maxDepth) = some a := by
  have read : Reader.document (v.render.toList.map some) = .ok (v.reread Reader.maxDepth) :=
    Reader.document_input v
  rw [decodeText, Reader.decode_eq_ok_iff, read]
  simp

end ScreenFlow.Json
