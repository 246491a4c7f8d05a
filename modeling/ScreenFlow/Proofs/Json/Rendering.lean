import ScreenFlow.Proofs.Json.Doubles
import ScreenFlow.Proofs.Json.Reading

/-!
# Values are told by their text

The text of a value says where it ends and which value it is. It also says where it begins, if a colon
stands before it: all colons of a value stand between quotes or in brackets.

* `told`: no two values have the same text, whatever closes them;
* `goes_input`: the text of a value ends where it began, and its colons lie deeper;
* `ne_behind_colon`: the text of a value does not end with a colon and another value;
* `eq_of_behind_colon`: a text and a value behind a colon are both told by what they make.
-/

namespace ScreenFlow.Json

open Reader

/-! ### One text, one value -/

/-- Which kind of value begins with the character. -/
def kindAt (c : Char) : Nat :=
  if c = 'n' then 0
  else if c = 't' ∨ c = 'f' then 1
  else if c = '"' then 3
  else if c = '[' then 4
  else if c = '\x7b' then 5
  else 2

theorem input_kind (v : Json) : ∃ c cs, input v = some c :: cs ∧ kindAt c = v.ctorIdx := by
  cases v with
  | null => exact ⟨'n', _, rfl, rfl⟩
  | bool b =>
    cases b
    · exact ⟨'f', _, rfl, rfl⟩
    · exact ⟨'t', _, rfl, rfl⟩
  | num n =>
    obtain ⟨c, cs, text, begins⟩ := n.wellFormed_numeral.head
    refine ⟨c, cs.map some, by rw [input, render, n.render_eq, text, List.map_cons], ?_⟩
    rcases begins with rfl | digit
    · rfl
    · have other (d : Char) (hd : d.isDigit = false) : c ≠ d := by
        rintro rfl
        rw [digit] at hd
        cases hd
      simp only [kindAt, other 'n' rfl, other 't' rfl, other 'f' rfl, other '"' rfl, other '[' rfl,
        other '\x7b' rfl, or_self, ↓reduceIte]
      rfl
  | str s => exact ⟨'"', (quoteChars s.toList).map some, by simp [input, render, quote], rfl⟩
  | arr items => cases items <;> exact ⟨'[', _, by simp; rfl, rfl⟩
  | obj fields => rcases fields with _ | ⟨⟨k, v⟩, fields⟩ <;> exact ⟨'\x7b', _, by simp; rfl, rfl⟩

theorem kind_of_input {v w : Json} {rest rest' : Input} (same : input v ++ rest = input w ++ rest') :
    v.ctorIdx = w.ctorIdx := by
  obtain ⟨c, cs, hv, kind⟩ := input_kind v
  obtain ⟨c', cs', hw, kind'⟩ := input_kind w
  rw [hv, hw] at same
  rw [← kind, ← kind', Option.some.inj (List.cons.inj same).1]

theorem quote_inj {s s' : String} {rest rest' : Input}
    (same : (quote s).toList.map some ++ rest = (quote s').toList.map some ++ rest') :
    s = s' ∧ rest = rest' := by
  have opened (s : String) (rest : Input) : (quote s).toList.map some ++ rest =
      some '"' :: ((quoteChars s.toList).map some ++ rest) := by simp [quote]
  rw [opened, opened] at same
  have read := string_quoteChars [] s.toList rest
  rw [(List.cons.inj same).2, string_quoteChars] at read
  simpa [eq_comm] using read

/-- The text of the value is that of no other one, and says where it ends. -/
def Told (v : Json) : Prop :=
  ∀ w rest rest', Closes rest → Closes rest' → input v ++ rest = input w ++ rest' →
    v = w ∧ rest = rest'

theorem told_scalar {v : Json} (hv : isScalar v = true) : Told v := by
  intro w rest rest' closes closes' same
  have kind := kind_of_input same
  cases v with
  | null =>
    cases w <;> cases kind
    exact ⟨rfl, List.append_cancel_left same⟩
  | bool b =>
    cases w <;> cases kind
    rename_i b'
    cases b <;> cases b' <;> simp_all [input, render]
  | num n =>
    cases w <;> cases kind
    rename_i n'
    simp only [input, render, n.render_eq, n'.render_eq] at same
    have read := numeral_text n.wellFormed_numeral closes
    rw [same, numeral_text n'.wellFormed_numeral closes'] at read
    obtain ⟨numerals, rests⟩ := Prod.mk.inj (Except.ok.inj read)
    refine ⟨congrArg num (Number.render_inj (String.toList_inj.mp ?_)), rests.symm⟩
    rw [n.render_eq, n'.render_eq, numerals]
  | str s =>
    cases w <;> cases kind
    rename_i s'
    obtain ⟨rfl, rests⟩ := quote_inj same
    exact ⟨rfl, rests⟩
  | arr | obj => cases hv

/-- Lists of told values are told, up to the bracket that closes them. -/
theorem items_told {vs : List Json} (hvs : ∀ v ∈ vs, Told v) : ∀ {ws : List Json} {rest rest' : Input},
    itemsInput vs ++ rest = itemsInput ws ++ rest' → vs = ws ∧ rest = rest' := by
  induction vs with
  | nil =>
    intro ws rest rest' same
    cases ws with
    | nil => exact ⟨rfl, List.append_cancel_left same⟩
    | cons w ws => simp at same
  | cons v vs ih =>
    intro ws rest rest' same
    cases ws with
    | nil => simp at same
    | cons w ws =>
      simp only [itemsInput_cons, List.cons_append, List.append_assoc, List.cons.injEq,
        true_and] at same
      obtain ⟨rfl, behind⟩ := hvs v List.mem_cons_self w _ _ (closes_itemsInput vs rest)
        (closes_itemsInput ws rest') same
      obtain ⟨rfl, rfl⟩ := ih (fun u hu => hvs u (List.mem_cons_of_mem _ hu)) behind
      exact ⟨rfl, rfl⟩

theorem fields_told {fs : List (String × Json)} (hfs : ∀ f ∈ fs, Told f.2) :
    ∀ {gs : List (String × Json)} {rest rest' : Input},
      fieldsInput fs ++ rest = fieldsInput gs ++ rest' → fs = gs ∧ rest = rest' := by
  induction fs with
  | nil =>
    intro gs rest rest' same
    rcases gs with _ | ⟨⟨l, w⟩, gs⟩
    · exact ⟨rfl, List.append_cancel_left same⟩
    · simp at same
  | cons f fs ih =>
    obtain ⟨k, v⟩ := f
    intro gs rest rest' same
    rcases gs with _ | ⟨⟨l, w⟩, gs⟩
    · simp at same
    · simp only [fieldsInput_cons, List.cons_append, List.append_assoc, List.cons.injEq,
        true_and] at same
      obtain ⟨rfl, behind⟩ := quote_inj same
      obtain ⟨rfl, after⟩ := hfs (k, v) List.mem_cons_self w _ _ (closes_fieldsInput fs rest)
        (closes_fieldsInput gs rest') (List.cons.inj behind).2
      obtain ⟨rfl, rfl⟩ := ih (fun g hg => hfs g (List.mem_cons_of_mem _ hg)) after
      exact ⟨rfl, rfl⟩

/-- Neither closing bracket begins a value. -/
theorem ne_closing {v : Json} {c : Char} (hc : c = ']' ∨ c = '\x7d') {rest rest' : Input} :
    some c :: rest ≠ input v ++ rest' := by
  obtain ⟨d, cs, begins, -, square, curly, -⟩ := input_head v
  rw [begins]
  intro same
  obtain rfl := Option.some.inj (List.cons.inj same).1
  exact hc.elim square curly

theorem told_arr {vs : List Json} (hvs : ∀ v ∈ vs, Told v) : Told (.arr vs) := by
  intro w rest rest' _ _ same
  have kind := kind_of_input same
  cases w <;> cases kind
  rename_i ws
  rcases vs with _ | ⟨v, vs⟩ <;> rcases ws with _ | ⟨w, ws⟩ <;>
    simp only [input_arr_nil, input_arr_cons, List.cons_append, List.cons.injEq, true_and,
      List.append_assoc, List.nil_append] at same
  · exact ⟨rfl, same⟩
  · exact absurd same (ne_closing (.inl rfl))
  · exact absurd same.symm (ne_closing (.inl rfl))
  · -- Behind the opening bracket the items are written as behind a comma.
    have items : itemsInput (v :: vs) ++ rest = itemsInput (w :: ws) ++ rest' := by
      simpa only [itemsInput_cons, List.cons_append, List.cons.injEq, true_and, List.append_assoc]
        using same
    obtain ⟨all, rests⟩ := items_told hvs items
    exact ⟨congrArg arr all, rests⟩

theorem told_obj {fs : List (String × Json)} (hfs : ∀ f ∈ fs, Told f.2) : Told (.obj fs) := by
  intro w rest rest' _ _ same
  have kind := kind_of_input same
  cases w <;> cases kind
  rename_i gs
  have closing (l : String) (rest rest' : Input) :
      some '\x7d' :: rest ≠ (quote l).toList.map some ++ rest' := by simp [quote]
  rcases fs with _ | ⟨⟨k, v⟩, fs⟩ <;> rcases gs with _ | ⟨⟨l, w⟩, gs⟩ <;>
    simp only [input_obj_nil, input_obj_cons, List.cons_append, List.cons.injEq, true_and,
      List.append_assoc, List.nil_append] at same
  · exact ⟨rfl, same⟩
  · exact absurd same (closing _ _ _)
  · exact absurd same.symm (closing _ _ _)
  · have fields : fieldsInput ((k, v) :: fs) ++ rest = fieldsInput ((l, w) :: gs) ++ rest' := by
      simpa only [fieldsInput_cons, List.cons_append, List.cons.injEq, true_and, List.append_assoc]
        using same
    obtain ⟨all, rests⟩ := fields_told hfs fields
    exact ⟨congrArg obj all, rests⟩

mutual

theorem told : ∀ v : Json, Told v
  | .arr vs => told_arr (told_items vs)
  | .obj fs => told_obj (told_fields fs)
  | .null | .bool _ | .num _ | .str _ => by
    exact told_scalar rfl

theorem told_items : ∀ vs : List Json, ∀ v ∈ vs, Told v
  | [] => List.forall_mem_nil _
  | v :: vs => List.forall_mem_cons.mpr ⟨told v, told_items vs⟩

theorem told_fields : ∀ fs : List (String × Json), ∀ f ∈ fs, Told f.2
  | [] => List.forall_mem_nil _
  | (_, v) :: fs => List.forall_mem_cons.mpr ⟨told v, told_fields fs⟩

end

/-! ### Colons -/

/-- Where a text stands: between quotes or not, behind a backslash or not, and in how many brackets. -/
structure Place where
  quoted : Bool
  escaped : Bool
  depth : Int

namespace Place

def step (p : Place) (c : Option Char) : Place :=
  if p.escaped then { p with escaped := false }
  else if c = some '\\' then { p with escaped := true }
  else if c = some '"' then { p with quoted := !p.quoted }
  else if p.quoted then p
  else if c = some '[' ∨ c = some '\x7b' then { p with depth := p.depth + 1 }
  else if c = some ']' ∨ c = some '\x7d' then { p with depth := p.depth - 1 }
  else p

theorem step_escaped (p : Place) (c : Option Char) :
    (p.step c).escaped = (!p.escaped && decide (c = some '\\')) := by
  unfold step
  split_ifs <;> simp_all

theorem step_quoted (p : Place) (c : Option Char) :
    (p.step c).quoted = xor (!p.escaped && decide (c = some '"')) p.quoted := by
  unfold step
  split_ifs <;> simp_all

def outside (depth : Int) : Place := ⟨false, false, depth⟩

def inside (depth : Int) : Place := ⟨true, false, depth⟩

/-- The text leads from one place to another, and each colon on the way stands between quotes or at
least so deep. -/
inductive Goes (least : Int) : Place → Input → Place → Prop
  | here {p : Place} : Goes least p [] p
  | past {p p' q : Place} {c : Option Char} {rest : Input} (moves : p.step c = p')
      (colon : c = some ':' → p.quoted = true ∨ least ≤ p.depth) (goes : Goes least p' rest q) :
      Goes least p (c :: rest) q

variable {least : Int} {p q q' : Place} {text rest : Input}

theorem Goes.append (h : Goes least p text q) (h' : Goes least q rest q') :
    Goes least p (text ++ rest) q' := by
  induction h with
  | here => exact h'
  | past moves colon _ ih => exact .past moves colon (ih h')

theorem Goes.mono {most : Int} (h : Goes most p text q) (le : least ≤ most) : Goes least p text q := by
  induction h with
  | here => exact .here
  | past moves colon _ ih => exact .past moves (fun is => (colon is).imp_right le.trans) ih

theorem Goes.split (h : Goes least p (text ++ rest) q) :
    ∃ between, Goes least p text between ∧ Goes least between rest q := by
  induction text generalizing p with
  | nil => exact ⟨p, .here, h⟩
  | cons c text ih =>
    cases h with
    | past moves colon goes =>
      obtain ⟨between, first, second⟩ := ih goes
      exact ⟨between, .past moves colon first, second⟩

theorem Goes.unique {other : Int} (h : Goes least p text q) (h' : Goes other p text q') : q = q' := by
  induction h with
  | here =>
    cases h'
    rfl
  | past moves _ _ ih =>
    cases h' with
    | past moves' _ goes => exact ih (moves ▸ moves' ▸ goes)

/-- Read from the other side of a quote, a text leads to the other side. -/
theorem Goes.opposite {other : Int} {p' : Place} (h : Goes least p text q) (h' : Goes other p' text q')
    (escaped : p'.escaped = p.escaped) (quoted : p'.quoted = !p.quoted) :
    q'.quoted = !q.quoted := by
  induction h generalizing p' with
  | here =>
    cases h'
    exact quoted
  | past moves _ _ ih =>
    subst moves
    cases h' with
    | past moves' _ goes =>
      subst moves'
      refine ih goes ?_ ?_
      · rw [step_escaped, step_escaped, escaped]
      · rw [step_quoted, step_quoted, escaped, quoted, Bool.xor_not]

theorem Goes.mark {p' : Place} {c : Char} (moves : p.step (some c) = p') (other : c ≠ ':')
    (h : Goes least p' rest q) : Goes least p (some c :: rest) q :=
  .past moves (fun is => absurd (Option.some.inj is) other) h

/-- Characters that lead nowhere. -/
theorem goes_still {cs : List Char} (still : ∀ c ∈ cs, p.step (some c) = p)
    (colon : p.quoted = true ∨ ':' ∉ cs) : Goes least p (cs.map some) p := by
  induction cs with
  | nil => exact .here
  | cons c cs ih =>
    rw [List.forall_mem_cons] at still
    refine .past still.1 ?_ (ih still.2 (colon.imp_right fun none => ?_))
    · rintro ⟨⟩
      exact .inl (colon.resolve_right fun none => none List.mem_cons_self)
    · exact fun mem => none (List.mem_cons_of_mem _ mem)

theorem step_inside {c : Char} (quote : c ≠ '"') (slash : c ≠ '\\') (depth : Int) :
    (inside depth).step (some c) = inside depth := by
  simp [step, inside, quote, slash]

/-- An escape is over before the quotes close. -/
theorem goes_escape {c : Char} {text : List Char} (h : escape? c = some text) (depth : Int) :
    Goes least (inside depth) (text.map some) (inside depth) := by
  obtain ⟨x, more, rfl, plain⟩ : ∃ x more, text = '\\' :: x :: more ∧
      ∀ c ∈ more, c ≠ '"' ∧ c ≠ '\\' := by
    unfold escape? at h
    split at h
    case h_8 =>
      split at h
      · rename_i control
        have digit : ∀ n < 16, hexDigit n ≠ '"' ∧ hexDigit n ≠ '\\' := by decide
        have high := digit (c.toNat / 16) (by omega)
        have low := digit (c.toNat % 16) (by omega)
        cases h
        exact ⟨'u', _, rfl, by simp [high, low]⟩
      · cases h
    all_goals
      cases h
      exact ⟨_, [], rfl, List.forall_mem_nil _⟩
  refine .past rfl (fun _ => .inl rfl) (.past rfl (fun _ => .inl rfl) ?_)
  exact goes_still (fun c hc => step_inside (plain c hc).1 (plain c hc).2 depth) (.inl rfl)

/-- What stands between quotes leads behind the closing one. -/
theorem goes_quoted (cs : List Char) (depth : Int) :
    Goes least (inside depth) ((quoteChars cs).map some) (outside depth) := by
  induction cs with
  | nil => exact .past rfl (fun _ => .inl rfl) .here
  | cons c cs ih =>
    rw [quoteChars]
    split
    · rename_i escape
      rw [List.map_append]
      exact (goes_escape escape depth).append ih
    · rename_i plain
      obtain ⟨quote, slash, -⟩ := escape?_eq_none plain
      exact .past (step_inside quote slash depth) (fun _ => .inl rfl) ih

theorem goes_quote (s : String) (depth : Int) :
    Goes least (outside depth) ((quote s).toList.map some) (outside depth) := by
  have opened : (quote s).toList.map some = some '"' :: (quoteChars s.toList).map some := by
    simp [quote]
  rw [opened]
  exact .mark rfl (by decide) (goes_quoted _ depth)

/-- The characters that lead elsewhere. -/
def marks : List Char := ['\\', '"', '[', '\x7b', ']', '\x7d', ':']

theorem goes_plain {cs : List Char} (plain : ∀ c ∈ cs, c ∉ marks) (depth : Int) :
    Goes least (outside depth) (cs.map some) (outside depth) := by
  refine goes_still (fun c hc => ?_) (.inr fun colon => absurd (plain _ colon) (by decide))
  have plain := plain c hc
  simp only [marks, List.mem_cons, List.not_mem_nil, or_false, not_or] at plain
  simp [step, outside, plain]

theorem goes_number (n : Number) (depth : Int) :
    Goes least (outside depth) (input (.num n)) (outside depth) := by
  have digit (c : Char) (hc : c.isDigit = true) : c ∉ marks := by
    have others : marks.all (!·.isDigit) = true := by decide
    intro mem
    simpa [hc] using List.all_eq_true.mp others c mem
  have sign : ∀ c ∈ ['-', '.', 'e', '+'], c ∉ marks := by simp [marks]
  rw [input, render, n.render_eq]
  exact goes_plain (fun c hc => (n.wellFormed_numeral.mem_text hc).elim (digit c) (sign c)) depth

theorem step_closing (depth : Int) :
    (outside (depth + 1)).step (some ']') = outside depth ∧
      (outside (depth + 1)).step (some '\x7d') = outside depth := by
  simp [step, outside]

/-- A field in brackets, before the rest of them. -/
theorem goes_field {depth : Int} (k : String)
    (hv : Goes (depth + 1) (outside depth) text (outside depth))
    (hrest : Goes depth (outside depth) rest q) :
    Goes depth (outside depth) ((quote k).toList.map some ++ some ':' :: (text ++ rest)) q :=
  (goes_quote k depth).append <|
    .past rfl (fun _ => .inr le_rfl) ((hv.mono (Int.le_add_one le_rfl)).append hrest)

mutual

/-- The text of a value leads back to where it stands, and its colons lie deeper. -/
theorem goes_input : ∀ (v : Json) (depth : Int),
    Goes (depth + 1) (outside depth) (input v) (outside depth)
  | .null, depth | .bool true, depth | .bool false, depth => by
    exact goes_plain (by simp [render, marks]) depth
  | .num n, depth => goes_number n depth
  | .str s, depth => goes_quote s depth
  | .arr [], depth => .mark rfl (by decide) (goes_itemsInput [] depth)
  | .arr (v :: vs), depth => by
    rw [input_arr_cons]
    have first := (goes_input v (depth + 1)).mono (Int.le_add_one le_rfl)
    exact .mark rfl (by decide) (first.append (goes_itemsInput vs depth))
  | .obj [], depth => .mark rfl (by decide) (goes_fieldsInput [] depth)
  | .obj ((k, v) :: fs), depth => by
    rw [input_obj_cons]
    exact .mark rfl (by decide) (goes_field k (goes_input v (depth + 1)) (goes_fieldsInput fs depth))

/-- The rest of a list leads out of its bracket. -/
theorem goes_itemsInput : ∀ (vs : List Json) (depth : Int),
    Goes (depth + 1) (outside (depth + 1)) (itemsInput vs) (outside depth)
  | [], depth => by
    rw [itemsInput_nil]
    exact .mark (step_closing depth).1 (by decide) .here
  | v :: vs, depth => by
    rw [itemsInput_cons]
    have first := (goes_input v (depth + 1)).mono (Int.le_add_one le_rfl)
    exact .mark rfl (by decide) (first.append (goes_itemsInput vs depth))

theorem goes_fieldsInput : ∀ (fs : List (String × Json)) (depth : Int),
    Goes (depth + 1) (outside (depth + 1)) (fieldsInput fs) (outside depth)
  | [], depth => by
    rw [fieldsInput_nil]
    exact .mark (step_closing depth).2 (by decide) .here
  | (k, v) :: fs, depth => by
    rw [fieldsInput_cons]
    exact .mark rfl (by decide) (goes_field k (goes_input v (depth + 1)) (goes_fieldsInput fs depth))

end

end Place

/-- The text of a value does not end with a colon and another value. -/
theorem ne_behind_colon (v w : Json) (before : Input) :
    input v ≠ before ++ some ':' :: input w := by
  intro same
  have goes := Place.goes_input v 0
  rw [same] at goes
  obtain ⟨there, -, onwards⟩ := goes.split
  cases onwards with
  | @past _ next _ _ _ moves colon onwards =>
    have escaped : next.escaped = false := by
      rw [← moves, Place.step_escaped]
      simp
    have quoted : next.quoted = there.quoted := by
      rw [← moves, Place.step_quoted]
      simp
    have level : next.depth = there.depth := by
      rw [← moves, Place.step]
      split_ifs <;> simp_all
    cases side : next.quoted with
    | true =>
      -- The quotes of the value behind the colon come in pairs.
      have := (Place.goes_input w 0).opposite onwards escaped (by simp [side, Place.outside])
      cases this
    | false =>
      have deep : 0 + 1 ≤ there.depth := (colon rfl).resolve_left (by simp [← quoted, side])
      have stands : next = Place.outside there.depth := by
        cases next
        simp_all [Place.outside]
      rw [stands] at onwards
      have back := congrArg Place.depth ((Place.goes_input w there.depth).unique onwards)
      simp only [Place.outside] at back
      omega

/-- A text and a value behind a colon are both told by what they make. -/
theorem eq_of_behind_colon {a b : String} {v w : Json}
    (same : a ++ ":" ++ v.render = b ++ ":" ++ w.render) : a = b ∧ v = w := by
  have texts : a.toList.map some ++ some ':' :: input v =
      b.toList.map some ++ some ':' :: input w := by
    simpa [input] using congrArg (fun s : String => s.toList.map some) same
  have shorter {v w : Json} {before : Input} (h : some ':' :: input v = before ++ some ':' :: input w) :
      before = [] ∧ input v = input w := by
    cases before with
    | nil => exact ⟨rfl, (List.cons.inj h).2⟩
    | cons c before => exact absurd (List.cons.inj h).2 (ne_behind_colon v w before)
  obtain ⟨front, values⟩ : a.toList.map some = b.toList.map some ∧ input v = input w := by
    rcases List.append_eq_append_iff.mp texts with ⟨more, hb, h⟩ | ⟨more, ha, h⟩
    · obtain ⟨rfl, values⟩ := shorter h
      exact ⟨by rw [hb, List.append_nil], values⟩
    · obtain ⟨rfl, values⟩ := shorter h
      exact ⟨by rw [ha, List.append_nil], values.symm⟩
  refine ⟨String.toList_inj.mp (List.map_injective_iff.mpr (Option.some_injective _) front), ?_⟩
  exact (told v w [] [] closes_nil closes_nil (by rw [values])).1

end ScreenFlow.Json
