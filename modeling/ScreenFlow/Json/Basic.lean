import ScreenFlow.Json.Number

/-!
# JSON values

A tree whose objects are lists of fields. What a text holds keeps its order and its repeated keys;
a value of the running program is `normal`: keys ascend and occur once.
-/

namespace ScreenFlow

inductive Json where
  | null
  | bool (b : Bool)
  | num (n : Number)
  | str (s : String)
  | arr (items : List Json)
  | obj (fields : List (String × Json))
deriving Inhabited, Repr

namespace Json

mutual

/-- Structural equality, by recursion on the tree. -/
def same : Json → Json → Bool
  | .null, .null => true
  | .bool a, .bool b => a == b
  | .num a, .num b => a == b
  | .str a, .str b => a == b
  | .arr as, .arr bs => sameItems as bs
  | .obj as, .obj bs => sameFields as bs
  | _, _ => false

def sameItems : List Json → List Json → Bool
  | [], [] => true
  | a :: as, b :: bs => same a b && sameItems as bs
  | _, _ => false

def sameFields : List (String × Json) → List (String × Json) → Bool
  | [], [] => true
  | (k, a) :: as, (l, b) :: bs => k == l && same a b && sameFields as bs
  | _, _ => false

end

instance : BEq Json := ⟨same⟩

mutual

theorem eq_of_same : ∀ {a b : Json}, same a b = true → a = b
  | .null, b, h => by cases b <;> simp_all [same]
  | .bool _, b, h => by cases b <;> simp_all [same]
  | .num _, b, h => by cases b <;> simp_all [same]
  | .str _, b, h => by cases b <;> simp_all [same]
  | .arr as, b, h => by
    cases b with
    | arr bs => rw [eq_of_sameItems (by simpa [same] using h : sameItems as bs = true)]
    | _ => simp [same] at h
  | .obj as, b, h => by
    cases b with
    | obj bs => rw [eq_of_sameFields (by simpa [same] using h : sameFields as bs = true)]
    | _ => simp [same] at h

theorem eq_of_sameItems : ∀ {as bs : List Json}, sameItems as bs = true → as = bs
  | [], bs, h => by cases bs <;> simp_all [sameItems]
  | a :: as, bs, h => by
    cases bs with
    | nil => simp [sameItems] at h
    | cons b bs =>
      simp only [sameItems, Bool.and_eq_true] at h
      rw [eq_of_same h.1, eq_of_sameItems h.2]

theorem eq_of_sameFields :
    ∀ {as bs : List (String × Json)}, sameFields as bs = true → as = bs
  | [], bs, h => by cases bs <;> simp_all [sameFields]
  | (k, a) :: as, bs, h => by
    cases bs with
    | nil => simp [sameFields] at h
    | cons b bs =>
      obtain ⟨l, b⟩ := b
      simp only [sameFields, Bool.and_eq_true, beq_iff_eq] at h
      rw [h.1.1, eq_of_same h.1.2, eq_of_sameFields h.2]

end

mutual

theorem same_self : ∀ a : Json, same a a = true
  | .null => rfl
  | .bool _ => by simp [same]
  | .num _ => by simp [same]
  | .str _ => by simp [same]
  | .arr as => by simpa [same] using sameItems_self as
  | .obj as => by simpa [same] using sameFields_self as

theorem sameItems_self : ∀ as : List Json, sameItems as as = true
  | [] => rfl
  | a :: as => by simp [sameItems, same_self a, sameItems_self as]

theorem sameFields_self : ∀ as : List (String × Json), sameFields as as = true
  | [] => rfl
  | (_, a) :: as => by simp [sameFields, same_self a, sameFields_self as]

end

instance : DecidableEq Json := fun a b =>
  if h : same a b = true then isTrue (eq_of_same h)
  else isFalse fun e => h (e ▸ same_self a)

def int (i : Int) : Json := .num (.int i)

def nat (n : Nat) : Json := .num (.int n)

/-- The empty object. -/
def empty : Json := .obj []

def isObject : Json → Bool
  | .obj _ => true
  | _ => false

def isNull : Json → Bool
  | .null => true
  | _ => false

def str? : Json → Option String
  | .str s => some s
  | _ => none

def bool? : Json → Option Bool
  | .bool b => some b
  | _ => none

def fields? : Json → Option (List (String × Json))
  | .obj fields => some fields
  | _ => none

def items? : Json → Option (List Json)
  | .arr items => some items
  | _ => none

def ofOption {α : Type} (f : α → Json) : Option α → Json
  | some a => f a
  | none => .null

/-! ### Fields -/

/-- The value of the first field with this key. -/
def lookup (fields : List (String × Json)) (key : String) : Option Json :=
  (fields.find? (·.1 == key)).map (·.2)

/-- Overwrites the field where it stands, or puts it before the first greater key. -/
def insert (fields : List (String × Json)) (key : String) (value : Json) : List (String × Json) :=
  if fields.any (·.1 == key) then
    fields.map fun f => if f.1 == key then (key, value) else f
  else
    fields.takeWhile (·.1 < key) ++ (key, value) :: fields.dropWhile (·.1 < key)

/-- Lets the fields of `extra` overwrite those of `into`. -/
def extend (into extra : List (String × Json)) : List (String × Json) :=
  extra.foldl (fun acc f => insert acc f.1 f.2) into

def get? (v : Json) (key : String) : Option Json :=
  match v with
  | .obj fields => lookup fields key
  | _ => none

/-- The object's fields with keys ascending, each key once, the last one of a key winning. -/
def ofFields (fields : List (String × Json)) : Json := .obj (extend [] fields)

mutual

/-- How deeply arrays and objects nest; a value that is neither has depth 1. -/
def depth : Json → Nat
  | .arr items => depthItems items + 1
  | .obj fields => depthFields fields + 1
  | _ => 1

def depthItems : List Json → Nat
  | [] => 0
  | v :: rest => max (depth v) (depthItems rest)

def depthFields : List (String × Json) → Nat
  | [] => 0
  | (_, v) :: rest => max (depth v) (depthFields rest)

end

mutual

/-- Sorts the fields of every object; of a repeated key the last value stays. A double that is not
finite becomes null. -/
def normalize : Json → Json
  | .num (.double bits) => if Binary64.isFinite bits then .num (.double bits) else .null
  | .arr items => .arr (normalizeItems items)
  | .obj fields => .obj (extend [] (normalizeFields fields))
  | v => v

def normalizeItems : List Json → List Json
  | [] => []
  | v :: rest => normalize v :: normalizeItems rest

def normalizeFields : List (String × Json) → List (String × Json)
  | [] => []
  | (k, v) :: rest => (k, normalize v) :: normalizeFields rest

end

/-- Keys ascend strictly. -/
def Ascending (fields : List (String × Json)) : Prop :=
  fields.Pairwise fun a b => a.1 < b.1

mutual

/-- Every object in the value has strictly ascending keys. -/
def Normal : Json → Prop
  | .arr items => NormalItems items
  | .obj fields => Ascending fields ∧ NormalFields fields
  | _ => True

def NormalItems : List Json → Prop
  | [] => True
  | v :: rest => Normal v ∧ NormalItems rest

def NormalFields : List (String × Json) → Prop
  | [] => True
  | (_, v) :: rest => Normal v ∧ NormalFields rest

end

end Json

end ScreenFlow
