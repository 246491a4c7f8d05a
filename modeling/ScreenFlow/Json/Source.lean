import ScreenFlow.Json.Basic

/-!
# Values as they are written

What stands in a document before it is known what it is to be: fields in the order of the text, with
repeated keys. A part of a text can be well formed and still be no value. Whoever asks for that part is
refused; whoever passes over it does not notice.
-/

namespace ScreenFlow

/-- The kinds of document that hold values. -/
inductive Format where
  | json
  | toml
deriving DecidableEq, Repr, Inhabited

inductive Source where
  | null
  | bool (b : Bool)
  | num (n : Number)
  | str (s : String)
  | arr (format : Format) (items : List Source)
  | obj (format : Format) (fields : List (String × Source))
  /-- Well formed, but no value; `passed` tells whether who refuses it has read all of it by then. -/
  | unreadable (passed : Bool)
deriving Inhabited, Repr

namespace Source

mutual

/-- A value as it is written in a document of the format. -/
def written (f : Format) : Json → Source
  | .null => .null
  | .bool b => .bool b
  | .num n => .num n
  | .str s => .str s
  | .arr items => .arr f (writtenItems f items)
  | .obj fields => .obj f (writtenFields f fields)

def writtenItems (f : Format) : List Json → List Source
  | [] => []
  | v :: rest => written f v :: writtenItems f rest

def writtenFields (f : Format) : List (String × Json) → List (String × Source)
  | [] => []
  | (k, v) :: rest => (k, written f v) :: writtenFields f rest

end

/-- A value as it is written in JSON. -/
def ofJson : Json → Source := written .json

instance : Coe Json Source := ⟨ofJson⟩

mutual

/-- The value that is written, if every part of it can be read. -/
def toJson? : Source → Option Json
  | .null => some .null
  | .bool b => some (.bool b)
  | .num n => some (.num n)
  | .str s => some (.str s)
  | .arr _ items => (itemsToJson? items).map .arr
  | .obj _ fields => (fieldsToJson? fields).map .obj
  | .unreadable _ => none

def itemsToJson? : List Source → Option (List Json)
  | [] => some []
  | v :: rest => do return (← v.toJson?) :: (← itemsToJson? rest)

def fieldsToJson? : List (String × Source) → Option (List (String × Json))
  | [] => some []
  | (k, v) :: rest => do return (k, ← v.toJson?) :: (← fieldsToJson? rest)

end

mutual

theorem toJson?_written (f : Format) : ∀ v : Json, (written f v).toJson? = some v
  | .null => rfl
  | .bool _ => rfl
  | .num _ => rfl
  | .str _ => rfl
  | .arr items => by simp [written, toJson?, itemsToJson?_written f items]
  | .obj fields => by simp [written, toJson?, fieldsToJson?_written f fields]

theorem itemsToJson?_written (f : Format) :
    ∀ vs : List Json, itemsToJson? (writtenItems f vs) = some vs
  | [] => rfl
  | v :: rest => by
    simp [writtenItems, itemsToJson?, toJson?_written f v, itemsToJson?_written f rest]

theorem fieldsToJson?_written (f : Format) :
    ∀ fs : List (String × Json), fieldsToJson? (writtenFields f fs) = some fs
  | [] => rfl
  | (_, v) :: rest => by
    simp [writtenFields, fieldsToJson?, toJson?_written f v, fieldsToJson?_written f rest]

end

def isReadable (v : Source) : Bool := v.toJson?.isSome

/-- Whether the value says nothing. TOML has no null and writes an empty table or list for it. -/
def isUnit : Source → Bool
  | .null | .arr .toml [] | .obj .toml [] => true
  | _ => false

mutual

/-- Whether a reader that takes the whole value, or refuses it, stops behind it. What cannot be read
has to come last; the brackets around it are then closed all the same. -/
def isPassed : Source → Bool
  | .arr _ items => isPassedItems items
  | .obj _ fields => isPassedFields fields
  | .unreadable passed => passed
  | _ => true

def isPassedItems : List Source → Bool
  | [] => true
  | [v] => isPassed v
  | v :: w :: rest => v.isReadable && isPassedItems (w :: rest)

def isPassedFields : List (String × Source) → Bool
  | [] => true
  | [(_, v)] => isPassed v
  | (_, v) :: f :: rest => v.isReadable && isPassedFields (f :: rest)

end

mutual

/-- How deeply lists and objects nest; a value that is neither has depth 1. -/
def depth : Source → Nat
  | .arr _ items => depthItems items + 1
  | .obj _ fields => depthFields fields + 1
  | _ => 1

def depthItems : List Source → Nat
  | [] => 0
  | v :: rest => max (depth v) (depthItems rest)

def depthFields : List (String × Source) → Nat
  | [] => 0
  | (_, v) :: rest => max (depth v) (depthFields rest)

end

end Source

end ScreenFlow
