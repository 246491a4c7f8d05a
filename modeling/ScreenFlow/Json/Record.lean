import ScreenFlow.Json.Source

/-!
# Records in JSON

How a record is read: from an object, by the names of its fields, or from a list, by their order.
A field given twice under any of its names is refused, an unknown one is passed over, and a value of
the wrong kind makes the whole record unreadable.
-/

namespace ScreenFlow

/-- Reads a value of type `α`, or refuses. -/
abbrev Decoder (α : Type) := Source → Option α

/-- What is left to read of a record. -/
inductive RecordSource where
  | named (fields : List (String × Source))
  | listed (items : List Source)

abbrev RecordReader := StateT RecordSource Option

namespace Decoder

def value : Decoder Json := fun v => v.toJson?.map Json.normalize

def string : Decoder String
  | .str s => some s
  | _ => none

def bool : Decoder Bool
  | .bool b => some b
  | _ => none

/-- An unsigned integer below `2 ^ bits`. -/
def natBelow (bits : Nat) : Decoder Nat
  | .num n => n.toNatBelow? bits
  | _ => none

/-- A signed 64-bit integer. -/
def int64 : Decoder Int
  | .num n => n.toInt64?
  | _ => none

def option {α : Type} (d : Decoder α) : Decoder (Option α)
  | .null => some none
  | v => (d v).map some

def list {α : Type} (d : Decoder α) : Decoder (List α)
  | .arr _ items => items.mapM d
  | _ => none

/-- An object as a list of fields with ascending keys. -/
def map {α : Type} (d : Decoder α) : Decoder (List (String × α))
  | .obj _ fields => do
    let fields ← fields.mapM fun (k, v) => (d v).map fun a => (k, a)
    return fields.foldl (fun acc f => put acc f.1 f.2) []
  | _ => none
where
  put (acc : List (String × α)) (k : String) (a : α) : List (String × α) :=
    if acc.any (·.1 == k) then acc.map fun f => if f.1 == k then (k, a) else f
    else acc.takeWhile (·.1 < k) ++ (k, a) :: acc.dropWhile (·.1 < k)

/-- An object whose values are read as they are. -/
def object : Decoder (List (String × Json)) := fun v =>
  match value v with
  | some (.obj fields) => some fields
  | _ => none

/-- One of several names. The name may also be the only key of an object whose value says nothing. -/
def choice {α : Type} (name? : String → Option α) : Decoder α
  | .str s => name? s
  | .obj _ [(s, v)] => if v.isUnit then name? s else none
  | _ => none

/-- One of the values of a finite type, by name. -/
def oneOf {α : Type} (all : List α) (name : α → String) : Decoder α :=
  choice fun s => all.find? fun a => name a == s

/-- A value that has to be read as a whole before it is known what it is. -/
def whole {α : Type} (d : Decoder α) : Decoder α := fun v => if v.isReadable then d v else none

/-- One value or a list of them; null stands for none. -/
def oneOrMany {α : Type} (d : Decoder α) : Decoder (List α)
  | .null => some []
  | v => whole (fun v => ((d v).map ([·])).or (list d v)) v

/-- Runs a record reader. A list must be used up, except in TOML. -/
def record {α : Type} (r : RecordReader α) : Decoder α
  | .obj _ fields => (r.run (.named fields)).map (·.1)
  | .arr format items => do
    let (a, rest) ← r.run (.listed items)
    match format, rest with
    | .json, .listed (_ :: _) => none
    | _, _ => some a
  | _ => none

end Decoder

namespace RecordReader

/-- The next field: `some none` if it is absent, `none` if it is there twice. -/
def next (names : List String) : RecordReader (Option Source) := fun source =>
  match source with
  | .named fields =>
    match fields.filter fun f => names.contains f.1 with
    | [] => some (none, source)
    | [f] => some (some f.2, source)
    | _ => none
  | .listed [] => some (none, source)
  | .listed (v :: rest) => some (some v, .listed rest)

/-- A field that must be there. -/
def required {α : Type} (name : String) (d : Decoder α) : RecordReader α := do
  match ← next [name] with
  | some v => d v
  | none => failure

/-- A field that has a default, under any of its names. -/
def withDefault {α : Type} (names : List String) (default : α) (d : Decoder α) :
    RecordReader α := do
  match ← next names with
  | some v => d v
  | none => return default

/-- A field that may be absent or null. -/
def optional {α : Type} (name : String) (d : Decoder α) : RecordReader (Option α) :=
  withDefault [name] none d.option

/-- A field that may be absent by name or null, but has its place in a list. -/
def optionalByName {α : Type} (name : String) (d : Decoder α) : RecordReader (Option α) :=
  fun source =>
    match source with
    | .named _ => (optional name d) source
    | .listed [] => none
    | .listed (v :: rest) => (d.option v).map fun a => (a, .listed rest)

end RecordReader

end ScreenFlow
