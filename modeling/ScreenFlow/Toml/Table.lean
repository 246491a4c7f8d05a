import ScreenFlow.Json.Basic

/-!
# Tables of TOML

A document defines its tables piece by piece. A table may be named before it is defined, but it is
defined only once, and what stands in braces or brackets is closed for good.
-/

namespace ScreenFlow.Toml

inductive Node where
  | value (v : Json)
  /-- A table; `named` if it is only known from the names of others, `dotted` if it comes from a key
  with dots. -/
  | table (named dotted : Bool) (fields : List (String × Node))
  /-- A list of tables, of which the last one is still open. -/
  | tables (closed : List (List (String × Node))) (last : List (String × Node))

abbrev Fields := List (String × Node)

mutual

def Node.toJson : Node → Json
  | .value v => v
  | .table _ _ fields => .ofFields (fieldsToJson fields)
  | .tables closed last => .arr (closedToJson closed ++ [.ofFields (fieldsToJson last)])

def fieldsToJson : List (String × Node) → List (String × Json)
  | [] => []
  | (k, n) :: rest => (k, n.toJson) :: fieldsToJson rest

def closedToJson : List (List (String × Node)) → List Json
  | [] => []
  | fs :: rest => .ofFields (fieldsToJson fs) :: closedToJson rest

end

namespace Fields

def toJson (fs : Fields) : Json := .ofFields (fieldsToJson fs)

def get? (fs : Fields) (key : String) : Option Node := (List.find? (·.1 == key) fs).map (·.2)

def put (fs : Fields) (key : String) (n : Node) : Fields :=
  List.filter (·.1 != key) fs ++ [(key, n)]

/-- Changes the table at a path; tables on the way that are not there yet are made. With `dotted` the
path comes from a key with dots, which does not lead through tables that have been defined. The change
learns whether its table comes from such a key. -/
def update (dotted : Bool) (f : Bool → Fields → Option Fields) :
    List String → Bool → Fields → Option Fields
  | [], fromDots, fs => f fromDots fs
  | k :: ks, _, fs =>
    match fs.get? k with
    | none => do
      let inner ← update dotted f ks dotted []
      return fs.put k (.table true dotted inner)
    | some (.value _) => none
    | some (.tables closed last) => do
      let inner ← update dotted f ks false last
      return fs.put k (.tables closed inner)
    | some (.table named fromDots inner) => do
      guard (named || !dotted)
      let inner ← update dotted f ks fromDots inner
      return fs.put k (.table named fromDots inner)

/-- Gives a key its value. A key with dots adds only to tables that come from such keys. -/
def assign (fs : Fields) (path : List String) (key : String) (v : Json) : Option Fields :=
  update true (fun fromDots fs =>
    if fromDots == path.isEmpty || (fs.get? key).isSome then none else some (fs.put key (.value v)))
    path false fs

/-- The parts of a dotted key, and its value. -/
abbrev Assignment := List String × String × Json

def assignAll (fs : Fields) (as : List Assignment) : Option Fields :=
  as.foldlM (fun fs a => fs.assign a.1 a.2.1 a.2.2) fs

/-- Defines the table at a path. -/
def define (fs : Fields) (path : List String) (key : String) (as : List Assignment) : Option Fields :=
  update false (fun _ fs =>
    match fs.get? key with
    | none => (assignAll [] as).map fun inner => fs.put key (.table false false inner)
    | some (.table true false inner) =>
      (assignAll inner as).map fun inner => fs.put key (.table false false inner)
    | _ => none)
    path false fs

/-- Adds a table to the list at a path. -/
def append (fs : Fields) (path : List String) (key : String) (as : List Assignment) : Option Fields :=
  update false (fun _ fs =>
    match fs.get? key with
    | none => (assignAll [] as).map fun inner => fs.put key (.tables [] inner)
    | some (.tables closed last) =>
      (assignAll [] as).map fun inner => fs.put key (.tables (closed ++ [last]) inner)
    | _ => none)
    path false fs

end Fields

end ScreenFlow.Toml
