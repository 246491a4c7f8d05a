import ScreenFlow.Toml.Scalar
import ScreenFlow.Toml.Table

/-!
# Documents of TOML

A document is a list of assignments and headers, one to a line. Its value is an object in which the
kinds of TOML are those of JSON.
-/

namespace ScreenFlow.Toml

/-- How many lists and braces may nest, and how many parts a key may have. -/
def maxNesting : Nat := 79

/-! ### Keys -/

def isKeyChar (c : Char) : Bool := c.isAlphanum || c == '_' || c == '-'

def keyPart (cs : List Char) : Option (String × List Char) :=
  match shortString? cs with
  | some result => result
  | none =>
    let name := cs.takeWhile isKeyChar
    if name.isEmpty then none else some (String.ofList name, cs.drop name.length)

/-- The parts of a key, with the last one apart. -/
def keyParts : Nat → List String → List Char → Option ((List String × String) × List Char)
  | 0, _, _ => none
  | fuel + 1, before, cs => do
    let (part, rest) ← keyPart (skipBlanks cs)
    match skipBlanks rest with
    | '.' :: rest => keyParts fuel (before ++ [part]) rest
    | rest => return ((before, part), rest)

def key (cs : List Char) : Option ((List String × String) × List Char) :=
  keyParts maxNesting [] cs

/-! ### Values -/

mutual

/-- A value. The first argument bounds the number of steps, the second the depth of nesting. -/
def value : Nat → Nat → Read Json
  | 0, _, _ => none
  | fuel + 1, depth, cs =>
    match string? cs with
    | some result => result.map fun (s, rest) => (.str s, rest)
    | none =>
      match cs, depth with
      | '[' :: _, 0 => none
      | '{' :: _, 0 => none
      | '[' :: rest, depth + 1 => items fuel depth [] rest
      | '{' :: rest, depth + 1 =>
        match skipBlanks rest with
        | '}' :: rest => some (.empty, rest)
        | rest => inline fuel depth [] rest
      | cs, _ => scalar cs

/-- The rest of a list, which may go over several lines and end with a comma. -/
def items : Nat → Nat → List Json → Read Json
  | 0, _, _, _ => none
  | fuel + 1, depth, acc, cs =>
    match skipLines cs.length cs with
    | ']' :: rest => some (.arr acc.reverse, rest)
    | cs =>
      match value fuel depth cs with
      | none => none
      | some (v, rest) =>
        match skipLines rest.length rest with
        | ',' :: rest => items fuel depth (v :: acc) rest
        | ']' :: rest => some (.arr (v :: acc).reverse, rest)
        | _ => none

/-- The rest of a table in braces, which stays on its line. -/
def inline : Nat → Nat → Fields → Read Json
  | 0, _, _, _ => none
  | fuel + 1, depth, fs, cs =>
    match key cs with
    | some ((path, name), '=' :: rest) =>
      match value fuel depth (skipBlanks rest) with
      | none => none
      | some (v, rest) =>
        match fs.assign path name v, skipBlanks rest with
        | some fs, ',' :: rest => inline fuel depth fs rest
        | some fs, '}' :: rest => some (fs.toJson, rest)
        | _, _ => none
    | _ => none

end

/-! ### Lines -/

inductive Line where
  | assignment (a : Fields.Assignment)
  | table (path : List String) (key : String)
  | element (path : List String) (key : String)

def assignment (cs : List Char) : Option (Line × List Char) :=
  match key cs with
  | some ((path, name), '=' :: rest) =>
    (value (2 * rest.length + 2) maxNesting (skipBlanks rest)).map fun (v, rest) =>
      (.assignment (path, name, v), rest)
  | _ => none

def header : List Char → Option (Line × List Char)
  | '[' :: rest =>
    match key rest with
    | some ((path, name), ']' :: ']' :: rest) => some (.element path name, rest)
    | _ => none
  | rest =>
    match key rest with
    | some ((path, name), ']' :: rest) => some (.table path name, rest)
    | _ => none

def line : List Char → Option (Line × List Char)
  | '[' :: rest => header rest
  | cs => assignment cs

/-- All lines of a document, without the empty ones. -/
def lines : Nat → List Char → Option (List Line)
  | 0, _ => none
  | fuel + 1, cs =>
    match skipLines cs.length cs with
    | [] => some []
    | cs => do
      let (l, rest) ← line cs
      let rest ← endOfLine? rest
      return l :: (← lines fuel rest)

/-! ### The whole -/

/-- The assignments up to the next header, and what follows them. -/
def leading : List Line → List Fields.Assignment × List Line
  | .assignment a :: ls => (a :: (leading ls).1, (leading ls).2)
  | ls => ([], ls)

/-- Defines what the headers name. -/
def build : List Line → Fields → Option Fields
  | [], fs => some fs
  | .assignment _ :: ls, fs => build ls fs
  | .table path key :: ls, fs => do build ls (← fs.define path key (leading ls).1)
  | .element path key :: ls, fs => do build ls (← fs.append path key (leading ls).1)

/-- The value of a document, if it is one. -/
def ofText? (text : String) : Option Json := do
  let cs := match text.toList with
    | '\ufeff' :: rest => rest
    | cs => cs
  let ls ← lines (cs.length + 1) cs
  let top ← Fields.assignAll [] (leading ls).1
  return (← build ls top).toJson

end ScreenFlow.Toml
