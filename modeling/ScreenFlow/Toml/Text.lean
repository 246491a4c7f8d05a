import ScreenFlow.Json.Reader

/-!
# Blanks and strings of TOML

Every reader takes something off the front of the text, or refuses. Strings stand in double quotes,
with escapes, or in single quotes, without; either kind may be tripled and then spans lines.
-/

namespace ScreenFlow.Toml

abbrev Read (α : Type) := List Char → Option (α × List Char)

def isBlank (c : Char) : Bool := c == ' ' || c == '\t'

/-- What may stand in no string and no comment. -/
def isControl (c : Char) : Bool := (c.toNat < 0x20 && c != '\t') || c.toNat == 0x7F

def skipBlanks (cs : List Char) : List Char := cs.dropWhile isBlank

/-- The text after a line break, if it begins with one. -/
def lineBreak? : List Char → Option (List Char)
  | '\n' :: rest => some rest
  | '\r' :: '\n' :: rest => some rest
  | _ => none

/-- The text after a comment, which ends before the line break. -/
def skipComment : List Char → List Char
  | '#' :: rest => rest.dropWhile (!isControl ·)
  | cs => cs

/-- What may follow an expression on its line. -/
def endOfLine? (cs : List Char) : Option (List Char) :=
  match skipComment (skipBlanks cs) with
  | [] => some []
  | rest => lineBreak? rest

/-- Skips blanks, comments and line breaks. -/
def skipLines : Nat → List Char → List Char
  | 0, cs => cs
  | fuel + 1, cs =>
    let rest := skipComment (skipBlanks cs)
    match lineBreak? rest with
    | some rest => skipLines fuel rest
    | none => rest

/-- Skips blanks and line breaks. -/
def skipBlankLines : Nat → List Char → List Char
  | 0, cs => cs
  | fuel + 1, cs =>
    match lineBreak? (skipBlanks cs) with
    | some rest => skipBlankLines fuel rest
    | none => skipBlanks cs

/-! ### Strings -/

def unescape? : Char → Option Char
  | 'b' => some '\x08'
  | 't' => some '\t'
  | 'n' => some '\n'
  | 'f' => some '\x0c'
  | 'r' => some '\r'
  | '"' => some '"'
  | '\\' => some '\\'
  | _ => none

/-- The character of a code point that is no surrogate. -/
def scalar? (n : Nat) : Option Char :=
  if n < 0xD800 ∨ (0xDFFF < n ∧ n < 0x110000) then some (Char.ofNat n) else none

/-- What follows a backslash. -/
def escape : Read Char
  | 'u' :: a :: b :: c :: d :: rest => do
    return (← scalar? (← Json.Reader.hex4? a b c d), rest)
  | 'U' :: a :: b :: c :: d :: e :: f :: g :: h :: rest => do
    let high ← Json.Reader.hex4? a b c d
    let low ← Json.Reader.hex4? e f g h
    return (← scalar? (high * 0x10000 + low), rest)
  | c :: rest => (unescape? c).map fun c => (c, rest)
  | [] => none

/-- Up to the closing quote. The first argument bounds the number of steps. -/
def basic : Nat → List Char → Read String
  | 0, _, _ => none
  | fuel + 1, acc, cs =>
    match cs with
    | '"' :: rest => some (String.ofList acc.reverse, rest)
    | '\\' :: rest => (escape rest).bind fun (c, rest) => basic fuel (c :: acc) rest
    | c :: rest => if isControl c then none else basic fuel (c :: acc) rest
    | [] => none

/-- Up to three closing quotes, before which two more may stand. A backslash at the end of a line
takes the line break and all blanks after it away. -/
def longBasic : Nat → List Char → Read String
  | 0, _, _ => none
  | fuel + 1, acc, cs =>
    match cs with
    | '"' :: '"' :: '"' :: '"' :: '"' :: rest => some (String.ofList ('"' :: '"' :: acc).reverse, rest)
    | '"' :: '"' :: '"' :: '"' :: rest => some (String.ofList ('"' :: acc).reverse, rest)
    | '"' :: '"' :: '"' :: rest => some (String.ofList acc.reverse, rest)
    | '\\' :: rest =>
      match lineBreak? (skipBlanks rest) with
      | some rest => longBasic fuel acc (skipBlankLines rest.length rest)
      | none => (escape rest).bind fun (c, rest) => longBasic fuel (c :: acc) rest
    | c :: rest =>
      match lineBreak? (c :: rest) with
      | some rest => longBasic fuel ('\n' :: acc) rest
      | none => if isControl c then none else longBasic fuel (c :: acc) rest
    | [] => none

def literal (acc : List Char) : Read String
  | '\x27' :: rest => some (String.ofList acc.reverse, rest)
  | c :: rest => if isControl c then none else literal (c :: acc) rest
  | [] => none

def longLiteral : Nat → List Char → Read String
  | 0, _, _ => none
  | fuel + 1, acc, cs =>
    match cs with
    | '\x27' :: '\x27' :: '\x27' :: '\x27' :: '\x27' :: rest =>
      some (String.ofList ('\x27' :: '\x27' :: acc).reverse, rest)
    | '\x27' :: '\x27' :: '\x27' :: '\x27' :: rest => some (String.ofList ('\x27' :: acc).reverse, rest)
    | '\x27' :: '\x27' :: '\x27' :: rest => some (String.ofList acc.reverse, rest)
    | c :: rest =>
      match lineBreak? (c :: rest) with
      | some rest => longLiteral fuel ('\n' :: acc) rest
      | none => if isControl c then none else longLiteral fuel (c :: acc) rest
    | [] => none

/-- A line break right after the opening quotes does not count. -/
def dropFirstBreak (cs : List Char) : List Char := (lineBreak? cs).getD cs

/-- A string of one line. -/
def shortString? : List Char → Option (Option (String × List Char))
  | '"' :: rest => some (basic (rest.length + 1) [] rest)
  | '\x27' :: rest => some (literal [] rest)
  | _ => none

/-- A string of any kind, if the text begins with a quote. -/
def string? : List Char → Option (Option (String × List Char))
  | '"' :: '"' :: '"' :: rest => some (longBasic (rest.length + 1) [] (dropFirstBreak rest))
  | '\x27' :: '\x27' :: '\x27' :: rest => some (longLiteral (rest.length + 1) [] (dropFirstBreak rest))
  | cs => shortString? cs

end ScreenFlow.Toml
