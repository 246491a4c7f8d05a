import ScreenFlow.Json.Basic
import ScreenFlow.Text.Chars

/-!
# Writing JSON

The compact form: no blanks, fields in the order they stand in, and an escape only for quotes,
backslashes and control characters. The indented form: one item or field a line, two blanks for each
level; an empty array or object stays on its line.
-/

namespace ScreenFlow.Json

def hexDigit (n : Nat) : Char := "0123456789abcdef".toList.getD n '0'

/-- The escape of a character that may not stand for itself. -/
def escape? (c : Char) : Option (List Char) :=
  match c with
  | '"' => some ['\\', '"']
  | '\\' => some ['\\', '\\']
  | '\n' => some ['\\', 'n']
  | '\r' => some ['\\', 'r']
  | '\t' => some ['\\', 't']
  | '\x08' => some ['\\', 'b']
  | '\x0c' => some ['\\', 'f']
  | _ =>
    if c.toNat < 0x20 then
      some ['\\', 'u', '0', '0', hexDigit (c.toNat / 16), hexDigit (c.toNat % 16)]
    else none

def quoteChars : List Char → List Char
  | [] => ['"']
  | c :: cs =>
    match escape? c with
    | some text => text ++ quoteChars cs
    | none => c :: quoteChars cs

/-- A text between quotes. -/
def quote (s : String) : String := String.ofList ('"' :: quoteChars s.toList)

mutual

/-- The compact text. -/
def render : Json → String
  | .null => "null"
  | .bool true => "true"
  | .bool false => "false"
  | .num n => n.render
  | .str s => quote s
  | .arr [] => "[]"
  | .arr (v :: rest) => "[" ++ render v ++ renderItems rest
  | .obj [] => "\x7b\x7d"
  | .obj ((k, v) :: rest) => "\x7b" ++ quote k ++ ":" ++ render v ++ renderFields rest

def renderItems : List Json → String
  | [] => "]"
  | v :: rest => "," ++ render v ++ renderItems rest

def renderFields : List (String × Json) → String
  | [] => "\x7d"
  | (k, v) :: rest => "," ++ quote k ++ ":" ++ render v ++ renderFields rest

end

/-- The text of a value inside a longer text: a string as it is, null as nothing, and anything else
in compact form. -/
def inlineText : Json → String
  | .null => ""
  | .str s => s
  | v => v.render

/-! ### Indented -/

def indent (level : Nat) : String := String.ofList (List.replicate (2 * level) ' ')

/-- The lines between two brackets that stand at this level. -/
def block (level : Nat) (opening closing : String) (lines : List String) : String :=
  if lines.isEmpty then opening ++ closing
  else opening ++ "\n" ++ Text.joinLines ",\n" (lines.map (indent (level + 1) ++ ·)) ++ "\n" ++
    indent level ++ closing

mutual

def prettyAt (level : Nat) : Json → String
  | .arr items => block level "[" "]" (prettyItems (level + 1) items)
  | .obj fields => block level "\x7b" "\x7d" (prettyFields (level + 1) fields)
  | v => v.render

def prettyItems (level : Nat) : List Json → List String
  | [] => []
  | v :: rest => prettyAt level v :: prettyItems level rest

def prettyFields (level : Nat) : List (String × Json) → List String
  | [] => []
  | (k, v) :: rest => (quote k ++ ": " ++ prettyAt level v) :: prettyFields level rest

end

def pretty (v : Json) : String := prettyAt 0 v

end ScreenFlow.Json
