import ScreenFlow.Json.Source
import ScreenFlow.Text.Utf8

/-!
# Reading JSON

A text is read as a `Source`; `Json.ofText` takes its value, the last of a repeated key winning. Not
everything that is well formed can be read: a text with half a surrogate pair or with malformed bytes, a
number beyond the doubles, an object with such a key, and what lies 128 or more brackets deep.
-/

namespace ScreenFlow.Json

/-- Why a text cannot be read. -/
inductive ReadProblem where
  /-- It is not JSON. -/
  | malformed
  /-- It is JSON, but not of the wanted shape. -/
  | unexpectedShape
deriving DecidableEq, Repr

/-- A problem and the place to which the text was read. -/
structure ReadError where
  problem : ReadProblem
  line : Nat
  column : Nat
deriving DecidableEq, Repr

def ReadError.message (e : ReadError) : String :=
  let what := match e.problem with
    | .malformed => "malformed JSON"
    | .unexpectedShape => "unexpected value"
  s!"{what} at line {e.line} column {e.column}"

namespace Reader

/-- A text to be read; `none` stands for bytes that are no character. -/
abbrev Input := List (Option Char)

/-- A result with the text after it, or the text at which reading failed. -/
abbrev Step (α : Type) := Except Input (α × Input)

def isSpace (c : Option Char) : Bool :=
  c == some ' ' || c == some '\n' || c == some '\t' || c == some '\r'

def skip (cs : Input) : Input := cs.dropWhile isSpace

/-! ### Strings -/

def hexValue? (c : Char) : Option Nat :=
  if '0' ≤ c ∧ c ≤ '9' then some (c.toNat - 48)
  else if 'a' ≤ c ∧ c ≤ 'f' then some (c.toNat - 87)
  else if 'A' ≤ c ∧ c ≤ 'F' then some (c.toNat - 55)
  else none

def hex4? (a b c d : Char) : Option Nat := do
  let a ← hexValue? a
  let b ← hexValue? b
  let c ← hexValue? c
  let d ← hexValue? d
  return a * 4096 + b * 256 + c * 16 + d

def unescape? : Char → Option Char
  | '"' => some '"'
  | '\\' => some '\\'
  | '/' => some '/'
  | 'b' => some '\x08'
  | 'f' => some '\x0c'
  | 'n' => some '\n'
  | 'r' => some '\r'
  | 't' => some '\t'
  | _ => none

/-- Reads up to the closing quote; `sound` says that no malformed bytes have been met. A character
outside the basic plane may be written as a pair of surrogates; one that lacks its partner is refused,
together with the character that stands in the partner's place. -/
def string (sound : Bool) (acc : List Char) : Input → Step String
  | some '"' :: rest => if sound then .ok (String.ofList acc.reverse, rest) else .error rest
  | some '\\' :: some 'u' :: some a :: some b :: some c :: some d :: rest =>
    match hex4? a b c d with
    | none => .error rest
    | some n =>
      if 0xDC00 ≤ n ∧ n ≤ 0xDFFF then .error rest
      else if 0xD800 ≤ n ∧ n ≤ 0xDBFF then
        match rest with
        | some '\\' :: some 'u' :: some e :: some f :: some g :: some h :: rest =>
          match hex4? e f g h with
          | none => .error rest
          | some m =>
            if 0xDC00 ≤ m ∧ m ≤ 0xDFFF then
              string sound (Char.ofNat (0x10000 + (n - 0xD800) * 0x400 + (m - 0xDC00)) :: acc) rest
            else .error rest
        | some '\\' :: _ :: rest => .error rest
        | _ :: rest => .error rest
        | [] => .error []
      else string sound (Char.ofNat n :: acc) rest
  | some '\\' :: some e :: rest =>
    match unescape? e with
    | some c => string sound (c :: acc) rest
    | none => .error rest
  | some c :: rest =>
    if c.toNat < 0x20 || c == '\\' then .error rest else string sound (c :: acc) rest
  | none :: rest => string false acc rest
  | [] => .error []

/-- Passes a string that is well formed, whether or not it can be read. -/
def passString : Input → Except Input Input
  | some '"' :: rest => .ok rest
  | some '\\' :: some 'u' :: some a :: some b :: some c :: some d :: rest =>
    if (hex4? a b c d).isSome then passString rest else .error rest
  | some '\\' :: some e :: rest => if (unescape? e).isSome then passString rest else .error rest
  | some c :: rest => if c.toNat < 0x20 || c == '\\' then .error rest else passString rest
  | none :: rest => passString rest
  | [] => .error []

/-- The text of a string after its opening quote, or `none` if it is well formed only. -/
def stringOrPass (cs : Input) : Step (Option String × Bool) :=
  match string true [] cs with
  | .ok (s, rest) => .ok ((some s, true), rest)
  | .error stopped => (passString cs).map fun rest => ((none, stopped.length == rest.length), rest)

/-! ### Numbers -/

/-- The parts of a number as it is written. -/
structure Numeral where
  negative : Bool
  whole : List Char
  fraction : List Char := []
  /-- The sign and the digits of the exponent. -/
  exponent : Option (Bool × List Char) := none

def isDigit (c : Option Char) : Bool := c.any Char.isDigit

def digits (cs : Input) : List Char × Input :=
  ((cs.takeWhile isDigit).filterMap id, cs.dropWhile isDigit)

/-- Digits without a superfluous zero, then a fraction and an exponent if they are there. -/
def numeral (cs : Input) : Except Input (Numeral × Input) :=
  let (negative, rest) := match cs with
    | some '-' :: rest => (true, rest)
    | _ => (false, cs)
  let (whole, rest) := digits rest
  if whole.isEmpty || (whole.head? == some '0' && whole.length > 1) then .error rest
  else do
    let (fraction, rest) ← match rest with
      | some '.' :: rest =>
        let (fraction, rest) := digits rest
        if fraction.isEmpty then .error rest else .ok (fraction, rest)
      | rest => .ok ([], rest)
    let (exponent, rest) ← exponentPart rest
    return ({ negative, whole, fraction, exponent }, rest)
where
  exponentPart : Input → Step (Option (Bool × List Char))
    | some e :: rest =>
      if e == 'e' || e == 'E' then
        let (minus, rest) := match rest with
          | some '+' :: rest => (false, rest)
          | some '-' :: rest => (true, rest)
          | rest => (false, rest)
        let (ds, rest) := digits rest
        if ds.isEmpty then .error rest else .ok (some (minus, ds), rest)
      else .ok (none, some e :: rest)
    | rest => .ok (none, rest)

namespace Numeral

def digitsValue (ds : List Char) : Nat :=
  ds.foldl (fun n c => 10 * n + (c.toNat - '0'.toNat)) 0

/-- The leading digits of a significand that fit 64 bits, and how many more there are. -/
def significand (acc : Nat) : List Char → Nat × Nat
  | [] => (acc, 0)
  | c :: cs =>
    let next := 10 * acc + (c.toNat - '0'.toNat)
    if next < Bits.values 64 then significand next cs else (acc, (c :: cs).length)

/-- The exponent, which has to fit 32 bits with a sign. -/
def isLongExponent (ds : List Char) : Bool := Bits.values 31 ≤ digitsValue ds

def zero (negative : Bool) : Number := .double (if negative then 0x8000000000000000 else 0)

/-- The number of a numeral, unless it is too large. Digits of the significand beyond 64 bits only scale
it; after them a fraction can only add leading digits that fit again. -/
def value? (n : Numeral) : Option Number :=
  let (whole, dropped) := significand 0 n.whole
  let (digits, left) := significand whole n.fraction
  let point : Int := (dropped : Int) - ((n.fraction.length - left : Nat) : Int)
  match n.exponent with
  | none =>
    if n.fraction.isEmpty && dropped == 0 then
      if !n.negative then some (.int digits)
      else if digits == 0 then some (zero true)
      else if digits ≤ Bits.values 63 then some (.int (-(digits : Int)))
      else Number.finite? (-(Float.ofNat digits))
    else Number.scaled? n.negative digits point
  | some (minus, ds) =>
    if isLongExponent ds then if digits != 0 && !minus then none else some (zero n.negative)
    else
      let e : Int := digitsValue ds
      Number.scaled? n.negative digits (point + if minus then -e else e)

/-- Whether a reader that refuses the numeral has read all of it: it stops at the digit that makes the
exponent too long. -/
def isPassed (n : Numeral) : Bool := n.exponent.all fun e => !isLongExponent e.2.dropLast

end Numeral

/-! ### Values -/

/-- A value without brackets at the front of the text. -/
def scalar : Input → Step Source
  | some 'n' :: some 'u' :: some 'l' :: some 'l' :: rest => .ok (.null, rest)
  | some 't' :: some 'r' :: some 'u' :: some 'e' :: rest => .ok (.bool true, rest)
  | some 'f' :: some 'a' :: some 'l' :: some 's' :: some 'e' :: rest => .ok (.bool false, rest)
  | some '"' :: rest => (stringOrPass rest).map fun ((s, passed), rest) =>
    (match s with
    | some s => .str s
    | none => .unreadable passed, rest)
  | cs => (numeral cs).map fun (n, rest) =>
    (match n.value? with
    | some v => .num v
    | none => .unreadable n.isPassed, rest)

/-- The key of a field and the colon after it. -/
def fieldName (cs : Input) : Step (Option String) :=
  match skip cs with
  | some '"' :: rest =>
    match stringOrPass rest with
    | .error stopped => .error stopped
    | .ok ((key, _), rest) =>
      match skip rest with
      | some ':' :: rest => .ok (key, rest)
      | rest => .error rest
  | rest => .error rest

inductive Bracket where
  | square
  | curly
deriving DecidableEq

/-- Passes a value that nobody can read. `opened` are the brackets around the place, the innermost
first; `after` says that the place is behind a value. The first argument bounds the number of steps. -/
def pass : Nat → Bool → List Bracket → Input → Except Input Input
  | 0, _, _, cs => .error cs
  | _ + 1, true, [], cs => .ok cs
  | fuel + 1, true, b :: opened, cs =>
    match b, skip cs with
    | .square, some ']' :: rest => pass fuel true opened rest
    | .curly, some '}' :: rest => pass fuel true opened rest
    | .square, some ',' :: rest => pass fuel false (.square :: opened) rest
    | .curly, some ',' :: rest =>
      match fieldName rest with
      | .ok (_, rest) => pass fuel false (.curly :: opened) rest
      | .error rest => .error rest
    | _, rest => .error rest
  | fuel + 1, false, opened, cs =>
    match skip cs with
    | some '[' :: rest =>
      match skip rest with
      | some ']' :: rest => pass fuel true opened rest
      | rest => pass fuel false (.square :: opened) rest
    | some '{' :: rest =>
      match skip rest with
      | some '}' :: rest => pass fuel true opened rest
      | rest =>
        match fieldName rest with
        | .ok (_, rest) => pass fuel false (.curly :: opened) rest
        | .error rest => .error rest
    | rest =>
      match scalar rest with
      | .ok (_, rest) => pass fuel true opened rest
      | .error rest => .error rest

/-- The fields of an object, if every key can be read. -/
def object (fields : List (Option String × Source)) : Source :=
  match fields.mapM fun f => f.1.map (·, f.2) with
  | some fields => .obj .json fields
  | none => .unreadable false

mutual

/-- A value at the front of the text. The first argument bounds the number of steps, the second the
depth of nesting. -/
def value : Nat → Nat → Input → Step Source
  | 0, _, cs => .error cs
  | fuel + 1, depth, cs =>
    match skip cs, depth with
    | some '[' :: rest, 0 => (pass fuel false [] (some '[' :: rest)).map (.unreadable false, ·)
    | some '{' :: rest, 0 => (pass fuel false [] (some '{' :: rest)).map (.unreadable false, ·)
    | some '[' :: rest, depth + 1 =>
      match skip rest with
      | some ']' :: rest => .ok (.arr .json [], rest)
      | rest => (items fuel depth rest []).map fun (vs, rest) => (.arr .json vs, rest)
    | some '{' :: rest, depth + 1 =>
      match skip rest with
      | some '}' :: rest => .ok (.obj .json [], rest)
      | rest => (fields fuel depth rest []).map fun (fs, rest) => (object fs, rest)
    | rest, _ => scalar rest

def items : Nat → Nat → Input → List Source → Step (List Source)
  | 0, _, cs, _ => .error cs
  | fuel + 1, depth, cs, acc =>
    match value fuel depth cs with
    | .error stopped => .error stopped
    | .ok (v, rest) =>
      match skip rest with
      | some ',' :: rest => items fuel depth rest (v :: acc)
      | some ']' :: rest => .ok ((v :: acc).reverse, rest)
      | rest => .error rest

def fields : Nat → Nat → Input → List (Option String × Source) →
    Step (List (Option String × Source))
  | 0, _, cs, _ => .error cs
  | fuel + 1, depth, cs, acc =>
    match fieldName cs with
    | .error stopped => .error stopped
    | .ok (k, rest) =>
      match value fuel depth rest with
      | .error stopped => .error stopped
      | .ok (v, rest) =>
        match skip rest with
        | some ',' :: rest => fields fuel depth rest ((k, v) :: acc)
        | some '}' :: rest => .ok (((k, v) :: acc).reverse, rest)
        | rest => .error rest

end

/-- How deeply a value that can be read may nest. -/
def maxDepth : Nat := 127

/-- Line and column of the place where `rest` begins in `text`. -/
def position (problem : ReadProblem) (text rest : Input) : ReadError :=
  let before := text.take (text.length - rest.length)
  ⟨problem, 1 + before.count (some '\n'), (before.reverse.takeWhile (· != some '\n')).length⟩

/-- Reads a whole text. -/
def document (text : Input) : Except ReadError Source :=
  match value (2 * text.length + 2) maxDepth text with
  | .error rest => .error (position .malformed text rest)
  | .ok (v, rest) =>
    match skip rest with
    | [] => .ok v
    | rest => .error (position .malformed text rest)

/-- Reads a whole text as a value of some type. -/
def decode {α : Type} (d : Source → Option α) (text : Input) : Except ReadError α := do
  match d (← document text) with
  | some a => return a
  | none => throw (position .unexpectedShape text [])

/-- What is decoded is what the decoder makes of the document. -/
theorem decode_eq_ok_iff {α : Type} {d : Source → Option α} {text : Input} {a : α} :
    decode d text = .ok a ↔ ∃ v, document text = .ok v ∧ d v = some a := by
  cases read : document text with
  | error e => simp [decode, read, bind, Except.bind]
  | ok v =>
    simp only [decode, read, bind, Except.bind, Except.ok.injEq, exists_eq_left']
    cases d v with
    | none => simp [throw, throwThe, MonadExceptOf.throw]
    | some b => simp [pure, Except.pure]

end Reader

/-- Reads a whole text as a value of some type. -/
def decodeText {α : Type} (d : Source → Option α) (text : String) : Except ReadError α :=
  Reader.decode d (text.toList.map some)

/-- Reads bytes that hold a whole text in UTF-8 as a value of some type. -/
def decodeBytes {α : Type} (d : Source → Option α) (bytes : Bytes) : Except ReadError α :=
  Reader.decode d (Utf8.decodePieces bytes)

/-- The value of a source: keys sorted, the last of a repeated key winning. -/
def ofSource? (v : Source) : Option Json := v.toJson?.map normalize

/-- Reads a whole text as a value. -/
def ofText (text : String) : Except ReadError Json := decodeText ofSource? text

def ofText? (text : String) : Option Json := (ofText text).toOption

def ofBytes (bytes : Bytes) : Except ReadError Json := decodeBytes ofSource? bytes

def ofBytes? (bytes : Bytes) : Option Json := (ofBytes bytes).toOption

end ScreenFlow.Json
