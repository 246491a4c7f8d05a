import ScreenFlow.Text.Utf8

/-!
# Percent encoding and form fields

`%XY` stands for one byte. A form is a list of name and value pairs joined by `&`, in which a blank
is written `+`.
-/

namespace ScreenFlow.Percent

def hexDigit (n : Nat) : Char := "0123456789ABCDEF".toList.getD n '0'

def hexValue? (b : UInt8) : Option Nat :=
  let n := b.toNat
  if 48 ≤ n ∧ n ≤ 57 then some (n - 48)
  else if 65 ≤ n ∧ n ≤ 70 then some (n - 55)
  else if 97 ≤ n ∧ n ≤ 102 then some (n - 87)
  else none

def escape (b : UInt8) : List Char := ['%', hexDigit (b.toNat / 16), hexDigit (b.toNat % 16)]

def isAsciiAlnum (b : UInt8) : Bool :=
  let n := b.toNat
  (48 ≤ n && n ≤ 57) || (65 ≤ n && n ≤ 90) || (97 ≤ n && n ≤ 122)

/-- Writes every byte that is not an ASCII letter or digit as an escape. -/
def encodeChars (bs : Bytes) : List Char :=
  bs.flatMap fun b => if isAsciiAlnum b then [Char.ofNat b.toNat] else escape b

def encode (s : String) : String := String.ofList (encodeChars (Utf8.encode s))

/-- Replaces each well-formed escape by its byte; anything else stays. -/
def decodeBytes : Bytes → Bytes
  | 37 :: a :: b :: rest =>
    match hexValue? a, hexValue? b with
    | some x, some y => (x * 16 + y).toUInt8 :: decodeBytes rest
    | _, _ => 37 :: decodeBytes (a :: b :: rest)
  | b :: rest => b :: decodeBytes rest
  | [] => []

def decodeLossy (s : String) : String := Utf8.decodeLossy (decodeBytes (Utf8.encode s))

def decode (s : String) : Except Utf8.Problem String := Utf8.decode (decodeBytes (Utf8.encode s))

end ScreenFlow.Percent

namespace ScreenFlow.FormFields

/-- Bytes that stand for themselves in a form: letters, digits and `*-._`. -/
def isPlain (b : UInt8) : Bool :=
  Percent.isAsciiAlnum b || b == 42 || b == 45 || b == 46 || b == 95

def encodeText (s : String) : List Char :=
  (Utf8.encode s).flatMap fun b =>
    if b == 32 then ['+'] else if isPlain b then [Char.ofNat b.toNat] else Percent.escape b

def encodePair (p : String × String) : List Char := encodeText p.1 ++ '=' :: encodeText p.2

def encodeChars : List (String × String) → List Char
  | [] => []
  | [p] => encodePair p
  | p :: rest => encodePair p ++ '&' :: encodeChars rest

/-- The pairs as one text. -/
def encode (pairs : List (String × String)) : String := String.ofList (encodeChars pairs)

def decodeText (bs : Bytes) : String :=
  Utf8.decodeLossy (Percent.decodeBytes (bs.map fun b => if b == 43 then 32 else b))

def splitBytes (sep : UInt8) : Bytes → List Bytes
  | [] => [[]]
  | b :: bs =>
    if b == sep then [] :: splitBytes sep bs
    else
      match splitBytes sep bs with
      | [] => [[b]]
      | piece :: pieces => (b :: piece) :: pieces

/-- The pairs of a form text. Empty pieces are skipped, and a piece without `=` has an empty value. -/
def decode (s : String) : List (String × String) :=
  ((splitBytes 38 (Utf8.encode s)).filter (!·.isEmpty)).map fun piece =>
    let name := piece.takeWhile (· != 61)
    (decodeText name, decodeText (piece.drop (name.length + 1)))

end ScreenFlow.FormFields
