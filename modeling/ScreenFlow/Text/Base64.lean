import ScreenFlow.Text.Utf8

/-!
# Base 64

The standard alphabet with padding, and the URL alphabet without. A reader refuses foreign
characters, missing or surplus padding, and bits left over that are not zero.
-/

namespace ScreenFlow.Base64

def standardAlphabet : List Char :=
  "ABCDEFGHIJKLMNOPQRSTUVWXYZabcdefghijklmnopqrstuvwxyz0123456789+/".toList

def urlAlphabet : List Char :=
  "ABCDEFGHIJKLMNOPQRSTUVWXYZabcdefghijklmnopqrstuvwxyz0123456789-_".toList

def digit (n : Nat) : Char := standardAlphabet.getD n '='

/-- The written form: groups of four characters, the last one padded with `=`. -/
def encodeChars : Bytes → List Char
  | [] => []
  | [a] =>
    let n := a.toNat
    [digit (n / 4), digit (n % 4 * 16), '=', '=']
  | [a, b] =>
    let n := a.toNat * 256 + b.toNat
    [digit (n / 1024), digit (n / 16 % 64), digit (n % 16 * 4), '=']
  | a :: b :: c :: rest =>
    let n := a.toNat * 65536 + b.toNat * 256 + c.toNat
    digit (n / 262144) :: digit (n / 4096 % 64) :: digit (n / 64 % 64) :: digit (n % 64) ::
      encodeChars rest

def encode (bs : Bytes) : String := String.ofList (encodeChars bs)

/-- Why a text is no base 64. -/
inductive Problem where
  /-- The byte at this offset is outside the alphabet. -/
  | invalidByte (offset byte : Nat)
  /-- The number of characters before the padding cannot occur. -/
  | invalidLength (length : Nat)
  /-- The last character carries bits that no byte uses. -/
  | invalidLastSymbol (offset byte : Nat)
  | invalidPadding
deriving DecidableEq, Repr

def Problem.message : Problem → String
  | .invalidByte offset byte => s!"Invalid symbol {byte}, offset {offset}."
  | .invalidLength length => s!"Invalid input length: {length}"
  | .invalidLastSymbol offset byte => s!"Invalid last symbol {byte}, offset {offset}."
  | .invalidPadding => "Invalid padding"

def digitValue? (alphabet : List Char) (b : UInt8) : Option Nat :=
  alphabet.findIdx? fun c => c.toNat == b.toNat

/-- Whole groups of four digits, three bytes each; what is left has fewer than four digits. -/
def decodeGroups : List Nat → Bytes
  | a :: b :: c :: d :: rest =>
    let n := a * 262144 + b * 4096 + c * 64 + d
    (n / 65536).toUInt8 :: (n / 256 % 256).toUInt8 :: (n % 256).toUInt8 :: decodeGroups rest
  | [a, b, c] =>
    let n := a * 4096 + b * 64 + c
    [(n / 1024).toUInt8, (n / 4 % 256).toUInt8]
  | [a, b] => [((a * 64 + b) / 16).toUInt8]
  | _ => []

/-- The bits of the last group that no byte uses. -/
def leftoverBits : List Nat → Nat
  | [_, b] => b % 16
  | [_, _, c] => c % 4
  | _ => 0

/-- The digits of the last group and the number of pads after them. A pad may stand from the third
place on and only at the end. -/
def lastGroup (alphabet : List Char) (start : Nat) :
    Nat → List Nat → Option Nat → Bytes → Except Problem (List Nat × Nat)
  | index, digits, pad, [] => .ok (digits, match pad with
    | some first => index - first
    | none => 0)
  | index, digits, pad, b :: bs =>
    if b == 61 then
      if index < 2 then .error (.invalidByte (start + index) 61)
      else lastGroup alphabet start (index + 1) digits (pad.or (some index)) bs
    else
      match pad with
      | some first => .error (.invalidByte (start + first) 61)
      | none =>
        match digitValue? alphabet b with
        | none => .error (.invalidByte (start + index) b.toNat)
        | some d => lastGroup alphabet start (index + 1) (digits ++ [d]) pad bs

/-- The digits of the groups before the last one, where no pad may stand. -/
def wholeGroups (alphabet : List Char) : Nat → Bytes → Except Problem (List Nat)
  | _, [] => .ok []
  | index, b :: bs =>
    match digitValue? alphabet b with
    | none => .error (.invalidByte index b.toNat)
    | some d => (wholeGroups alphabet (index + 1) bs).map (d :: ·)

/-- Reads a text over the alphabet; `padded` says that the last group is filled up with `=`. -/
def decodeWith (alphabet : List Char) (padded : Bool) (text : Bytes) : Except Problem Bytes := do
  let surplus := text.length % 4
  let last := text.getLastD 61
  -- a stray byte after whole groups is named first, such as a line feed at the end
  if surplus = 1 && last != 61 && (digitValue? alphabet last).isNone then
    throw (.invalidByte (text.length - 1) last.toNat)
  let start := text.length - surplus - (if surplus = 0 then 4 else 0)
  let whole ← wholeGroups alphabet 0 (text.take start)
  let (digits, pads) ← lastGroup alphabet start 0 [] none (text.drop start)
  if !text.isEmpty && digits.length < 2 then throw (.invalidLength (start + digits.length))
  if padded && (pads + digits.length) % 4 != 0 then throw .invalidPadding
  if !padded && pads != 0 then throw .invalidPadding
  if leftoverBits digits != 0 then
    throw (.invalidLastSymbol (start + digits.length - 1)
      ((text.drop start).getD (digits.length - 1) 0).toNat)
  return decodeGroups (whole ++ digits)

/-- Reads the padded standard form. -/
def decode (s : String) : Except Problem Bytes := decodeWith standardAlphabet true (Utf8.encode s)

/-- Reads the URL form, which has no padding. -/
def decodeUrl (s : String) : Except Problem Bytes := decodeWith urlAlphabet false (Utf8.encode s)

end ScreenFlow.Base64
