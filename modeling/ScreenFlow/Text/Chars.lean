import ScreenFlow.Bits

/-!
# Character-level text operations

Everything here works on `List Char`, so that laws are inductions on lists; the `String` forms wrap
them. White space is the Unicode property `White_Space`; letter case is folded for ASCII only.
-/

namespace ScreenFlow.Text

/-- The closed ranges of code points with the property `White_Space`. -/
def blankRanges : List (Nat × Nat) :=
  [(0x09, 0x0D), (0x20, 0x20), (0x85, 0x85), (0xA0, 0xA0), (0x1680, 0x1680), (0x2000, 0x200A),
   (0x2028, 0x2029), (0x202F, 0x202F), (0x205F, 0x205F), (0x3000, 0x3000)]

def isBlank (c : Char) : Bool := blankRanges.any fun r => r.1 ≤ c.toNat && c.toNat ≤ r.2

def trimStartChars (cs : List Char) : List Char := cs.dropWhile isBlank

def trimEndChars (cs : List Char) : List Char := (cs.reverse.dropWhile isBlank).reverse

def trimChars (cs : List Char) : List Char := trimEndChars (trimStartChars cs)

/-- The text without white space at either end. -/
def trim (s : String) : String := String.ofList (trimChars s.toList)

def trimStart (s : String) : String := String.ofList (trimStartChars s.toList)

/-- Removes `c` from both ends, as often as it stands there. -/
def trimMatches (c : Char) (cs : List Char) : List Char :=
  ((cs.dropWhile (· == c)).reverse.dropWhile (· == c)).reverse

def lowerAscii (c : Char) : Char := if 'A' ≤ c ∧ c ≤ 'Z' then Char.ofNat (c.toNat + 32) else c

def upperAscii (c : Char) : Char := if 'a' ≤ c ∧ c ≤ 'z' then Char.ofNat (c.toNat - 32) else c

/-- Lower case for the ASCII letters; every other character stays. -/
def lower (s : String) : String := String.ofList (s.toList.map lowerAscii)

/-- Equality that ignores the case of ASCII letters. -/
def sameName (a b : String) : Bool := lower a == lower b

/-- Takes `p` off the front of the list, if it stands there. -/
def dropPrefix? : List Char → List Char → Option (List Char)
  | [], s => some s
  | _ :: _, [] => none
  | p :: ps, c :: cs => if p = c then dropPrefix? ps cs else none

def startsWith (s p : String) : Bool := (dropPrefix? p.toList s.toList).isSome

def endsWith (s p : String) : Bool := (dropPrefix? p.toList.reverse s.toList.reverse).isSome

/-- Splits at the first occurrence of `pat`: the text before it and the text after it. -/
def splitAt? (pat : List Char) : List Char → Option (List Char × List Char)
  | [] => if pat.isEmpty then some ([], []) else none
  | c :: cs =>
    match dropPrefix? pat (c :: cs) with
    | some rest => some ([], rest)
    | none => (splitAt? pat cs).map fun (before, after) => (c :: before, after)

def containsChars (pat s : List Char) : Bool := (splitAt? pat s).isSome

/-- Whether `pat` occurs in `s`. -/
def contains (s pat : String) : Bool := containsChars pat.toList s.toList

/-- Cuts the text at every `sep`; there is always at least one piece. -/
def splitChars (sep : Char) : List Char → List (List Char)
  | [] => [[]]
  | c :: cs =>
    if c = sep then [] :: splitChars sep cs
    else
      match splitChars sep cs with
      | [] => [[c]]
      | piece :: pieces => (c :: piece) :: pieces

/-- Cuts at the first `sep`. -/
def splitOnce (sep : Char) (s : String) : Option (String × String) :=
  (splitAt? [sep] s.toList).map fun (a, b) => (String.ofList a, String.ofList b)

/-- The value of a nonempty run of decimal digits. -/
def digits? (cs : List Char) : Option Nat :=
  if cs.isEmpty || !cs.all Char.isDigit then none
  else some (cs.foldl (fun n c => 10 * n + (c.toNat - '0'.toNat)) 0)

/-- Decimal digits with at most one leading plus sign, below `2 ^ bits`. -/
def natBelow? (bits : Nat) (cs : List Char) : Option Nat :=
  let body := match cs with
    | '+' :: rest => rest
    | _ => cs
  (digits? body).filter (· < Bits.values bits)

def joinLines (sep : String) : List String → String
  | [] => ""
  | [s] => s
  | s :: rest => s ++ sep ++ joinLines sep rest

end ScreenFlow.Text
