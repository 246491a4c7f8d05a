import ScreenFlow.Bits
import ScreenFlow.Text.Chars
import ScreenFlow.Toml.Text

/-!
# Numbers and dates of TOML

Integers fit 64 bits with a sign. A date is read as an object with one key that is reserved for it.
-/

namespace ScreenFlow.Toml

/-! ### Numbers -/

/-- Digits with single underscores between them. -/
def groupedDigits? (isDigit : Char → Bool) (cs : List Char) : Option (List Char) :=
  let groups := Text.splitChars '_' cs
  if groups.all fun g => !g.isEmpty && g.all isDigit then some groups.flatten else none

def digitsValue (base : Nat) (cs : List Char) : Option Nat :=
  cs.foldlM (fun n c => (Json.Reader.hexValue? c).map fun d => base * n + d) 0

def int64? (i : Int) : Option Json :=
  if Bits.inInt64 i then some (.int i) else none

def based? (base : Nat) (isDigit : Char → Bool) (cs : List Char) : Option Json := do
  int64? (← digitsValue base (← groupedDigits? isDigit cs))

def isHexDigit (c : Char) : Bool := (Json.Reader.hexValue? c).isSome

/-- Digits that do not begin with a superfluous zero. -/
def wholeDigits? (cs : List Char) : Option (List Char) :=
  (groupedDigits? Char.isDigit cs).filter fun ds => ds.length == 1 || ds.head? != some '0'

def splitSign : List Char → Bool × List Char
  | '-' :: rest => (true, rest)
  | '+' :: rest => (false, rest)
  | cs => (false, cs)

def integer? (token : List Char) : Option Json :=
  match token with
  | '0' :: 'x' :: ds => based? 16 isHexDigit ds
  | '0' :: 'o' :: ds => based? 8 (fun c => '0' ≤ c && c ≤ '7') ds
  | '0' :: 'b' :: ds => based? 2 (fun c => c == '0' || c == '1') ds
  | _ => do
    let (negative, ds) := splitSign token
    let n ← digitsValue 10 (← wholeDigits? ds)
    int64? (if negative then -(n : Int) else n)

/-- The number `digits * 10 ^ exponent`; what is too large counts as infinite. -/
def decimal (digits : Nat) (exponent : Int) : Float :=
  let places : Int := (Nat.toDigits 10 digits).length + exponent
  if digits = 0 || places < -400 then 0.0
  else if 400 < places then 1.0 / 0.0
  else Float.ofScientific digits (exponent < 0) exponent.natAbs

def floatJson (f : Float) : Json := .num (.double f.toBits)

/-- The exponent after its letter. -/
def exponent? (cs : List Char) : Option Int := do
  let (negative, ds) := splitSign cs
  let n ← digitsValue 10 (← groupedDigits? Char.isDigit ds)
  return if negative then -(n : Int) else n

/-- A number with a fraction, an exponent or both; only a negative one may be beyond all doubles. -/
def float? (token : List Char) : Option Json := do
  let (negative, body) := splitSign token
  if body == ['i', 'n', 'f'] then return floatJson (if negative then -1.0 / 0.0 else 1.0 / 0.0)
  if body == ['n', 'a', 'n'] then return floatJson (0.0 / 0.0)
  let isMark (c : Char) : Bool := c == 'e' || c == 'E'
  let mantissa := body.takeWhile (!isMark ·)
  let scale := body.drop mantissa.length
  let whole := mantissa.takeWhile (· != '.')
  let frac := mantissa.drop whole.length
  guard (!(scale.isEmpty && frac.isEmpty))
  let exponent ← if scale.isEmpty then some 0 else exponent? (scale.drop 1)
  let wholeDigits ← wholeDigits? whole
  let fracDigits ← if frac.isEmpty then some [] else groupedDigits? Char.isDigit (frac.drop 1)
  let digits ← digitsValue 10 (wholeDigits ++ fracDigits)
  let f := decimal digits (exponent - fracDigits.length)
  guard (negative || f.isFinite)
  return floatJson (if negative then -f else f)

/-! ### Dates -/

def twoDigits? (limit : Nat) : Read Nat
  | a :: b :: rest => do
    let n ← Text.digits? [a, b]
    guard (n ≤ limit)
    return (n, rest)
  | _ => none

def daysInMonth (year month : Nat) : Nat :=
  if month == 2 then if year % 4 == 0 && (year % 100 != 0 || year % 400 == 0) then 29 else 28
  else if [4, 6, 9, 11].contains month then 30
  else 31

/-- A calendar date in its written form. -/
def date : Read String
  | a :: b :: c :: d :: '-' :: rest => do
    let year ← Text.digits? [a, b, c, d]
    let (month, rest) ← twoDigits? 12 rest
    guard (1 ≤ month)
    match rest with
    | '-' :: e :: f :: rest => do
      let (day, _) ← twoDigits? (daysInMonth year month) [e, f]
      guard (1 ≤ day)
      let shown := if month < 10 then s!"0{month}" else toString month
      return (String.ofList [a, b, c, d, '-'] ++ shown ++ String.ofList ['-', e, f], rest)
    | _ => none
  | _ => none

/-- The fraction of a second, cut after nine digits and without zeros at its end. -/
def fraction (ds : List Char) : String :=
  let kept := ((ds.take 9).reverse.dropWhile (· == '0')).reverse
  if kept.isEmpty then "" else String.ofList ('.' :: kept)

/-- A time of day in its written form. -/
def timeOfDay : Read String
  | a :: b :: ':' :: c :: d :: ':' :: e :: f :: rest => do
    let _ ← twoDigits? 23 [a, b]
    let _ ← twoDigits? 59 [c, d]
    let _ ← twoDigits? 60 [e, f]
    let clock := String.ofList [a, b, ':', c, d, ':', e, f]
    match rest with
    | '.' :: tail =>
      let ds := tail.takeWhile Char.isDigit
      if ds.isEmpty then none else some (clock ++ fraction ds, tail.drop ds.length)
    | _ => some (clock, rest)
  | _ => none

/-- The distance from universal time; no distance backwards is none. -/
def offset : Read String
  | 'Z' :: rest | 'z' :: rest => some ("Z", rest)
  | sign :: a :: b :: ':' :: c :: d :: rest => do
    guard (sign == '+' || sign == '-')
    let (hours, _) ← twoDigits? 23 [a, b]
    let (minutes, _) ← twoDigits? 59 [c, d]
    let shown := if hours == 0 && minutes == 0 then '+' else sign
    return (String.ofList [shown, a, b, ':', c, d], rest)
  | _ => none

/-- A time of day with its offset, as it follows a date. -/
def timeAndOffset (cs : List Char) : Option (String × List Char) := do
  let (time, rest) ← timeOfDay cs
  match offset rest with
  | some (o, rest) => return (time ++ o, rest)
  | none => return (time, rest)

/-- A date, a time, or both. -/
def dateTime (cs : List Char) : Option (String × List Char) :=
  match date cs with
  | none => timeOfDay cs
  | some (d, c :: rest) =>
    if c == 'T' || c == 't' || c == ' ' then
      match timeAndOffset rest with
      | some (t, rest) => some (d ++ "T" ++ t, rest)
      | none => some (d, c :: rest)
    else some (d, c :: rest)
  | some (d, []) => some (d, [])

def dateJson (text : String) : Json := .obj [("$__toml_private_datetime", .str text)]

/-! ### Scalars -/

def isTokenChar (c : Char) : Bool := c.isAlphanum || "_+-.".toList.contains c

/-- A value that is no string and holds no other values. -/
def scalar (cs : List Char) : Option (Json × List Char) :=
  match dateTime cs with
  | some (text, rest) => some (dateJson text, rest)
  | none =>
    let token := cs.takeWhile isTokenChar
    let rest := cs.drop token.length
    if token == "true".toList then some (.bool true, rest)
    else if token == "false".toList then some (.bool false, rest)
    else ((integer? token).or (float? token)).map fun v => (v, rest)

end ScreenFlow.Toml
