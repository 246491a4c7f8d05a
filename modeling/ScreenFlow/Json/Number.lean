import ScreenFlow.Bits

/-!
# Numbers of JSON

A number is an exact integer or a binary64 value, kept by its bits so that equality of numbers is
decidable. Doubles are written with the fewest digits that read back to the same value:
positionally for decimal exponents from -5 to 15, otherwise with a signed exponent.
-/

namespace ScreenFlow

namespace Binary64

/-- A finite magnitude `m * 2 ^ q`; below a power of two the lower neighbour is half as far away. -/
structure Magnitude where
  m : Nat
  q : Int
  narrowBelow : Bool

def isNegative (bits : UInt64) : Bool := bits >>> 63 == 1

def isFinite (bits : UInt64) : Bool := (bits >>> 52) &&& 0x7FF != 0x7FF

def magnitude (bits : UInt64) : Magnitude :=
  let e := ((bits >>> 52) &&& 0x7FF).toNat
  let f := (bits &&& 0xFFFFFFFFFFFFF).toNat
  if e == 0 then ⟨f, -1074, false⟩ else ⟨Bits.values 52 + f, (e : Int) - 1075, f == 0 && e > 1⟩

/-- A decimal `digits * 10 ^ exp`. -/
structure Decimal where
  digits : Nat
  exp : Int
deriving Repr, DecidableEq

/-- Compares `a * 10 ^ i` with `n * 2 ^ j`, exactly. -/
def cmpScaled (a : Nat) (i : Int) (n : Nat) (j : Int) : Ordering :=
  compare (a * Nat.pow 10 i.toNat * Nat.pow 2 (-j).toNat)
    (n * Nat.pow 2 j.toNat * Nat.pow 10 (-i).toNat)

/-- Whether the decimal lies among the reals that round to the value; the ends belong to it when
the significand is even. -/
def Magnitude.readsBack (x : Magnitude) (d : Decimal) : Bool :=
  let lo := if x.narrowBelow then 4 * x.m - 1 else 4 * x.m - 2
  let hi := 4 * x.m + 2
  let closed := x.m % 2 == 0
  let cl := cmpScaled d.digits d.exp lo (x.q - 2)
  let ch := cmpScaled d.digits d.exp hi (x.q - 2)
  (cl == .gt || (closed && cl == .eq)) && (ch == .lt || (closed && ch == .eq))

/-- The least `k` with `m * 2 ^ q < 10 ^ k`, searched upwards from a lower estimate. -/
def Magnitude.scale (x : Magnitude) : Int :=
  let log2 : Int := (x.m.log2 : Int) + x.q
  let start := Int.fdiv (log2 * 30103) 100000 - 1
  go 5 start
where
  go : Nat → Int → Int
    | 0, k => k
    | fuel + 1, k => if cmpScaled 1 k x.m x.q == .gt then k else go fuel (k + 1)

/-- The grid point below the value: the largest `d` with `d * 10 ^ e ≤ m * 2 ^ q`. -/
def Magnitude.floorOn (x : Magnitude) (e : Int) : Nat :=
  (x.m * Nat.pow 2 x.q.toNat * Nat.pow 10 (-e).toNat) /
    (Nat.pow 10 e.toNat * Nat.pow 2 (-x.q).toNat)

/-- On the grid `10 ^ e`, the neighbour of the value that reads back; of two the nearer one, and the
even one if they are equally near. -/
def Magnitude.onGrid? (x : Magnitude) (e : Int) : Option Decimal :=
  let d := x.floorOn e
  let below := x.readsBack ⟨d, e⟩
  let above := x.readsBack ⟨d + 1, e⟩
  if below && above then
    match cmpScaled (2 * d + 1) e (2 * x.m) x.q with
    | .gt => some ⟨d, e⟩
    | .lt => some ⟨d + 1, e⟩
    | .eq => some (if d % 2 == 0 then ⟨d, e⟩ else ⟨d + 1, e⟩)
  else if below then some ⟨d, e⟩
  else if above then some ⟨d + 1, e⟩
  else none

/-- The value itself as a decimal, with as many digits as it takes. -/
def Magnitude.exact (x : Magnitude) : Decimal :=
  if 0 ≤ x.q then ⟨x.m * Nat.pow 2 x.q.toNat, 0⟩
  else ⟨x.m * Nat.pow 5 (-x.q).toNat, x.q⟩

def Decimal.strip (d : Decimal) : Decimal :=
  go 400 d
where
  go : Nat → Decimal → Decimal
    | 0, d => d
    | fuel + 1, d =>
      if d.digits % 10 == 0 && d.digits != 0 then go fuel ⟨d.digits / 10, d.exp + 1⟩ else d

/-- The fewest digits that read back; seventeen always suffice. -/
def Magnitude.shortest (x : Magnitude) : Decimal :=
  let k := x.scale
  let found := (List.range 17).findSome? fun (n : Nat) => x.onGrid? (k - 1 - (n : Int))
  (found.getD x.exact).strip

/-- Digits with the decimal exponent of the leading one: positional from -5 to 15. -/
def Decimal.layout (d : Decimal) : String :=
  let ds := (toString d.digits).toList
  let e : Int := d.exp + (ds.length : Int) - 1
  if 0 ≤ e ∧ e ≤ 15 then
    let whole := e.toNat + 1
    let ints := ds.take whole ++ List.replicate (whole - ds.length) '0'
    let frac := ds.drop whole
    String.ofList (ints ++ '.' :: (if frac.isEmpty then ['0'] else frac))
  else if -5 ≤ e ∧ e < 0 then
    String.ofList ('0' :: '.' :: (List.replicate ((-e).toNat - 1) '0' ++ ds))
  else
    let mantissa := match ds with
      | first :: second :: rest => first :: '.' :: second :: rest
      | _ => ds
    let sign := if e < 0 then '-' else '+'
    String.ofList (mantissa ++ 'e' :: sign :: (toString e.natAbs).toList)

/-- The text of a finite double. -/
def render (bits : UInt64) : String :=
  let x := magnitude bits
  let body := if x.m == 0 then "0.0" else x.shortest.layout
  if isNegative bits then "-" ++ body else body

end Binary64

/-- A number of JSON. -/
inductive Number where
  | int (value : Int)
  /-- A double by its bits; always finite in what is read as JSON. -/
  | double (bits : UInt64)
deriving DecidableEq, Repr

namespace Number

/-- Integers are exact from -2^63 up to 2^64 - 1. -/
def fitsInteger (i : Int) : Bool := Bits.minInt64 ≤ i && i < Bits.values 64

/-- The number as an unsigned integer below `2 ^ bits`. -/
def toNatBelow? (bits : Nat) : Number → Option Nat
  | int i => if 0 ≤ i ∧ i < Bits.values bits then some i.toNat else none
  | double _ => none

/-- The number as a signed 64-bit integer. -/
def toInt64? : Number → Option Int
  | int i => if Bits.inInt64 i then some i else none
  | double _ => none

def toFloat : Number → Float
  | int i => if i < 0 then -(Float.ofNat i.natAbs) else Float.ofNat i.natAbs
  | double bits => Float.ofBits bits

def render : Number → String
  | int i => toString i
  | double bits => Binary64.render bits

/-- The number of a double, unless it is infinite or no number. -/
def finite? (f : Float) : Option Number :=
  if Binary64.isFinite f.toBits then some (double f.toBits) else none

/-- `significand * 10 ^ exponent`, rounded after each factor of at most `10 ^ 308`; `none` beyond the
largest finite double. -/
def scaled? (negative : Bool) (significand : Nat) (exponent : Int) : Option Number :=
  (go 4 (Float.ofNat significand) exponent).bind fun f => finite? (if negative then -f else f)
where
  power (k : Nat) : Float := Float.ofScientific 1 false k
  go : Nat → Float → Int → Option Float
    | 0, _, exponent => if exponent < 0 then some 0.0 else none
    | fuel + 1, f, exponent =>
      if exponent.natAbs ≤ 308 then
        some (if 0 ≤ exponent then f * power exponent.toNat else f / power exponent.natAbs)
      else if f == 0.0 then some f
      else if 0 ≤ exponent then none
      else go fuel (f / power 308) (exponent + 308)

end Number

end ScreenFlow
