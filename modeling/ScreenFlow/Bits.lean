/-!
# Fixed widths

The bounds of whole numbers that are kept in a fixed number of bits.
-/

namespace ScreenFlow.Bits

/-- How many numbers fit into so many bits. -/
def values (bits : Nat) : Nat := Nat.pow 2 bits

/-- A number if it fits into so many bits. -/
def fit? (bits n : Nat) : Option Nat := if n < values bits then some n else none

def minInt64 : Int := -values 63

def maxInt64 : Int := values 63 - 1

def inInt64 (i : Int) : Bool := minInt64 ≤ i && i ≤ maxInt64

/-- The nearest number that fits. -/
def capInt64 (i : Int) : Int := max minInt64 (min maxInt64 i)

end ScreenFlow.Bits
