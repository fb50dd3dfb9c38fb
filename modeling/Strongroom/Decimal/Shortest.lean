/-!
# The shortest decimal that reads back

A binary fraction is `mantissa * 2 ^ exponent`.  Of all decimals that lie nearer to it than to its
neighbours the one with the coarsest grid is taken, and of two on that grid the nearer one.
-/

namespace Strongroom.Decimal

/-- The number `digits * 10 ^ exponent`. -/
structure Scaled where
  digits : Nat
  exponent : Int
deriving DecidableEq, Repr

/-- A positive binary fraction with the ends of the interval that reads back as it, all three in
quarters of `2 ^ exponent`; the ends belong to it if `closed`. -/
structure Interval where
  low : Nat
  value : Nat
  high : Nat
  exponent : Int
  closed : Bool

/-- The interval of `mantissa * 2 ^ exponent`, which is narrower below a power of two. -/
def Interval.ofBinary (mantissa : Nat) (exponent : Int) (atPower : Bool) : Interval where
  low := 4 * mantissa - if atPower then 1 else 2
  value := 4 * mantissa
  high := 4 * mantissa + 2
  exponent := exponent - 2
  closed := mantissa % 2 = 0

/-- Whether `count` units of the common denominator lie in the interval. -/
def Interval.holds (i : Interval) (scale count : Nat) : Bool :=
  if i.closed then i.low * scale ≤ count && count ≤ i.high * scale
  else i.low * scale < count && count < i.high * scale

/-- The point of the grid of `10 ^ k` that reads back, if there is one. -/
def Interval.onGrid? (i : Interval) (k : Int) : Option Scaled :=
  let scale := Nat.pow 2 i.exponent.toNat * Nat.pow 10 (-k).toNat
  let unit := Nat.pow 2 (-i.exponent).toNat * Nat.pow 10 k.toNat
  let value := i.value * scale
  let below := value / unit
  let above := below + 1
  let lowFits := decide (0 < below) && i.holds scale (below * unit)
  let highFits := i.holds scale (above * unit)
  let toBelow := value - below * unit
  let toAbove := above * unit - value
  if lowFits && highFits then
    if toBelow < toAbove || (toBelow == toAbove && below % 2 == 0) then some ⟨below, k⟩
    else some ⟨above, k⟩
  else if lowFits then some ⟨below, k⟩
  else if highFits then some ⟨above, k⟩
  else none

/-- The first grid of `10 ^ k`, `10 ^ (k - 1)`, … with a point that reads back. -/
def Interval.search (i : Interval) : Nat → Int → Scaled
  | 0, k => (i.onGrid? k).getD ⟨0, 0⟩
  | n + 1, k => (i.onGrid? k).getD (i.search n (k - 1))

/-- What a double-precision number is, apart from its sign. -/
inductive Magnitude
  | finite (mantissa : Nat) (exponent : Int)
  | infinite
  | notANumber
deriving DecidableEq, Repr

/-- How many fractions there are: they fill the low fifty-two bits of a double-precision number. -/
def fractions : Nat := 4503599627370496

/-- How many magnitudes there are: they fill all bits but the highest one, which is the sign. -/
def magnitudes : Nat := 9223372036854775808

/-- The sign bit of a double-precision number. -/
def isNegative (x : Float) : Bool :=
  magnitudes ≤ x.toBits.toNat

/-- The magnitude of a double-precision number, from its bits. -/
def magnitude (x : Float) : Magnitude :=
  let bits : Nat := x.toBits.toNat % magnitudes
  let field : Nat := bits / fractions
  let fraction : Nat := bits % fractions
  if field = 2047 then
    if fraction = 0 then .infinite else .notANumber
  else if field = 0 then .finite fraction (-1074)
  else .finite (fractions + fraction) ((field : Int) - 1075)

/-- The shortest decimal for `mantissa * 2 ^ exponent`. -/
def shortest (mantissa : Nat) (exponent : Int) : Scaled :=
  if mantissa = 0 then ⟨0, 0⟩
  else
    (Interval.ofBinary mantissa exponent (mantissa = fractions && exponent ≠ -1074)).search 640 309

end Strongroom.Decimal
