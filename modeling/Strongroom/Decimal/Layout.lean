import Strongroom.Decimal.Shortest
/-!
# How real numbers are laid out

A real number is written with the fewest digits that read back.  A layout says which numbers are
written with an exponent; the others are positional, with at least one digit after the point.
-/

namespace Strongroom.Decimal

/-- The decisions left open by the digits: the places of the point that are written out, and the
texts of the numbers that have no digits. -/
structure Layout where
  positional : Int → Bool
  infinite : String
  notANumber : String

/-- The digits with the point after the first `point` of them. -/
def placePoint (digits : List Char) (point : Int) : List Char :=
  if point ≤ 0 then '0' :: '.' :: List.replicate (-point).toNat '0' ++ digits
  else if digits.length ≤ point.toNat then
    digits ++ List.replicate (point.toNat - digits.length) '0' ++ ['.', '0']
  else digits.take point.toNat ++ '.' :: digits.drop point.toNat

/-- The digits with an exponent; the point follows the first digit if there are more. -/
def placeExponent (digits : List Char) (point : Int) : List Char :=
  let head := digits.take 1
  let tail := digits.drop 1
  head ++ (if tail = [] then [] else '.' :: tail) ++ 'e' :: (toString (point - 1)).toList

/-- A real number in a layout. -/
def Layout.render (layout : Layout) (x : Float) : String :=
  let sign := if isNegative x then "-" else ""
  match magnitude x with
  | .infinite => sign ++ layout.infinite
  | .notANumber => layout.notANumber
  | .finite mantissa exponent =>
    if mantissa = 0 then sign ++ "0.0"
    else
      let scaled := shortest mantissa exponent
      let digits := (toString scaled.digits).toList
      let point := digits.length + scaled.exponent
      let body :=
        if layout.positional point then placePoint digits point else placeExponent digits point
      sign ++ String.ofList body

/-- Every number is written out in full. -/
def Layout.plain : Layout where
  positional _ := true
  infinite := "inf"
  notANumber := "NaN"

/-- Numbers from `10 ^ -5` up to `10 ^ 16` are written out, the others have an exponent. -/
def Layout.compact : Layout where
  positional point := -5 < point && point ≤ 16
  infinite := "inf"
  notANumber := "NaN"

end Strongroom.Decimal
