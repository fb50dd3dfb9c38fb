/-!
# Reading numbers

Whole numbers and fractions as they are written in decimal.  What is not exactly a number, from
the first character to the last, is none.
-/

namespace Strongroom.Decimal

/-- The number that some digits spell in a base of at most sixteen. -/
def ofDigits (base : Nat) (digits : List Char) : Nat :=
  digits.foldl (fun n c => base * n + digitValue c) 0
where
  /-- The value of a digit. -/
  digitValue (c : Char) : Nat :=
    if c.isDigit then c.toNat - 48
    else if c.isLower then c.toNat - 87
    else c.toNat - 55

/-- Whether a character is a digit in a base of at most sixteen. -/
def isDigitIn (base : Nat) (c : Char) : Bool :=
  (c.isDigit || ('a' ≤ c && c ≤ 'f') || ('A' ≤ c && c ≤ 'F')) && ofDigits.digitValue c < base

/-- A sign, if there is one, and what follows it. -/
def splitSign : List Char → Bool × List Char
  | '-' :: rest => (true, rest)
  | '+' :: rest => (false, rest)
  | rest => (false, rest)

/-- A number that fits sixty-four bits with a sign. -/
def word? (n : Int) : Option Int :=
  if Int64.minValue.toInt ≤ n ∧ n ≤ Int64.maxValue.toInt then some n else none

/-- The whole number that a text spells in some base, if it fits sixty-four bits with a sign. -/
def integerIn? (base : Nat) (text : List Char) : Option Int :=
  let (negative, digits) := splitSign text
  if digits ≠ [] ∧ digits.all (isDigitIn base) then
    let n : Int := ofDigits base digits
    word? (if negative then -n else n)
  else none

/-- The whole number that a text spells. -/
def integer? (text : List Char) : Option Int :=
  integerIn? 10 text

/-! ## Fractions -/

/-- The float nearest to a number of units of a power of ten.  Beyond four hundred places nothing
is left of it, or it is infinite. -/
def scaled (units : Nat) (exponent : Int) : Float :=
  let places : Int := exponent + (Nat.toDigits 10 units).length
  if units = 0 ∨ places < -400 then 0.0
  else if 400 < places then 1.0 / 0.0
  else Float.ofScientific units (decide (exponent < 0)) exponent.natAbs

/-- The exponent after a number: nothing, or a mark and a whole number. -/
def exponent? : List Char → Option Int
  | [] => some 0
  | c :: rest =>
    if c = 'e' ∨ c = 'E' then
      let (negative, digits) := splitSign rest
      if digits ≠ [] ∧ digits.all Char.isDigit then
        some (if negative then -(ofDigits 10 digits : Int) else ofDigits 10 digits)
      else none
    else none

/-- A number without a sign: digits with at most one point among them, and an exponent. -/
def magnitude? (text : List Char) : Option Float :=
  let whole := text.takeWhile Char.isDigit
  let (places, rest) :=
    match text.dropWhile Char.isDigit with
    | '.' :: rest => (rest.takeWhile Char.isDigit, rest.dropWhile Char.isDigit)
    | rest => ([], rest)
  if whole = [] ∧ places = [] then none
  else
    (exponent? rest).map fun exponent =>
      scaled (ofDigits 10 (whole ++ places)) (exponent - places.length)

/-- The words for what is no finite number, in lower case. -/
def special? (word : List Char) : Option Float :=
  if word = ['i', 'n', 'f'] ∨ word = ['i', 'n', 'f', 'i', 'n', 'i', 't', 'y'] then some (1.0 / 0.0)
  else if word = ['n', 'a', 'n'] then some (0.0 / 0.0)
  else none

/-- The number that a text spells, with a point, with an exponent, or as a word in any case. -/
def real? (text : List Char) : Option Float :=
  let (negative, rest) := splitSign text
  let value := (special? (rest.map Char.toLower)).or (magnitude? rest)
  value.map fun x => if negative then -x else x

end Strongroom.Decimal
