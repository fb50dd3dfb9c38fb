import Strongroom.Json.Fault
/-!
# Numbers in JSON

A number without point and exponent is whole as long as it fits into sixty-four bits; every other
number is real.  The digits of a real number are gathered in one significand of sixty-four bits,
the digits that no longer fit are dropped, and the power of ten is multiplied in afterwards.
-/

namespace Strongroom.Json

/-- The largest number of sixty-four bits. -/
def maxWord : Nat := UInt64.size - 1

/-- The value of a decimal digit. -/
def digitValue (c : Char) : Nat := c.toNat - 48

/-- `10 ^ n` as a real number. -/
def powerOfTen (n : Nat) : Float := Float.ofScientific 1 false n

/-- `value * 10 ^ exponent`, in steps of at most `10 ^ 308`; nothing if it is too large. -/
def scaleSteps : Nat → Float → Int → Option Float
  | steps, value, exponent =>
    if exponent.natAbs ≤ 308 then
      if 0 ≤ exponent then
        let scaled := value * powerOfTen exponent.natAbs
        if scaled.isInf then none else some scaled
      else some (value / powerOfTen exponent.natAbs)
    else if value == 0.0 then some value
    else if 0 ≤ exponent then none
    else
      match steps with
      | 0 => some 0.0
      | steps + 1 => scaleSteps steps (value / powerOfTen 308) (exponent + 308)

/-- The real number with a sign, a significand, and a power of ten. -/
def realNumber (negative : Bool) (significand : Nat) (exponent : Int) : Except Fault Datum :=
  match scaleSteps 8 significand.toUInt64.toFloat exponent with
  | some value => .ok (.real (if negative then -value else value))
  | none => malformed .numberOutOfRange

/-- The whole number with a sign; a negative one that does not fit, and minus zero, are real. -/
def wholeNumber (negative : Bool) (significand : Nat) : Datum :=
  if negative then
    if significand = 0 ∨ Int64.minValue.toInt.natAbs < significand then .real (-significand.toUInt64.toFloat)
    else .integer (-(significand : Int))
  else .integer significand

/-- The digits of an exponent after its first one. -/
def exponentDigits (exponent : Nat) : List Char → Nat × List Char
  | c :: cs => if c.isDigit then exponentDigits (10 * exponent + digitValue c) cs
    else (exponent, c :: cs)
  | [] => (exponent, [])

/-- An exponent after its letter and its sign. -/
def exponentValue (negative : Bool) (significand : Nat) (scale : Int) (below : Bool) :
    Reader Datum
  | [] => malformed .endInValue
  | c :: cs =>
    if c.isDigit then
      let (exponent, rest) := exponentDigits (digitValue c) cs
      let total := if below then scale - exponent else scale + exponent
      (realNumber negative significand total).map (·, rest)
    else malformed .invalidNumber

/-- An exponent after its letter. -/
def exponentPart (negative : Bool) (significand : Nat) (scale : Int) : Reader Datum
  | '+' :: cs => exponentValue negative significand scale false cs
  | '-' :: cs => exponentValue negative significand scale true cs
  | cs => exponentValue negative significand scale false cs

/-- What may follow the digits of a real number. -/
def afterFraction (negative : Bool) (significand : Nat) (scale : Int) : Reader Datum
  | 'e' :: cs => exponentPart negative significand scale cs
  | 'E' :: cs => exponentPart negative significand scale cs
  | cs => (realNumber negative significand scale).map (·, cs)

/-- The digits after the point, `places` of which have been read. -/
def fractionDigits (negative : Bool) (significand : Nat) (scale : Int) (places : Nat) :
    Reader Datum
  | c :: cs =>
    if c.isDigit then
      let next := 10 * significand + digitValue c
      if maxWord < next then
        afterFraction negative significand (scale - places) (cs.dropWhile Char.isDigit)
      else fractionDigits negative next scale (places + 1) cs
    else if places = 0 then malformed .invalidNumber
    else afterFraction negative significand (scale - places) (c :: cs)
  | [] =>
    if places = 0 then malformed .endInValue
    else afterFraction negative significand (scale - places) []

/-- What may follow the whole part of a number whose further `dropped` digits do not fit. -/
def afterLong (negative : Bool) (significand dropped : Nat) : Reader Datum
  | '.' :: cs => fractionDigits negative significand dropped 0 cs
  | cs => afterFraction negative significand dropped cs

/-- The digits of the whole part that no longer fit. -/
def longDigits (negative : Bool) (significand dropped : Nat) : Reader Datum
  | c :: cs =>
    if c.isDigit then longDigits negative significand (dropped + 1) cs
    else afterLong negative significand dropped (c :: cs)
  | [] => afterLong negative significand dropped []

/-- What may follow the whole part of a number. -/
def afterWhole (negative : Bool) (significand : Nat) : Reader Datum
  | '.' :: cs => fractionDigits negative significand 0 0 cs
  | 'e' :: cs => exponentPart negative significand 0 cs
  | 'E' :: cs => exponentPart negative significand 0 cs
  | cs => .ok (wholeNumber negative significand, cs)

/-- The digits of the whole part after its first one. -/
def wholeDigits (negative : Bool) (significand : Nat) : Reader Datum
  | c :: cs =>
    if c.isDigit then
      let next := 10 * significand + digitValue c
      if maxWord < next then longDigits negative significand 0 (c :: cs)
      else wholeDigits negative next cs
    else afterWhole negative significand (c :: cs)
  | [] => afterWhole negative significand []

/-- A number after its sign.  A leading zero stands alone. -/
def readNumber (negative : Bool) : Reader Datum
  | [] => malformed .endInValue
  | c :: cs =>
    if c = '0' then
      match cs with
      | d :: _ => if d.isDigit then malformed .invalidNumber else afterWhole negative 0 cs
      | [] => afterWhole negative 0 []
    else if c.isDigit then wholeDigits negative (digitValue c) cs
    else malformed .invalidNumber

/-! ## Numbers that are passed over -/

/-- Passes over an exponent after its letter. -/
def skipExponent (cs : List Char) : Except Fault (List Char) :=
  let digits :=
    match cs with
    | '+' :: rest => rest
    | '-' :: rest => rest
    | rest => rest
  match digits with
  | c :: rest => if c.isDigit then .ok (rest.dropWhile Char.isDigit) else malformed .invalidNumber
  | [] => malformed .invalidNumber

/-- Passes over what may follow the whole part. -/
def skipAfterWhole : List Char → Except Fault (List Char)
  | '.' :: cs =>
    match cs with
    | c :: rest =>
      if c.isDigit then
        match rest.dropWhile Char.isDigit with
        | 'e' :: rest => skipExponent rest
        | 'E' :: rest => skipExponent rest
        | rest => .ok rest
      else malformed .invalidNumber
    | [] => malformed .invalidNumber
  | 'e' :: cs => skipExponent cs
  | 'E' :: cs => skipExponent cs
  | cs => .ok cs

/-- Passes over a number after its sign, whatever its size. -/
def skipNumber : List Char → Except Fault (List Char)
  | [] => malformed .invalidNumber
  | c :: cs =>
    if c = '0' then
      match cs with
      | d :: _ => if d.isDigit then malformed .invalidNumber else skipAfterWhole cs
      | [] => .ok []
    else if c.isDigit then skipAfterWhole (cs.dropWhile Char.isDigit)
    else malformed .invalidNumber

end Strongroom.Json
