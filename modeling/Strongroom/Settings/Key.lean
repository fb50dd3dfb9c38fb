import Strongroom.Datum.Decode
import Strongroom.Decimal.Reading
/-!
# Keys of settings

A key names a member of a record, a member of that, an item of a list, and so on.  To set a key
makes whatever records and lists it leads through, and a record is laid over a record instead of
taking its place.
-/

namespace Strongroom

/-- A step of a key: to a member of a record, or to an item of a list, which counts from the end
if it is negative. -/
inductive KeyStep
  | member (name : String)
  | item (index : Int)
deriving DecidableEq, Repr

/-- A key is a number of steps. -/
abbrev Key := List KeyStep

namespace Key

/-! ## Keys as texts -/

/-- The characters of a name in a key. -/
def isNameChar (c : Char) : Bool :=
  c.isAlphanum || c = '_' || c = '-' || c = ' '

/-- The name at the front of a text. -/
def name? (cs : List Char) : Option (String × List Char) :=
  let name := cs.takeWhile isNameChar
  if name = [] then none else some (String.ofList name, cs.drop name.length)

/-- The index at the front of a text, up to and with its closing bracket. -/
def index? (cs : List Char) : Option (Int × List Char) :=
  let isGap := fun c => c = ' ' ∨ c = '\t'
  let start := cs.dropWhile isGap
  let digits :=
    match start with
    | '-' :: rest => '-' :: rest.takeWhile Char.isDigit
    | rest => rest.takeWhile Char.isDigit
  match Decimal.integer? digits, (start.drop digits.length).dropWhile isGap with
  | some index, ']' :: rest => some (index, rest)
  | _, _ => none

/-- The steps after the first name: each starts with a point or with a bracket. -/
def stepsFrom? : Nat → List Char → Option Key
  | _, [] => some []
  | fuel + 1, '.' :: rest => do
    let (name, rest) ← name? rest
    return .member name :: (← stepsFrom? fuel rest)
  | fuel + 1, '[' :: rest => do
    let (index, rest) ← index? rest
    return .item index :: (← stepsFrom? fuel rest)
  | _, _ => none

/-- The steps that a text spells. -/
def steps? (text : List Char) : Option Key := do
  let (name, rest) ← name? text
  return .member name :: (← stepsFrom? rest.length rest)

/-- The key of a text; a text that spells no steps is a name as a whole. -/
def ofText (text : String) : Key :=
  (steps? text.toList).getD [.member text]

end Key

namespace Datum

/-! ## Setting a key -/

/-- The members with a value for a name. -/
def put (name : String) (value : Datum) : List (String × Datum) → List (String × Datum)
  | [] => [(name, value)]
  | (other, old) :: rest =>
    if other = name then (name, value) :: rest else (other, old) :: put name value rest

mutual
/-- Lays a value over another one. -/
def layOver (below : Datum) : Datum → Datum
  | .record members => layMembers below members
  | .null => .null
  | .bool value => .bool value
  | .integer value => .integer value
  | .real value => .real value
  | .text value => .text value
  | .list items => .list items

/-- Lays members over a value, one after the other. -/
def layMembers (below : Datum) : List (String × Datum) → Datum
  | [] => below
  | (name, value) :: rest =>
    let old := (kept name below.members).getD (.record [])
    layMembers (.record (put name (layOver old value) below.members)) rest
end

/-- How many items a list can be filled up to at most: memory has no addresses for more, as each of
them takes ninety-six octets. -/
def mostItems : Nat := Int64.maxValue.toInt.toNat / 96

/-- The place in a list of some length that an index names.  There is none before the first item,
and none that is too far away. -/
def place? (index : Int) (length : Nat) : Option Nat :=
  if 0 ≤ index then
    if index.toNat < mostItems then some index.toNat else none
  else if index.natAbs ≤ length then some (length - index.natAbs)
  else none

/-- A list that reaches up to a place, filled up with nulls. -/
def reach (place : Nat) (items : List Datum) : List Datum :=
  items ++ List.replicate (place + 1 - items.length) .null

/-- The value with another one set at a key, if all its indices name places. -/
def setAt? : Key → Datum → Datum → Option Datum
  | [], _, value => some value
  | [.member name], current, value =>
    some (.record (put name (layOver ((kept name current.members).getD (.record [])) value)
      current.members))
  | .member name :: rest, current, value => do
    let inner ← setAt? rest ((kept name current.members).getD .null) value
    return .record (put name inner current.members)
  | .item index :: rest, current, value => do
    let place ← place? index current.items.length
    let items := reach place current.items
    return .list (items.set place (← setAt? rest (items.getD place .null) value))

/-! ## Repeated members -/

mutual
/-- The value with only the last of the members of one name in each record. -/
def unrepeated : Datum → Datum
  | .record members => .record (unrepeatedMembers members)
  | .list items => .list (unrepeatedItems items)
  | .null => .null
  | .bool value => .bool value
  | .integer value => .integer value
  | .real value => .real value
  | .text value => .text value

/-- The items of a list, each without repeated members. -/
def unrepeatedItems : List Datum → List Datum
  | [] => []
  | item :: rest => unrepeated item :: unrepeatedItems rest

/-- The last of the members of each name. -/
def unrepeatedMembers : List (String × Datum) → List (String × Datum)
  | [] => []
  | (name, value) :: rest =>
    let later := unrepeatedMembers rest
    if (kept name later).isSome then later else (name, unrepeated value) :: later
end

end Datum

end Strongroom
