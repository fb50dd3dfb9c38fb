import Strongroom.Decimal.Layout
import Strongroom.Text.Quoted
/-!
# Data

The values that a line of JSON or a settings file spells: nothing, truth values, numbers, texts,
lists, and records.  A record keeps its members in the order and the number in which they were
written.
-/

namespace Strongroom

/-- A value spelled by a text format. -/
inductive Datum
  | null
  | bool (value : Bool)
  | integer (value : Int)
  | real (value : Float)
  | text (value : String)
  | list (items : List Datum)
  | record (members : List (String × Datum))

namespace Datum

/-- The members of a value; a value that is no record has none. -/
def members : Datum → List (String × Datum)
  | .record members => members
  | _ => []

/-- The items of a value; a value that is no list has none. -/
def items : Datum → List Datum
  | .list items => items
  | _ => []

/-- What a value is, as far as a complaint about it tells. -/
inductive Shape
  | nothing
  | bool (value : Bool)
  | integer (value : Int)
  | real (value : Float)
  | text (value : String)
  | sequence
  | map
  | unitVariant

/-- The shape of a value. -/
def shape : Datum → Shape
  | .null => .nothing
  | .bool value => .bool value
  | .integer value => .integer value
  | .real value => .real value
  | .text value => .text value
  | .list _ => .sequence
  | .record _ => .map

/-- How the shapes are worded that two formats call by different names. -/
structure Wording where
  nothing : String
  real : Decimal.Layout

/-- The name of a shape in a message. -/
def Wording.describe (w : Wording) : Shape → String
  | .nothing => w.nothing
  | .bool value => s!"boolean `{value}`"
  | .integer value => s!"integer `{value}`"
  | .real value => s!"floating point `{w.real.render value}`"
  | .text value => "string " ++ String.ofList (Text.quoted value.toList)
  | .sequence => "sequence"
  | .map => "map"
  | .unitVariant => "unit variant"

/-- Why a value is not what was asked for. -/
inductive Mismatch
  | wrongType (found : Shape) (expected : String)
  | wrongValue (found : Shape) (expected : String)
  | wrongLength (found : Nat) (expected : String)
  | missingField (name : String)
  | duplicateField (name : String)
  | unknownVariant (name : String) (known : List String)

/-- A list of names as a message offers them. -/
def offer : List String → String
  | [] => "there are no variants"
  | [a] => s!"expected `{a}`"
  | [a, b] => s!"expected `{a}` or `{b}`"
  | names => "expected one of " ++ String.intercalate ", " (names.map fun name => s!"`{name}`")

/-- The text of a mismatch. -/
def Mismatch.message (w : Wording) : Mismatch → String
  | .wrongType found expected => s!"invalid type: {w.describe found}, expected {expected}"
  | .wrongValue found expected => s!"invalid value: {w.describe found}, expected {expected}"
  | .wrongLength found expected => s!"invalid length {found}, expected {expected}"
  | .missingField name => s!"missing field `{name}`"
  | .duplicateField name => s!"duplicate field `{name}`"
  | .unknownVariant name known => s!"unknown variant `{name}`, {offer known}"

/-- "1 element", "2 elements", and so on. -/
def countOf (n : Nat) : String :=
  if n = 1 then "1 element" else s!"{n} elements"

end Datum

end Strongroom
