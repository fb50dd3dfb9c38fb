import Strongroom.Datum.Basic
/-!
# Taking values apart

A value is read as a text, a truth value, a bounded number, one of several names, or the members of a
record; whatever does not fit is refused with a mismatch.
-/

namespace Strongroom.Datum

/-- A value that has to be a text. -/
def asText : Datum → Except Mismatch String
  | .text value => .ok value
  | d => .error (.wrongType d.shape "a string")

/-- A value that has to be a truth value. -/
def asBool : Datum → Except Mismatch Bool
  | .bool value => .ok value
  | d => .error (.wrongType d.shape "a boolean")

/-- A value that has to be a list. -/
def asList : Datum → Except Mismatch (List Datum)
  | .list items => .ok items
  | d => .error (.wrongType d.shape "a sequence")

/-- A value that has to be a whole number up to `limit`; `expected` names that range. -/
def asNatural (limit : Nat) (expected : String) : Datum → Except Mismatch Nat
  | .integer value =>
    if 0 ≤ value ∧ value ≤ (limit : Int) then .ok value.toNat
    else .error (.wrongValue (.integer value) expected)
  | d => .error (.wrongType d.shape expected)

/-- What stands for nothing: the null value, and an empty record too where `lenient` is set. -/
def asNothing (lenient : Bool) : Datum → Except Mismatch Unit
  | .null => .ok ()
  | .record [] => if lenient then .ok () else .error (.wrongType .map "unit")
  | d => .error (.wrongType d.shape "unit")

/-- A name out of a list of known names. -/
def asVariant (known : List String) (name : String) : Except Mismatch String :=
  if name ∈ known then .ok name else .error (.unknownVariant name known)

/-- A choice between names: a bare name, or a record whose only member is named for the choice and
holds its payload. -/
def asChoice (known : List String) : Datum → Except Mismatch (String × Option Datum)
  | .text name => do return (← asVariant known name, none)
  | .record [(name, payload)] => do return (← asVariant known name, some payload)
  | .record _ => .error (.wrongValue .map "map with a single key")
  | d => .error (.wrongType d.shape "string or map")

/-- A choice between names without payloads. -/
def asBareChoice (known : List String) (lenient : Bool) (d : Datum) : Except Mismatch String := do
  let (name, payload) ← asChoice known d
  match payload with
  | none => return name
  | some payload =>
    asNothing lenient payload
    return name

/-- The payload of a choice that must have one. -/
def payloadOf : Option Datum → Except Mismatch Datum
  | some payload => .ok payload
  | none => .error (.wrongType .unitVariant "newtype variant")

/-! ## Members of a record -/

/-- The value kept under a name while the members of a record are gone through. -/
def kept (name : String) (fields : List (String × α)) : Option α :=
  (fields.find? fun field => field.1 == name).map (·.2)

end Strongroom.Datum
