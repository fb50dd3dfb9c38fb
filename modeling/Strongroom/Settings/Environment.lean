import Strongroom.Settings.Key
/-!
# Settings in the environment

A variable of the environment whose name starts with a fixed word sets the key that the rest of its
name spells.  The value is taken for a truth value or for a number if it reads as one.
-/

namespace Strongroom.Environment

/-- Names and values of variables. -/
abbrev Variables := List (String × String)

/-- What the names of variables start with that are settings, in lower case. -/
def marker : List Char := "rax_locker_".toList

/-- A character in lower case.  Besides the capitals of ASCII the Kelvin sign is the capital of a
letter that names of settings are made of. -/
def lower (c : Char) : Char :=
  if c = '\u212a' then 'k' else c.toLower

/-- The name of a key, in which two underscores stand for the point between names. -/
def pointed : List Char → List Char
  | '_' :: '_' :: rest => '.' :: pointed rest
  | c :: rest => c :: pointed rest
  | [] => []

/-- The text of the key that a variable sets, if it sets one. -/
def keyText? (name : String) : Option String :=
  let name := name.toList.map lower
  if marker.isPrefixOf name then some (String.ofList (pointed (name.drop marker.length))) else none

/-- What the value of a variable stands for. -/
def resolve (value : String) : Datum :=
  let word := value.toList.map lower
  if word = "true".toList then .bool true
  else if word = "false".toList then .bool false
  else
    match Decimal.integer? value.toList, Decimal.real? value.toList with
    | some n, _ => .integer n
    | none, some x => .real x
    | none, none => .text value

/-- The settings in the environment, each under the text of its key. -/
def settings (environment : Variables) : List (String × Datum) :=
  environment.filterMap fun (name, value) => (keyText? name).map fun key => (key, resolve value)

end Strongroom.Environment
