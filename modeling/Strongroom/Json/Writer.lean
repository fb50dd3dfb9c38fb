import Strongroom.Datum.Basic
import Strongroom.Json.Fault
import Strongroom.Json.Literal
/-!
# Writing JSON

A value is written without white space; the members of an object keep their order.
-/

namespace Strongroom.Json

mutual
/-- A value as JSON. -/
def write : Datum → List Char
  | .null => ['n', 'u', 'l', 'l']
  | .bool true => ['t', 'r', 'u', 'e']
  | .bool false => ['f', 'a', 'l', 's', 'e']
  | .integer value => (toString value).toList
  | .real value => (wording.real.render value).toList
  | .text value => writeString value
  | .list items => '[' :: writeItems items
  | .record members => '\x7b' :: writeMembers members

/-- The items of a list with its closing bracket. -/
def writeItems : List Datum → List Char
  | [] => [']']
  | [item] => write item ++ [']']
  | item :: items => write item ++ ',' :: writeItems items

/-- The members of an object with its closing brace. -/
def writeMembers : List (String × Datum) → List Char
  | [] => ['\x7d']
  | [(key, value)] => writeString key ++ ':' :: write value ++ ['\x7d']
  | (key, value) :: members => writeString key ++ ':' :: write value ++ ',' :: writeMembers members
end

end Strongroom.Json
