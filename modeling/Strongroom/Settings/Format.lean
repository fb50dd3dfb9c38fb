import Strongroom.Json.Reader
import Strongroom.Settings.Ini
import Strongroom.Settings.Json5
import Strongroom.Settings.Key
import Strongroom.Settings.Ron
import Strongroom.Settings.Toml
import Strongroom.Settings.Yaml
/-!
# Formats of settings files

The extension of a file tells its format, and the format reads the file as a record.
-/

namespace Strongroom

/-- The formats of settings files. -/
inductive SettingsFormat
  | toml
  | json
  | yaml
  | ini
  | ron
  | json5
deriving DecidableEq, Repr

namespace SettingsFormat

/-- The extensions of all formats. -/
def extensions : List (String × SettingsFormat) :=
  [("toml", .toml), ("json", .json), ("yaml", .yaml), ("yml", .yaml), ("ini", .ini), ("ron", .ron),
    ("json5", .json5)]

/-- The format of an extension. -/
def ofExtension? (extension : String) : Option SettingsFormat :=
  (extensions.find? fun item => item.1 == extension).map (·.2)

mutual
/-- A value of JSON as a setting: a whole number that needs all of sixty-four bits is a real
number. -/
def ofJson : Datum → Datum
  | .integer n => if n ≤ Int64.maxValue.toInt then .integer n else .real (Float.ofScientific n.toNat false 0)
  | .list items => .list (ofJsonItems items)
  | .record members => .record (ofJsonMembers members)
  | .null => .null
  | .bool value => .bool value
  | .real value => .real value
  | .text value => .text value

/-- The items of a list of JSON. -/
def ofJsonItems : List Datum → List Datum
  | [] => []
  | item :: rest => ofJson item :: ofJsonItems rest

/-- The members of an object of JSON. -/
def ofJsonMembers : List (String × Datum) → List (String × Datum)
  | [] => []
  | (name, value) :: rest => (name, ofJson value) :: ofJsonMembers rest
end

/-- The settings of a JSON text; a text that spells no object has no settings. -/
def readJson (text : List Char) : Option (List (String × Datum)) :=
  (Json.parse text).toOption.map fun d => ofJsonMembers d.members

/-- Reads a file; of the members of one name the last one counts. -/
def read (format : SettingsFormat) (text : String) : Option (List (String × Datum)) :=
  let cs := text.toList
  let members :=
    match format with
    | .toml => Toml.read cs
    | .json => readJson cs
    | .yaml => Yaml.read cs
    | .ini => Ini.read cs
    | .ron => Ron.read cs
    | .json5 => Json5.read cs
  members.map Datum.unrepeatedMembers

end SettingsFormat

end Strongroom
