import Strongroom.FileTree.Calls
import Strongroom.Settings.Decode
import Strongroom.Settings.Environment
import Strongroom.Settings.Format
/-!
# Loading settings

Settings come from a file, which is found by a path with or without its extension, and from the
environment, which has the last word.
-/

namespace Strongroom

/-- Why no settings are loaded: there is no file, it cannot be read, a key has an index that names no
place in its list, or a setting is not what it has to be. -/
inductive LoadFault
  | noFile
  | unreadable
  | noPlace
  | mismatch (cause : Datum.Mismatch)
  | flaw (cause : SettingsFlaw)

/-- The text of a fault that is about a setting. -/
def LoadFault.message? : LoadFault → Option String
  | .noFile => none
  | .unreadable => none
  | .noPlace => none
  | .mismatch cause => some (cause.message Settings.wording)
  | .flaw cause => some cause.message

/-- What settings are loaded from: the host's files, the directory that relative paths are taken
from, and the environment. -/
structure Surroundings where
  tree : FileTree
  directory : Path
  environment : Environment.Variables

/-! ## Finding the file -/

/-- What follows the last point of a name, unless the name starts with it. -/
def Path.extension? (name : Name) : Option String :=
  let after := name.toList.reverse.takeWhile (· != '.')
  if after.length + 1 < name.toList.length then some (String.ofList after.reverse) else none

/-- A path with an extension more. -/
def Path.withExtension? (p : Path) (extension : String) : Option Path := do
  let parent ← p.parent?
  let name ← p.fileName?
  return parent ++ ⟨s!"{name}.{extension}"⟩

/-- The settings file that a path names, with its format.  A file of just that name is taken as it
is and must have a known extension; otherwise the extensions are tried one after the other. -/
def Surroundings.find (s : Surroundings) (path : String) : Except LoadFault (Path × SettingsFormat) :=
  let p := s.directory ++ ⟨path⟩
  if s.tree.isFile p then
    match (p.fileName?.bind Path.extension?).bind SettingsFormat.ofExtension? with
    | some format => .ok (p, format)
    | none => .error .noFile
  else
    let candidates := SettingsFormat.extensions.filterMap fun (extension, format) =>
      (p.withExtension? extension).map fun candidate => (candidate, format)
    match candidates.find? fun candidate => s.tree.isFile candidate.1 with
    | some candidate => .ok candidate
    | none => .error .noFile

/-! ## Reading it -/

/-- A record with settings set one after the other, if all their keys lead to places. -/
def Datum.withSettings? (d : Datum) (settings : List (String × Datum)) : Option Datum :=
  settings.foldlM (fun d (key, value) => setAt? (Key.ofText key) d value) d

/-- The settings in a file, with those of the environment over them. -/
def Surroundings.gather (s : Surroundings) (p : Path) (format : SettingsFormat) :
    Except LoadFault Datum :=
  match (s.tree.readFile p).toOption.bind Bytes.toText? with
  | none => .error .noFile
  | some text =>
    match format.read text with
    | none => .error .unreadable
    | some members =>
      match (Datum.record []).withSettings? (members ++ Environment.settings s.environment) with
      | none => .error .noPlace
      | some d => .ok d

/-- Loads the settings that a path names. -/
def Surroundings.loadFrom (s : Surroundings) (path : String) : Except LoadFault Settings := do
  let (p, format) ← s.find path
  let d ← s.gather p format
  let settings ← (Settings.ofMembers d.members).mapError .mismatch
  settings.validate.mapError .flaw

/-! ## Usual places -/

/-- Where settings are looked for, the first place first. -/
def Settings.usualPlaces : List String := ["rax-locker/config", "config"]

/-- Loads the settings from the first of some places that has good ones; if there is none, the
fault is that of the last place.  After a key that leads nowhere no other place is tried. -/
def Surroundings.loadFirst (s : Surroundings) : List String → Except LoadFault Settings
  | [] => .error .noFile
  | [place] => s.loadFrom place
  | place :: more =>
    match s.loadFrom place with
    | .ok settings => .ok settings
    | .error .noPlace => .error .noPlace
    | .error _ => s.loadFirst more

/-- Loads the settings from one of the usual places. -/
def Surroundings.load (s : Surroundings) : Except LoadFault Settings :=
  s.loadFirst Settings.usualPlaces

end Strongroom
