import Strongroom.FileTree.Walk
/-!
# Operations of the host

Queries look along a path and leave the tree as it is.  Changes name one place, follow no link at
the end of their path, and are refused with the tree unchanged.
-/

namespace Strongroom.FileTree

/-! ## Queries -/

/-- Whether a path leads to anything. -/
def pathExists (t : FileTree) (p : Path) : Bool :=
  (t.locate true p).isOk

/-- Whether a path leads to a directory. -/
def isDirectory (t : FileTree) (p : Path) : Bool :=
  match t.locate true p with
  | .ok (_, .directory) => true
  | _ => false

/-- Whether a path leads to a file. -/
def isFile (t : FileTree) (p : Path) : Bool :=
  match t.locate true p with
  | .ok (_, .file _) => true
  | _ => false

/-- The bytes of the file that a path leads to. -/
def readFile (t : FileTree) (p : Path) : Except HostFault Bytes := do
  match ← t.locate true p with
  | (_, .file body) => return body
  | _ => throw .isDirectory

/-- The location of the directory that a path leads to. -/
def openDirectory (t : FileTree) (p : Path) : Except HostFault Location := do
  match ← t.locate true p with
  | (location, .directory) => return location
  | _ => throw .notDirectory

/-- The names and entries in the directory that a path leads to. -/
def readDirectory (t : FileTree) (p : Path) : Except HostFault (List (Name × Entry)) := do
  return t.children (← t.openDirectory p)

/-- A location as a path. -/
def pathTo (location : Location) : Path :=
  ⟨"/" ++ Path.paste location.reverse⟩

/-- The path of what a path leads to, without links. -/
def canonicalPath (t : FileTree) (p : Path) : Except HostFault Path := do
  let (location, _) ← t.locate true p
  return pathTo location

/-! ## Changes -/

/-- Makes a directory where nothing stands. -/
def makeDirectory (t : FileTree) (p : Path) : Except HostFault FileTree := do
  let s ← t.slot p
  let location ← s.place fun _ => .alreadyExists
  match t.get? location with
  | some _ => throw .alreadyExists
  | none => return t.insert location .directory

/-- Removes a directory that holds nothing. -/
def removeDirectory (t : FileTree) (p : Path) : Except HostFault FileTree := do
  let s ← t.slot p
  let location ← s.place fun
    | some .here => .invalidArgument
    | some .up => .notEmpty
    | _ => .busy
  match t.get? location with
  | none => throw .noEntry
  | some .directory =>
    if (t.children location).isEmpty then return t.erase location else throw .notEmpty
  | some _ => throw .notDirectory

/-- Removes a file or a link. -/
def removeFile (t : FileTree) (p : Path) : Except HostFault FileTree := do
  let s ← t.slot p
  let location ← s.place fun _ => .isDirectory
  match t.get? location with
  | none => throw .noEntry
  | some .directory => throw .isDirectory
  | some _ => if s.slash then throw .notDirectory else return t.erase location

/-- Moves a file from its location to the place that a path names, over what is there unless that
is a directory. -/
def moveFile (t : FileTree) (source : Location) (p : Path) : Except HostFault FileTree := do
  if p.text.toList.contains '\x00' then throw .invalidArgument
  let s ← t.slot p
  let location ← s.place fun _ => .busy
  if s.slash then throw .notDirectory
  match t.get? location, t.get? source with
  | some .directory, _ => throw .isDirectory
  | _, some entry => return (t.erase source).insert location entry
  | _, none => throw .noEntry

/-- Removes the directory that a path leads to with everything below it; a link is removed
itself. -/
def removeAll (t : FileTree) (p : Path) : Except HostFault Unit × FileTree :=
  match t.locate false p with
  | .error fault => (.error fault, t)
  | .ok (_, .link _) =>
    match t.removeFile p with
    | .ok t => (.ok (), t)
    | .error fault => (.error fault, t)
  | .ok (_, .file _) => (.error .notDirectory, t)
  | .ok (location, .directory) =>
    let t := t.clear location
    match t.removeDirectory p with
    | .ok t => (.ok (), t)
    | .error fault => (.error fault, t)

/-- Makes a directory with the directories above it that are missing; `depth` bounds how many. -/
def makeDirectoriesFrom (t : FileTree) : Nat → Path → Except HostFault Unit × FileTree
  | 0, _ => (.error (.other "failed to create whole tree"), t)
  | depth + 1, p =>
    if p.text = "" then (.ok (), t)
    else
      match t.makeDirectory p with
      | .ok t => (.ok (), t)
      | .error .noEntry =>
        match p.parent? with
        | none => (.error (.other "failed to create whole tree"), t)
        | some parent =>
          match makeDirectoriesFrom t depth parent with
          | (.error fault, t) => (.error fault, t)
          | (.ok (), t) =>
            match t.makeDirectory p with
            | .ok t => (.ok (), t)
            | .error fault => if t.isDirectory p then (.ok (), t) else (.error fault, t)
      | .error fault => if t.isDirectory p then (.ok (), t) else (.error fault, t)

/-- Makes a directory with the directories above it that are missing. -/
def makeDirectories (t : FileTree) (p : Path) : Except HostFault Unit × FileTree :=
  t.makeDirectoriesFrom (p.pieces.length + 1) p

/-! ## Staging -/

/-- The `n`-th name for a file that is being written. -/
def stagingName (n : Nat) : Name :=
  let digits := toString n
  ".tmp" ++ "".pushn '0' (6 - digits.length) ++ digits

/-- The first of the staging names that none of `taken` has. -/
def freshStagingName (taken : List Name) : Name :=
  match (List.range (taken.length + 1)).find? fun n => !taken.contains (stagingName n) with
  | some n => stagingName n
  | none => stagingName taken.length

/-- Puts an empty file of a fresh name into the directory that a path leads to.  A host draws the name at random
and names the path that it tried when it refuses one, which is if the path is too long; here the name is the first
one that is free, and the fault is left without that path. -/
def stage (t : FileTree) (directory : Path) : Except HostFault (Location × FileTree) := do
  let location ← t.openDirectory directory
  let name := freshStagingName ((t.children location).map (·.1))
  checkText (directory ++ ⟨name⟩)
  return (name :: location, t.insert (name :: location) (.file []))

/-- Writes a file in three steps: an empty file is staged beside it, filled, and moved to its
place.  A staged file that cannot be moved is removed again. -/
def replaceFile (t : FileTree) (directory p : Path) (body : Bytes) :
    Except HostFault Unit × FileTree :=
  match t.stage directory with
  | .error fault => (.error fault, t)
  | .ok (staged, t) =>
    let t := t.insert staged (.file body)
    match t.moveFile staged p with
    | .ok t => (.ok (), t)
    | .error fault => (.error fault, t.erase staged)

end Strongroom.FileTree
