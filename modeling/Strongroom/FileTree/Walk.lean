import Strongroom.FileTree.Basic
import Strongroom.FileTree.Fault
/-!
# Walking along a path

A path is followed piece by piece from the root.  Every piece but the last has to lead to a
directory, symbolic links are replaced by what they point to, and at most forty of them are
followed.
-/

namespace Strongroom.FileTree

/-- The longest name of an entry, in bytes. -/
def maxNameBytes : Nat := 255

/-- The longest path, in bytes. -/
def maxPathBytes : Nat := 4095

/-- How many symbolic links are followed on one walk. -/
def maxLinks : Nat := 40

/-- A piece of a path that is not empty. -/
inductive Segment
  | here
  | up
  | name (entry : Name)
deriving DecidableEq, Repr

/-- The segment that a piece stands for. -/
def segment? (piece : Name) : Option Segment :=
  if piece = "" then none
  else if piece = "." then some .here
  else if piece = ".." then some .up
  else some (.name piece)

/-- The segments of a path. -/
def segments (p : Path) : List Segment :=
  p.pieces.filterMap segment?

/-- Whether a path ends in a slash after its last segment. -/
def endsInSlash (p : Path) : Bool :=
  p.pieces.getLast? == some ""

/-- The segments of a path that has to lead through its end: a final slash asks for a directory. -/
def through (p : Path) : List Segment :=
  if endsInSlash p then segments p ++ [.here] else segments p

/-- Whether a path starts at the root. -/
def startsAtRoot (p : Path) : Bool :=
  p.pieces.length > 1 && p.pieces.head? == some ""

/-- Where a walk ends. -/
abbrev Arrival := Except HostFault (Location × Entry)

/-- Follows segments; `onLink` goes on from a link that has to be followed. -/
def walkWith (t : FileTree) (onLink : Location → List Segment → Arrival) (follow : Bool) :
    Location → List Segment → Arrival
  | here, [] =>
    match t.get? here with
    | some entry => .ok (here, entry)
    | none => .error .noEntry
  | here, segment :: rest =>
    match t.get? here with
    | none => .error .noEntry
    | some .directory =>
      match segment with
      | .here => walkWith t onLink follow here rest
      | .up => walkWith t onLink follow here.tail rest
      | .name name =>
        if maxNameBytes < name.utf8ByteSize then .error .nameTooLong
        else
          match t.get? (name :: here) with
          | none => .error .noEntry
          | some (.link target) =>
            if rest = [] ∧ follow = false then .ok (name :: here, .link target)
            else onLink (if startsAtRoot target then [] else here) (through target ++ rest)
          | some _ => walkWith t onLink follow (name :: here) rest
    | some _ => .error .notDirectory

/-- Follows segments and at most so many links. -/
def walk (t : FileTree) (follow : Bool) : Nat → Location → List Segment → Arrival
  | 0 => walkWith t (fun _ _ => .error .tooManyLinks) follow
  | links + 1 => walkWith t (walk t follow links) follow

/-- Refuses a path that no host takes: one with a NUL, an empty one, or one that is too long. -/
def checkText (p : Path) : Except HostFault Unit :=
  if p.text.toList.contains '\x00' then .error .nulByte
  else if p.text = "" then .error .noEntry
  else if maxPathBytes < p.text.utf8ByteSize then .error .nameTooLong
  else .ok ()

/-- What a path leads to, through a link at its end if `follow` is set. -/
def locate (t : FileTree) (follow : Bool) (p : Path) : Arrival := do
  checkText p
  walk t follow maxLinks [] (through p)

/-- The place that a path names: a directory that is there, with the last segment of the path. -/
structure Slot where
  directory : Location
  last : Option Segment
  slash : Bool

/-- The place that a path names. -/
def slot (t : FileTree) (p : Path) : Except HostFault Slot := do
  checkText p
  let all := segments p
  let (directory, entry) ← walk t true maxLinks [] all.dropLast
  if entry ≠ .directory then throw .notDirectory
  return ⟨directory, all.getLast?, endsInSlash p⟩

/-- The location of a slot whose last segment is a name. -/
def Slot.place (s : Slot) (unnamed : Option Segment → HostFault) : Except HostFault Location :=
  match s.last with
  | some (.name name) =>
    if maxNameBytes < name.utf8ByteSize then .error .nameTooLong else .ok (name :: s.directory)
  | last => .error (unnamed last)

end Strongroom.FileTree
