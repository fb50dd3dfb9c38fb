import Strongroom.Bytes.Hex
import Strongroom.Path.Basic
/-!
# Trees of files

A tree says what stands at each location.  A location lists the names that lead to an entry, the
entry's own name first and the name below the root last, so that the parent of an entry is the
tail of its location.
-/

namespace Strongroom

/-- The place of an entry: its own name, then the names of the directories around it. -/
abbrev Location := List Name

/-- What stands at a location. -/
inductive Entry
  | directory
  | file (body : Bytes)
  | link (target : Path)
deriving DecidableEq, Repr

/-- The entries of a host, each with its location; the root itself is not listed. -/
structure FileTree where
  entries : List (Location × Entry)
deriving DecidableEq, Repr

namespace FileTree

/-- The tree with nothing below its root. -/
def empty : FileTree := ⟨[]⟩

/-- What stands at a location.  The root is a directory. -/
def get? (t : FileTree) : Location → Option Entry
  | [] => some .directory
  | location => (t.entries.find? fun item => item.1 == location).map (·.2)

/-- The tree without what stands at a location. -/
def erase (t : FileTree) (location : Location) : FileTree :=
  ⟨t.entries.filter fun item => item.1 != location⟩

/-- The tree with an entry put at a location. -/
def insert (t : FileTree) (location : Location) (entry : Entry) : FileTree :=
  ⟨(location, entry) :: (t.erase location).entries⟩

/-- The names and entries directly in a directory. -/
def children (t : FileTree) (directory : Location) : List (Name × Entry) :=
  t.entries.filterMap fun item =>
    match item.1 with
    | name :: parent => if parent = directory then some (name, item.2) else none
    | [] => none

/-- Whether a location lies strictly below another one. -/
def isBelow (top location : Location) : Bool :=
  top.isSuffixOf location && location != top

/-- The tree without what stands below a location. -/
def clear (t : FileTree) (top : Location) : FileTree :=
  ⟨t.entries.filter fun item => !isBelow top item.1⟩

/-- The entries below a location, each with its location. -/
def below (t : FileTree) (top : Location) : List (Location × Entry) :=
  t.entries.filter fun item => isBelow top item.1

/-- The number of bytes of an entry that is a file. -/
def Entry.size : Entry → Nat
  | .file body => body.length
  | _ => 0

/-- The bytes of all files below a location. -/
def bytesBelow (t : FileTree) (top : Location) : Nat :=
  (t.below top).foldr (fun item total => Entry.size item.2 + total) 0

/-! ## Laws -/

theorem get?_root (t : FileTree) : t.get? [] = some .directory := rfl

theorem get?_erase (t : FileTree) {location : Location} (h : location ≠ []) (other : Location) :
    (t.erase location).get? other = if other = location then none else t.get? other := by
  cases other with
  | nil => simp [get?, h.symm]
  | cons name parent =>
    simp only [get?, erase]
    induction t.entries with
    | nil => simp
    | cons item items ih => grind

theorem get?_insert (t : FileTree) {location : Location} (h : location ≠ []) (entry : Entry)
    (other : Location) :
    (t.insert location entry).get? other =
      if other = location then some entry else t.get? other := by
  have erased := t.get?_erase h other
  cases other with
  | nil => simp [get?, h.symm]
  | cons name parent =>
    simp only [get?, insert] at erased ⊢
    by_cases ho : name :: parent = location
    · simp [ho]
    · have hl : ¬ location = name :: parent := fun e => ho e.symm
      simp [hl, ho, erased]

end FileTree

end Strongroom
