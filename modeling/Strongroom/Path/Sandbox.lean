import Strongroom.Path.Basic
/-!
# Sandboxes

A sandbox maps the paths that a client writes to places at or below a root.  It never refuses a
path: what would lead out of the root leads to the root itself.
-/

namespace Strongroom

/-- A root, and the directory that relative paths are taken from. -/
structure Sandbox where
  root : Path
  current : Path
deriving DecidableEq, Repr

namespace Sandbox

/-- The sandbox of a root and a current directory, which is the root if it lies outside of it. -/
def of (root current : Path) : Sandbox :=
  let root := root.normalize
  let current := current.normalize
  ⟨root, if current.startsWith root then current else root⟩

/-- The names among some components. -/
def names (components : List Path.Component) : List Path.Component :=
  components.filter fun
    | .name _ => true
    | _ => false

/-- The place that a client's path leads to, before it is checked against the root. -/
def candidate (s : Sandbox) (raw : Path) : Path :=
  let cleaned := raw.normalize
  if cleaned.isAbsolute then
    (s.root ++ Path.ofComponents (names cleaned.components)).normalize
  else (s.current ++ cleaned).normalize

/-- The place at or below the root that a client's path leads to. -/
def resolve (s : Sandbox) (raw : Path) : Path :=
  if (s.candidate raw).startsWith s.root then s.candidate raw else s.root

/-- Whether a place is the root. -/
def isRoot (s : Sandbox) (place : Path) : Bool :=
  place.same s.root

/-- A place as clients see it: the root is `/`. -/
def display (s : Sandbox) (place : Path) : String :=
  match Path.below? s.root place with
  | some below => "/" ++ below
  | none => "/"

/-- The current directory as clients see it. -/
def workingDirectory (s : Sandbox) : String :=
  s.display s.current

end Sandbox

end Strongroom
