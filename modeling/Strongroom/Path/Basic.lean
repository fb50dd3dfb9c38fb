/-!
# Paths

A path is a text that slashes cut into pieces.  Empty pieces and inner `.` pieces mean nothing;
what is left are the components of the path.  Paths are compared, joined and put into normal form
by their components, without looking at any directory.
-/

namespace Strongroom

/-- The name of a directory entry. -/
abbrev Name := String

/-- A path as it is written. -/
structure Path where
  text : String
deriving DecidableEq, Repr

namespace Path

/-- A step of a path: to the root, to the same place, to the parent, or to an entry. -/
inductive Component
  | root
  | here
  | up
  | name (entry : Name)
deriving DecidableEq, Repr

/-- How a path starts: at the root, with a `.` of its own, or with a piece like any other. -/
inductive Lead
  | root
  | here
  | none
deriving DecidableEq, Repr

/-! ## Pieces -/

/-- The pieces between the slashes of a text; `n` slashes make `n + 1` pieces. -/
def cut : List Char → List (List Char)
  | [] => [[]]
  | c :: cs =>
    if c = '/' then [] :: cut cs
    else
      match cut cs with
      | [] => [[c]]
      | piece :: pieces => (c :: piece) :: pieces

/-- The pieces with slashes between them. -/
def paste : List Name → String
  | [] => ""
  | [piece] => piece
  | piece :: pieces => piece ++ "/" ++ paste pieces

theorem cut_ne_nil (text : List Char) : cut text ≠ [] := by
  cases text with
  | nil => simp [cut]
  | cons c cs =>
    simp only [cut]
    split
    · simp
    · split <;> simp

/-- The pieces of a path. -/
def pieces (p : Path) : List Name :=
  (cut p.text.toList).map String.ofList

/-- A piece that says nothing about where a path leads. -/
def isIdle (piece : Name) : Bool :=
  piece == "" || piece == "."

/-- The component that a piece stands for. -/
def component? (piece : Name) : Option Component :=
  if isIdle piece then none else if piece = ".." then some .up else some (.name piece)

/-- How a path starts, and the pieces after that. -/
def split (p : Path) : Lead × List Name :=
  match p.pieces with
  | "" :: second :: rest => (.root, second :: rest)
  | "." :: rest => (.here, rest)
  | pieces => (.none, pieces)

/-- The component of a start. -/
def Lead.components : Lead → List Component
  | .root => [.root]
  | .here => [.here]
  | .none => []

/-- The components of a path. -/
def components (p : Path) : List Component :=
  p.split.1.components ++ p.split.2.filterMap component?

/-- Whether a path starts at the root. -/
def isAbsolute (p : Path) : Bool :=
  p.split.1 = .root

/-! ## Building paths -/

/-- A component as a piece. -/
def Component.piece : Component → Name
  | .root => ""
  | .here => "."
  | .up => ".."
  | .name entry => entry

/-- The path that has these components, the root being at most the first of them. -/
def ofComponents : List Component → Path
  | .root :: rest => ⟨"/" ++ paste (rest.map Component.piece)⟩
  | components => ⟨paste (components.map Component.piece)⟩

/-- The path with the start `lead` and the pieces `rest` after it. -/
def ofPieces : Lead → List Name → Path
  | .root, rest => ⟨"/" ++ paste rest⟩
  | .here, [] => ⟨"."⟩
  | .here, rest => ⟨"./" ++ paste rest⟩
  | .none, rest => ⟨paste rest⟩

/-- A second path taken from a first one; an absolute path stays what it is. -/
def join (base next : Path) : Path :=
  if next.isAbsolute || base.text = "" then next
  else if base.text.toList.getLast? = some '/' then ⟨base.text ++ next.text⟩
  else ⟨base.text ++ "/" ++ next.text⟩

instance : Append Path := ⟨join⟩

/-- Pieces without the idle ones at the end. -/
def trimPieces (pieces : List Name) : List Name :=
  (pieces.reverse.dropWhile isIdle).reverse

/-- The path without its last component; the root and the empty path have no parent. -/
def parent? (p : Path) : Option Path :=
  let (lead, rest) := p.split
  match trimPieces rest with
  | [] => if lead = .here then some ⟨""⟩ else none
  | rest => some (ofPieces lead (trimPieces rest.dropLast))

/-- The last component, if it names an entry. -/
def fileName? (p : Path) : Option Name :=
  match p.components.getLast? with
  | some (.name entry) => some entry
  | _ => none

/-! ## Normal form -/

/-- One component more on a stack, whose top is the last component so far: `..` takes back a name,
and has no effect at the root. -/
def push : List Component → Component → List Component
  | stack, .here => stack
  | .name _ :: stack, .up => stack
  | .root :: stack, .up => .root :: stack
  | stack, component => component :: stack

/-- The components of the normal form. -/
def normalComponents (p : Path) : List Component :=
  (p.components.foldl push []).reverse

/-- The same path without `.` and without any `..` that can be taken back; `.` if nothing is
left. -/
def normalize (p : Path) : Path :=
  match p.normalComponents with
  | [] => ⟨"."⟩
  | components => ofComponents components

/-! ## Comparing paths -/

/-- Whether a path begins with the components of another one. -/
def startsWith (p base : Path) : Bool :=
  base.components.isPrefixOf p.components

/-- Whether two paths have the same components. -/
def same (p q : Path) : Bool :=
  p.components == q.components

/-- The number of components after those of `base`; zero for a path that does not begin with
them. -/
def depthBelow (base p : Path) : Nat :=
  if p.startsWith base then p.components.length - base.components.length else 0

/-- Pieces after the first `n` that are not idle. -/
def dropPieces : Nat → List Name → List Name
  | 0, pieces => pieces
  | _ + 1, [] => []
  | n + 1, piece :: pieces =>
    if isIdle piece then dropPieces (n + 1) pieces else dropPieces n pieces

/-- What follows the components of `base`, as it is written but without idle pieces at its ends;
nothing for a path that does not begin with them. -/
def below? (base p : Path) : Option String :=
  if p.startsWith base then
    let (lead, rest) := p.split
    let count := base.components.length
    if count = 0 then some (ofPieces lead (trimPieces rest)).text
    else
      let rest := dropPieces (count - lead.components.length) rest
      some (paste (trimPieces (rest.dropWhile isIdle)))
  else none

end Path

end Strongroom
