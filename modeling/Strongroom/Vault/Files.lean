import Strongroom.Access.Sessions
/-!
# Requests about files

Each of them finds the caller of a token, maps the path into the caller's root, checks the limits
if it adds something, and then acts on the tree.
-/

namespace Strongroom

/-- One line of a listing. -/
structure Listed where
  name : String
  isDirectory : Bool
deriving DecidableEq, Repr

/-- The user behind a token, with the user's sandbox. -/
structure Caller where
  username : String
  sandbox : Sandbox

namespace Files

/-- The user behind a token, with a sandbox at the user's root and working directory. -/
def caller (token : String) : Action Caller := do
  let username ← Sessions.authorize token
  let root ← Action.check fun v => v.rootFor username
  let current ← Action.ask fun v => v.currentFor username root
  return ⟨username, Sandbox.of root current⟩

/-! ## Effects on the tree -/

/-- Writes a file into a directory that is there, over what is there unless it is a directory. -/
def write (t : FileTree) (p : Path) (shown : String) (body : Bytes) :
    Except Failure Unit × FileTree :=
  match p.parent? with
  | none => (.error (.notFound s!"{shown}: parent directory"), t)
  | some parent =>
    if t.isDirectory parent = false then (.error (.notFound s!"{shown}: parent directory"), t)
    else if t.isDirectory p then (.error (.conflict s!"{shown}: is a directory"), t)
    else
      let (outcome, t) := t.replaceFile parent p body
      (outcome.mapError (HostFault.toFailureAt shown), t)

/-- The bytes of a file. -/
def read (t : FileTree) (p : Path) (shown : String) : Except Failure Bytes :=
  if t.isDirectory p then .error (.notFound s!"{shown}: not a file")
  else (t.readFile p).mapError (HostFault.toFailureAt shown)

/-- The entries of a directory in the order of their names. -/
def listing (t : FileTree) (p : Path) (shown : String) : Except Failure (List Listed) :=
  match t.readDirectory p with
  | .error fault => .error (fault.toFailureAt shown)
  | .ok children =>
    .ok ((children.map fun child => ⟨child.1, child.2 == .directory⟩).mergeSort fun a b =>
      decide (a.name ≤ b.name))

/-- Makes a directory in a directory that is there. -/
def makeDirectory (t : FileTree) (p : Path) (shown : String) : Except Failure Unit × FileTree :=
  match t.makeDirectory p with
  | .ok t => (.ok (), t)
  | .error fault => (.error (fault.toFailureAt shown), t)

/-- Removes a file, a link, or an empty directory. -/
def removeEntry (t : FileTree) (p : Path) (shown : String) : Except Failure Unit × FileTree :=
  match t.locate false p with
  | .error fault => (.error (fault.toFailureAt shown), t)
  | .ok (_, entry) =>
    match if entry = .directory then t.removeDirectory p else t.removeFile p with
    | .ok t => (.ok (), t)
    | .error fault => (.error (fault.toFailureAt shown), t)

/-- An effect on the tree of the vault. -/
def onTree (effect : FileTree → Except Failure Unit × FileTree) : Action Unit :=
  ExceptT.mk fun v =>
    let (outcome, tree) := effect v.tree
    (outcome, { v with tree })

/-! ## Requests -/

/-- Stores a file. -/
def upload (token path : String) (body : Bytes) : Action Unit := do
  let caller ← caller token
  let place := caller.sandbox.resolve ⟨path⟩
  let shown := caller.sandbox.display place
  Action.check fun v =>
    v.quota.checkNameAndSize v.tree caller.sandbox.root (.file (saturate body.length)) place
  onTree fun t => write t place shown body

/-- Fetches a file. -/
def download (token path : String) : Action Bytes := do
  let caller ← caller token
  let place := caller.sandbox.resolve ⟨path⟩
  Action.check fun v => read v.tree place (caller.sandbox.display place)

/-- Lists a directory. -/
def list (token path : String) : Action (List Listed) := do
  let caller ← caller token
  let place := caller.sandbox.resolve ⟨path⟩
  Action.check fun v => listing v.tree place (caller.sandbox.display place)

/-- Makes a directory. -/
def mkdir (token path : String) : Action Unit := do
  let caller ← caller token
  let place := caller.sandbox.resolve ⟨path⟩
  let shown := caller.sandbox.display place
  Action.check fun v => v.quota.checkNewDirectory v.tree caller.sandbox.root place
  onTree fun t => makeDirectory t place shown

/-- Removes a file or an empty directory, but never the root. -/
def remove (token path : String) : Action Unit := do
  let caller ← caller token
  let place := caller.sandbox.resolve ⟨path⟩
  if caller.sandbox.isRoot place then throw (.validation .rootRemoval)
  onTree fun t => removeEntry t place (caller.sandbox.display place)

/-- The working directory as the client knows it. -/
def pwd (token : String) : Action String := do
  let caller ← caller token
  return caller.sandbox.workingDirectory

/-- Changes the working directory. -/
def cd (token path : String) : Action Unit := do
  let caller ← caller token
  let (place, _) ← Action.check fun v => Directories.target v.tree caller.sandbox path
  Directories.set caller.username place

end Files

end Strongroom
