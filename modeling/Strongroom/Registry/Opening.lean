import Strongroom.FileTree.Calls
import Strongroom.Registry.Basic
/-!
# Opening the registry

An operator names the file that the tables are kept in, or asks for maps that are kept nowhere.
-/

namespace Strongroom.Registry

/-- The name that stands for no file. -/
def keptNowhere : String := ":memory:"

/-- How many bytes longer than the file itself the name of its journal is. -/
def journalBytes : Nat := 8

/-- The host with the file of the tables, which is made if it is missing.  Its directory has to be
there, and its name has to leave room for the name of the journal beside it. -/
def openFile (t : FileTree) (p : Path) : Except HostFault FileTree := do
  let slot ← t.slot p
  let location ← slot.place fun _ => .isDirectory
  if slot.slash then throw .isDirectory
  match location.head? with
  | some name => if FileTree.maxNameBytes < name.utf8ByteSize + journalBytes then throw .nameTooLong
  | none => pure ()
  match t.get? location with
  | none => return t.insert location (.file [])
  | some (.file []) => return t
  | some _ => throw .isDirectory

/-- The registry that a name asks for, and the host after it is opened. -/
def openNamed (t : FileTree) (name : String) : Except RegistryFailure (Registry × FileTree) :=
  if name = keptNowhere then .ok (.maps .empty, t)
  else
    match openFile t ⟨name⟩ with
    | .ok t => .ok (.tables .empty, t)
    | .error fault => .error (.database s!"unable to open database file: {fault.message}")

end Strongroom.Registry
