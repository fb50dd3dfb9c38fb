import Strongroom.Path.Sandbox
import Strongroom.Vault.Basic
/-!
# Root directories and working directories

Each user has a root directory under the storage root, and a working directory that counts only
while it lies at or below that root.
-/

namespace Strongroom

namespace Vault

/-- The place of a root directory of some name. -/
def rootPath (v : Vault) (rootId : String) : Path :=
  v.storageRoot ++ ⟨rootId⟩

/-- The root directory of a user. -/
def rootFor (v : Vault) (username : String) : Except Failure Path :=
  match v.registry.account? username with
  | some account => .ok (v.rootPath account.rootId)
  | none => .error (.notFound s!"could not find root for {username}")

/-- The working directory of a user with a given root. -/
def currentFor (v : Vault) (username : String) (root : Path) : Path :=
  match v.registry.workingDirectory? username with
  | some directory =>
    let stored : Path := ⟨directory.path⟩
    if stored.startsWith root then stored else root
  | none => root

end Vault

namespace Directories

/-- Records the working directory of a user. -/
def set (username : String) (place : Path) : Action Unit :=
  Action.tryRegistry fun r => r.putWorkingDirectory ⟨username, place.text⟩

/-- Moves a user back to the root. -/
def reset (username : String) : Action Path := do
  let root ← Action.check fun v => v.rootFor username
  set username root
  return root

/-- Forgets the working directory of a user. -/
def forget (username : String) : Action Unit :=
  Action.changeRegistry fun r => r.deleteWorkingDirectory username

/-- Where a change of directory leads, as the host and as the client know the place.  Only a
directory can be changed to. -/
def target (t : FileTree) (s : Sandbox) (raw : String) : Except Failure (Path × String) :=
  let place := s.resolve ⟨raw⟩
  let shown := s.display place
  if t.isDirectory place then .ok (place, shown)
  else .error (.notFound s!"{shown}: no such directory")

end Directories

end Strongroom
