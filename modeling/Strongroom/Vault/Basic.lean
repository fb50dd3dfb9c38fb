import Strongroom.Access.Entropy
import Strongroom.Quota
import Strongroom.Registry.Basic
/-!
# The vault

The state that requests work on: the tree of the host, the registry of records, the clock, and the
stream of random bytes, together with what the operator has decided.  An action may change the
state even if it fails.
-/

namespace Strongroom

/-- Everything that requests read and change. -/
structure Vault where
  quota : Quota
  ttlMillis : Nat
  storageRoot : Path
  tree : FileTree
  registry : Registry
  clock : UInt64
  entropy : Entropy

/-- A step that reads and changes the vault and may fail. -/
abbrev Action (α : Type) := ExceptT Failure (StateM Vault) α

namespace Action

/-- What an action does to a vault: its outcome and the vault after it. -/
def runOn (action : Action α) (v : Vault) : Except Failure α × Vault :=
  (ExceptT.run action).run v

/-- An outcome that does not depend on the vault. -/
def ofExcept (outcome : Except Failure α) : Action α :=
  ExceptT.mk (pure outcome)

/-- A question to the vault. -/
def ask (question : Vault → α) : Action α :=
  ExceptT.lift (StateT.get >>= fun v => pure (question v))

/-- A question to the vault that may fail. -/
def check (question : Vault → Except Failure α) : Action α :=
  ExceptT.mk (StateT.get >>= fun v => pure (question v))

/-- A change to the registry that cannot fail. -/
def changeRegistry (change : Registry → Registry) : Action Unit :=
  ExceptT.mk fun v => (.ok (), { v with registry := change v.registry })

/-- A change to the registry that may be refused. -/
def tryRegistry (change : Registry → Except RegistryFailure Unit × Registry) : Action Unit :=
  ExceptT.mk fun v =>
    let (outcome, registry) := change v.registry
    (outcome.mapError RegistryFailure.toFailure, { v with registry })

/-- A change to the tree that the host may refuse, with the failure to report then. -/
def tryTree (report : HostFault → Failure) (change : FileTree → Except HostFault Unit × FileTree) :
    Action Unit :=
  ExceptT.mk fun v =>
    let (outcome, tree) := change v.tree
    (outcome.mapError report, { v with tree })

/-- A value drawn from the random bytes. -/
def draw (take : Entropy → α × Entropy) : Action α :=
  ExceptT.mk fun v =>
    let (value, entropy) := take v.entropy
    (.ok value, { v with entropy })

/-- The outcome of an action, as a value. -/
def outcome (action : Action α) : Action (Except Failure α) :=
  ExceptT.mk fun v =>
    let (result, v) := action.runOn v
    (.ok result, v)

/-- A change to the tree that leaves it as it is when it is refused. -/
def orElseSame (change : FileTree → Except HostFault FileTree) (t : FileTree) :
    Except HostFault Unit × FileTree :=
  match change t with
  | .ok t => (.ok (), t)
  | .error fault => (.error fault, t)

end Action

end Strongroom
