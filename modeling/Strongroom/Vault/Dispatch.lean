import Strongroom.Registry.Opening
import Strongroom.Vault.Accounts
import Strongroom.Wire.Request
import Strongroom.Wire.Response
/-!
# Answering requests

Each request is carried out by the operation that it names, and answered by what that operation
returns or by its failure.
-/

namespace Strongroom

/-- Carries out a request. -/
def Request.perform : Request → Action Reply
  | .authenticate token => .username <$> Accounts.authenticate token
  | .signup username password => (fun () => .empty) <$> Accounts.signup username password
  | .login username password => .token <$> Accounts.login username password
  | .logout token => (fun () => .empty) <$> Accounts.logout token
  | .delete token => (fun () => .empty) <$> Accounts.deleteAccount token
  | .upload token path body => (fun () => .empty) <$> Files.upload token path body
  | .download token path => .body <$> Files.download token path
  | .list token path => .entries <$> Files.list token path
  | .mkdir token path => (fun () => .empty) <$> Files.mkdir token path
  | .remove token path => (fun () => .empty) <$> Files.remove token path
  | .pwd token => .path <$> Files.pwd token
  | .cd token path => (fun () => .empty) <$> Files.cd token path

namespace Vault

/-- Answers a request, and says what is left of the vault. -/
def dispatch (v : Vault) (request : Request) : Response × Vault :=
  match request.perform.runOn v with
  | (.ok reply, v) => (.ok reply, v)
  | (.error failure, v) => (.ofFailure failure, v)

/-- What is decided before a vault is opened. -/
structure Foundation where
  settings : Settings
  meter : Meter
  registry : Registry
  clock : UInt64
  entropy : Entropy

/-- Opens a vault on a host.  The storage root is made if it is missing, and is known by its path
without links from then on. -/
def openOn (tree : FileTree) (f : Foundation) : Except Failure Vault :=
  let root : Path := ⟨f.settings.startup.storageRoot⟩
  match tree.makeDirectories root with
  | (.error fault, _) => .error fault.toFailure
  | (.ok (), tree) =>
    match tree.canonicalPath root with
    | .error fault => .error fault.toFailure
    | .ok storageRoot =>
      .ok {
        quota := ⟨f.settings.limits, f.meter⟩
        ttlMillis := f.settings.startup.sessionTtlMillis
        storageRoot, tree
        registry := f.registry
        clock := f.clock
        entropy := f.entropy }

/-- How a mode measures disk usage; `run` asks the usage program of the host. -/
def meterOf (run : FileTree → Path → Except HostFault ProgramRun) : UsageMode → Meter
  | .walk => .walk
  | .du => .program run

/-- Opens the registry that the settings name, and a vault with it. -/
def openFrom (tree : FileTree) (settings : Settings)
    (run : FileTree → Path → Except HostFault ProgramRun) (clock : UInt64) (entropy : Entropy) :
    Except Failure Vault :=
  match Registry.openNamed tree settings.startup.databasePath with
  | .error failure => .error failure.toFailure
  | .ok (registry, tree) =>
    openOn tree ⟨settings, meterOf run settings.startup.diskUsage, registry, clock, entropy⟩

end Vault

end Strongroom
