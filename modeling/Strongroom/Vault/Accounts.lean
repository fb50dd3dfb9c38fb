import Strongroom.Access.Credentials
import Strongroom.Access.Sessions
/-!
# Requests about accounts

Signing up, logging in and out, and giving up an account.
-/

namespace Strongroom.Accounts

/-- The user of a token, who is moved back to the root. -/
def authenticate (token : String) : Action String :=
  Sessions.validate token

/-- The root directories of all accounts. -/
def roots (v : Vault) : List Path :=
  v.registry.accounts.map fun account => v.rootPath account.rootId

/-- Makes an account, as long as all accounts together stay within the total quota. -/
def signup (username password : String) : Action Unit := do
  Action.check fun v => v.quota.checkAggregate v.tree (roots v)
  let _ ← Credentials.createAccount username password

/-- Checks the password of a user and issues a token, at the user's root. -/
def login (username password : String) : Action String := do
  Credentials.verify username password
  let token ← Sessions.issue username
  let _ ← Directories.reset username
  return token

/-- Withdraws the tokens of the user that a token stands for. -/
def logout (token : String) : Action Unit := do
  let username ← Sessions.authorize token
  Sessions.invalidate username

/-- Removes the account record of a user. -/
def forgetAccount (username : String) : Action Unit :=
  Action.changeRegistry fun r => r.deleteAccount username

/-- The host without a directory and everything below it; it may be missing. -/
def removeAllOf (root : Path) (t : FileTree) : Except HostFault Unit × FileTree :=
  match t.removeAll root with
  | (.error .noEntry, t) => (.ok (), t)
  | result => result

/-- Removes a directory with everything below it; it may be missing. -/
def removeTree (root : Path) : Action Unit :=
  Action.tryTree HostFault.toFailure (removeAllOf root)

/-- Runs every step, also after one that failed, and then reports the first failure. -/
def runAll : List (Action Unit) → Action Unit
  | [] => return
  | step :: rest => do
    let first ← Action.outcome step
    let later ← Action.outcome (runAll rest)
    match first with
    | .error failure => throw failure
    | .ok () => Action.ofExcept later

/-- Removes every record of the user that a token stands for, and then the root directory, whose
place is looked up before its record is gone. -/
def deleteAccount (token : String) : Action Unit := do
  let username ← Sessions.authorize token
  let root ← Action.ask fun v => v.rootFor username
  runAll [
    Sessions.invalidate username,
    Credentials.remove username,
    forgetAccount username,
    Directories.forget username,
    match root with
    | .ok root => removeTree root
    | .error failure => Action.ofExcept (.error failure)]

end Strongroom.Accounts
