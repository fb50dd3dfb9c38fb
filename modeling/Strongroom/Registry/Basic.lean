import Strongroom.Registry.Maps
import Strongroom.Registry.Tables
/-!
# The registry

The records of all users, kept either in maps or in tables.  Both answer the same questions; what
tells them apart is which compound changes they refuse.
-/

namespace Strongroom

/-- A registry of records. -/
inductive Registry
  | maps (maps : Maps)
  | tables (tables : Tables)
deriving DecidableEq

namespace Registry

/-! ## Queries -/

/-- The credential of a user. -/
def credential? (r : Registry) (username : String) : Option Credential :=
  match r with
  | .maps m => m.credentials.get? username
  | .tables t => t.credentials.find? fun row => row.username == username

/-- The account of a user. -/
def account? (r : Registry) (username : String) : Option Account :=
  match r with
  | .maps m => m.accounts.get? username
  | .tables t => t.accounts.find? fun row => row.username == username

/-- The working directory of a user. -/
def workingDirectory? (r : Registry) (username : String) : Option WorkingDirectory :=
  match r with
  | .maps m => m.workingDirectories.get? username
  | .tables t => t.workingDirectories.find? fun row => row.username == username

/-- The session of a token hash. -/
def session? (r : Registry) (tokenHash : String) : Option Session :=
  match r with
  | .maps m => m.sessions.get? tokenHash
  | .tables t => (t.sessions.find? fun row => row.tokenHash == tokenHash).map (·.toSession)

/-- All accounts in the order of their usernames. -/
def accounts (r : Registry) : List Account :=
  match r with
  | .maps m => Account.sort (m.accounts.map (·.2))
  | .tables t => Account.sort t.accounts

/-! ## Changes to one table -/

/-- Removes the credential of a user. -/
def deleteCredential (r : Registry) (username : String) : Registry :=
  match r with
  | .maps m => .maps { m with credentials := m.credentials.erase username }
  | .tables t =>
    .tables { t with credentials := t.credentials.filter fun row => row.username != username }

/-- Removes the account of a user. -/
def deleteAccount (r : Registry) (username : String) : Registry :=
  match r with
  | .maps m => .maps { m with accounts := m.accounts.erase username }
  | .tables t =>
    .tables { t with accounts := t.accounts.filter fun row => row.username != username }

/-- Removes the working directory of a user. -/
def deleteWorkingDirectory (r : Registry) (username : String) : Registry :=
  match r with
  | .maps m => .maps { m with workingDirectories := m.workingDirectories.erase username }
  | .tables t =>
    .tables
      { t with workingDirectories := t.workingDirectories.filter fun row => row.username != username }

/-- Removes the session of a token hash. -/
def deleteSession (r : Registry) (tokenHash : String) : Registry :=
  match r with
  | .maps m => .maps { m with sessions := m.sessions.erase tokenHash }
  | .tables t =>
    .tables { t with sessions := t.sessions.filter fun row => row.tokenHash != tokenHash }

/-- Removes the sessions of a user. -/
def deleteSessionsFor (r : Registry) (username : String) : Registry :=
  match r with
  | .maps m => .maps { m with sessions := m.sessionsWithout username }
  | .tables t =>
    .tables { t with sessions := t.sessions.filter fun row => row.username != username }

/-- Records the working directory of a user. -/
def putWorkingDirectory (r : Registry) (directory : WorkingDirectory) :
    Except RegistryFailure Unit × Registry :=
  match r with
  | .maps m =>
    (.ok (), .maps
      { m with workingDirectories := m.workingDirectories.insert directory.username directory })
  | .tables t =>
    let (outcome, t) := t.transaction [Tables.upsertWorkingDirectory directory]
    (outcome, .tables t)

/-! ## Compound changes -/

/-- Records a new user: a credential, an account, and a working directory. -/
def createAccount (r : Registry) (credential : Credential) (account : Account)
    (directory : WorkingDirectory) : Except RegistryFailure Unit × Registry :=
  match r with
  | .maps m =>
    let (outcome, m) := m.createAccount credential account directory
    (outcome, .maps m)
  | .tables t =>
    let (outcome, t) := t.createAccount credential account directory
    (outcome, .tables t)

/-- Makes a session the only one of its user. -/
def replaceSession (r : Registry) (session : Session) : Except RegistryFailure Unit × Registry :=
  match r with
  | .maps m =>
    let (outcome, m) := m.replaceSession session
    (outcome, .maps m)
  | .tables t =>
    let (outcome, t) := t.replaceSession session
    (outcome, .tables t)

end Registry

end Strongroom
