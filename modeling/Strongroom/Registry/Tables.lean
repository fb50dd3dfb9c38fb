import Strongroom.Failure
import Strongroom.Registry.Record
/-!
# A registry of tables

Four tables with key constraints.  Statements change the tables one after the other; a statement
that would break a constraint is refused, and a transaction with a refused statement leaves every
table as it was.  Numbers are stored in signed columns.
-/

namespace Strongroom

/-- A row of the table of sessions. -/
structure SessionRow where
  tokenHash : String
  username : String
  expiresAt : Int64
deriving DecidableEq

/-- The row of a session; the expiry keeps its bits. -/
def SessionRow.ofSession (s : Session) : SessionRow :=
  ⟨s.tokenHash, s.username, s.expiresAt.toInt64⟩

/-- The session of a row. -/
def SessionRow.toSession (row : SessionRow) : Session :=
  ⟨row.tokenHash, row.username, row.expiresAt.toUInt64⟩

/-- The four tables. -/
structure Tables where
  credentials : List Credential
  accounts : List Account
  workingDirectories : List WorkingDirectory
  sessions : List SessionRow
deriving DecidableEq

namespace Tables

/-- Tables without rows. -/
def empty : Tables := ⟨[], [], [], []⟩

/-- A change to the tables, which a constraint may refuse. -/
abbrev Statement := Tables → Except RegistryFailure Tables

/-! ## Statements -/

/-- A new credential; usernames are unique. -/
def insertCredential (credential : Credential) : Statement := fun t =>
  if t.credentials.any fun row => row.username == credential.username then
    .error (.duplicate credential.username)
  else .ok { t with credentials := t.credentials ++ [credential] }

/-- A new account; usernames are unique, and so are root directories. -/
def insertAccount (account : Account) : Statement := fun t =>
  if t.accounts.any fun row => row.username == account.username || row.rootId == account.rootId then
    .error (.duplicate account.username)
  else .ok { t with accounts := t.accounts ++ [account] }

/-- A working directory, which takes the place of the user's former one. -/
def upsertWorkingDirectory (directory : WorkingDirectory) : Statement := fun t =>
  if t.workingDirectories.any fun row => row.username == directory.username then
    .ok { t with
      workingDirectories := t.workingDirectories.map fun row =>
        if row.username == directory.username then directory else row }
  else .ok { t with workingDirectories := t.workingDirectories ++ [directory] }

/-- Removes the sessions of a user. -/
def deleteSessionsOf (username : String) : Statement := fun t =>
  .ok { t with sessions := t.sessions.filter fun row => row.username != username }

/-- A new session; token hashes are unique. -/
def insertSession (session : Session) : Statement := fun t =>
  if t.sessions.any fun row => row.tokenHash == session.tokenHash then
    .error (.database "UNIQUE constraint failed: sessions.token_hash")
  else .ok { t with sessions := t.sessions ++ [.ofSession session] }

/-! ## Transactions -/

/-- Runs statements one after the other up to the first refused one.  What the statements before
that one did stays in the tables. -/
def runStatements : List Statement → Tables → Except RegistryFailure Unit × Tables
  | [], t => (.ok (), t)
  | statement :: rest, t =>
    match statement t with
    | .ok t => runStatements rest t
    | .error failure => (.error failure, t)

/-- Runs statements and takes all of them back if one was refused. -/
def transaction (statements : List Statement) (t : Tables) :
    Except RegistryFailure Unit × Tables :=
  match runStatements statements t with
  | (.ok (), after) => (.ok (), after)
  | (.error failure, _) => (.error failure, t)

/-- What was done is kept if no statement was refused. -/
theorem transaction_of_done {statements : List Statement} {t after : Tables}
    (h : runStatements statements t = (.ok (), after)) : t.transaction statements = (.ok (), after) := by
  rw [transaction, h]

/-- A refused transaction leaves the tables as they were, whatever was done before the refused statement. -/
theorem transaction_of_error {statements : List Statement} {t : Tables} {failure : RegistryFailure}
    (h : (runStatements statements t).1 = .error failure) :
    t.transaction statements = (.error failure, t) := by
  unfold transaction
  split
  · rename_i done
    rw [done] at h
    cases h
  · rename_i refused
    rw [refused] at h
    cases h
    rfl

/-- Records a new user. -/
def createAccount (t : Tables) (credential : Credential) (account : Account)
    (directory : WorkingDirectory) : Except RegistryFailure Unit × Tables :=
  t.transaction
    [insertCredential credential, insertAccount account, upsertWorkingDirectory directory]

/-- Makes a session the only one of its user. -/
def replaceSession (t : Tables) (session : Session) : Except RegistryFailure Unit × Tables :=
  t.transaction [deleteSessionsOf session.username, insertSession session]

end Tables

end Strongroom
