/-!
# Records

What is remembered of each user: how the password is checked, which root directory is theirs,
where they are working, and which token they are using.
-/

namespace Strongroom

/-- The salted hash of a user's password. -/
structure Credential where
  username : String
  salt : String
  hash : String
deriving DecidableEq, Repr

/-- The root directory of a user, by its name under the storage root. -/
structure Account where
  username : String
  rootId : String
deriving DecidableEq, Repr

/-- The directory from which a user's relative paths are taken. -/
structure WorkingDirectory where
  username : String
  path : String
deriving DecidableEq, Repr

/-- A token in use, by its hash, and the time in milliseconds at which it expires. -/
structure Session where
  tokenHash : String
  username : String
  expiresAt : UInt64
deriving DecidableEq, Repr

/-- Accounts in the order of their usernames. -/
def Account.sort (accounts : List Account) : List Account :=
  accounts.mergeSort fun a b => decide (a.username ≤ b.username)

end Strongroom
