import Strongroom.Failure
import Strongroom.Registry.Record
/-!
# A registry of maps

Four maps, three keyed by username and one by token hash.  A key that is written again takes its
new record.
-/

namespace Strongroom

/-- A map from texts to records; of two pairs with one key the first one counts. -/
abbrev RecordMap (α : Type) := List (String × α)

namespace RecordMap

variable {α : Type}

/-- The record of a key. -/
def get? (m : RecordMap α) (key : String) : Option α :=
  (m.find? fun item => item.1 == key).map (·.2)

/-- The map without a key. -/
def erase (m : RecordMap α) (key : String) : RecordMap α :=
  m.filter fun item => item.1 != key

/-- The map with a record for a key. -/
def insert (m : RecordMap α) (key : String) (record : α) : RecordMap α :=
  (key, record) :: m.erase key

/-- Whether a key has a record. -/
def contains (m : RecordMap α) (key : String) : Bool :=
  (m.get? key).isSome

/-! ## Laws -/

theorem get?_erase (m : RecordMap α) (key other : String) :
    (m.erase key).get? other = if other = key then none else m.get? other := by
  unfold get? erase
  by_cases ho : other = key
  · simp [ho]
  · rw [if_neg ho, List.find?_filter]
    congr 2
    funext item
    by_cases hi : item.1 = other
    · simp [hi, ho]
    · simp [hi]

theorem get?_insert (m : RecordMap α) (key : String) (record : α) (other : String) :
    (m.insert key record).get? other = if other = key then some record else m.get? other := by
  by_cases ho : other = key
  · simp [insert, get?, ho]
  · have hk : ¬ key = other := fun h => ho h.symm
    have := get?_erase m key other
    simp only [get?, ho, if_false] at this ⊢
    simp [insert, hk, this]

end RecordMap

/-- The four maps. -/
structure Maps where
  credentials : RecordMap Credential
  accounts : RecordMap Account
  workingDirectories : RecordMap WorkingDirectory
  sessions : RecordMap Session
deriving DecidableEq, Repr

namespace Maps

/-- Maps without records. -/
def empty : Maps := ⟨[], [], [], []⟩

/-- Records a new user.  The usernames of the credential and of the account must both be free. -/
def createAccount (m : Maps) (credential : Credential) (account : Account)
    (directory : WorkingDirectory) : Except RegistryFailure Unit × Maps :=
  if m.credentials.contains credential.username || m.accounts.contains account.username then
    (.error (.duplicate credential.username), m)
  else
    (.ok (),
      { m with
        credentials := m.credentials.insert credential.username credential
        accounts := m.accounts.insert account.username account
        workingDirectories := m.workingDirectories.insert directory.username directory })

/-- The map of sessions without those of a user. -/
def sessionsWithout (m : Maps) (username : String) : RecordMap Session :=
  m.sessions.filter fun item => item.2.username != username

/-- Makes a session the only one of its user. -/
def replaceSession (m : Maps) (session : Session) : Except RegistryFailure Unit × Maps :=
  (.ok (),
    { m with
      sessions := RecordMap.insert (m.sessionsWithout session.username) session.tokenHash session })

end Maps

end Strongroom
