import Strongroom.Access.Directories
import Strongroom.Bytes.Match
import Strongroom.Text.Blank
/-!
# Credentials

Which usernames and passwords are accepted, how an account is made, and how a password is checked.
An account comes with a root directory of its own; if its records are refused the directory is
removed again.
-/

namespace Strongroom.Credentials

/-! ## Rules -/

/-- Whether a username may hold a character. -/
def allowedInUsername (c : Char) : Bool :=
  !(Text.isBlank c || Text.isControl c || c == '/')

/-- Refuses a username that is empty, longer in bytes than allowed, or hard to show. -/
def checkUsername (maxLength : UInt64) (username : String) : Except ValidationFailure Unit :=
  if username = "" then .error (.invalidUsername "username cannot be empty")
  else if maxLength.toNat < username.utf8ByteSize then
    .error (.invalidUsername s!"username cannot be longer than {maxLength.toNat} bytes")
  else if username.toList.all allowedInUsername then .ok ()
  else
    .error (.invalidUsername "username cannot contain whitespace, control characters, or '/'")

/-- Refuses a password without a digit, or without letters of both cases. -/
def checkPassword (password : String) : Except ValidationFailure Unit :=
  if password.toList.any Char.isDigit = false then
    .error (.weakPassword "password must contain numbers")
  else if (password.toList.any Char.isLower && password.toList.any Char.isUpper) = false then
    .error (.weakPassword "password must contain upper and lowercase letters")
  else .ok ()

/-! ## Steps of making an account -/

/-- Refuses a username that has a credential. -/
def refuseTaken (username : String) : Action Unit :=
  Action.check fun v =>
    match v.registry.credential? username with
    | some _ => .error (.conflict s!"username {username} already exists")
    | none => .ok ()

/-- Makes a root directory, which must not be there yet. -/
def makeRoot (root : Path) : Action Unit :=
  Action.tryTree HostFault.toFailure (Action.orElseSame fun t => t.makeDirectory root)

/-- Records a new user. -/
def enter (credential : Credential) (account : Account) (root : Path) : Action Unit :=
  Action.tryRegistry fun r =>
    r.createAccount credential account ⟨credential.username, root.text⟩

/-- Removes a root directory whose records were refused. -/
def dropRoot (root : Path) : Action Unit :=
  Action.tryTree HostFault.toFailure (Action.orElseSame fun t => t.removeDirectory root)

/-! ## Operations -/

/-- Makes an account and returns the name of its root directory. -/
def createAccount (username password : String) : Action String := do
  let maxLength ← Action.ask (·.quota.limits.maxUsernameLength)
  Action.ofExcept ((checkUsername maxLength username).mapError .validation)
  refuseTaken username
  Action.ofExcept ((checkPassword password).mapError .validation)
  let salt ← Action.draw Entropy.salt
  let rootId ← Action.draw Entropy.rootId
  let root ← Action.ask (·.rootPath rootId)
  makeRoot root
  match ← Action.outcome (enter ⟨username, salt, hashPassword password salt⟩ ⟨username, rootId⟩ root)
    with
  | .ok () => return rootId
  | .error failure =>
    let _ ← Action.outcome (dropRoot root)
    throw failure

/-- Checks the password of a user. -/
def verify (username password : String) : Action Unit :=
  Action.check fun v =>
    match v.registry.credential? username with
    | none => .error (.notFound s!"username {username} does not exist")
    | some credential =>
      if Bytes.isMatch (Bytes.ofText (hashPassword password credential.salt))
          (Bytes.ofText credential.hash) then .ok ()
      else .error (.authentication .invalidCredentials)

/-- Forgets the credential of a user. -/
def remove (username : String) : Action Unit :=
  Action.changeRegistry fun r => r.deleteCredential username

end Strongroom.Credentials
