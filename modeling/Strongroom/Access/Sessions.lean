import Strongroom.Access.Directories
import Strongroom.Text.Blank
/-!
# Sessions

A token stands for its user until it expires, another one is issued to the user, or it is
withdrawn.  Only the hash of a token is remembered.  A token that is found to have expired is
forgotten at once.
-/

namespace Strongroom.Sessions

/-- The time at which a session that starts now expires. -/
def expiry (now : UInt64) (ttlMillis : Nat) : UInt64 :=
  saturatingAdd now (saturate ttlMillis)

/-- A token as it is looked up: without blanks at its ends. -/
def presented (token : String) : String :=
  String.ofList (Text.trim token.toList)

/-- Issues a token to a user, which takes the place of an earlier one. -/
def issue (username : String) : Action String := do
  let token ← Action.draw Entropy.token
  let expiresAt ← Action.ask fun v => expiry v.clock v.ttlMillis
  Action.tryRegistry fun r => r.replaceSession ⟨hashToken token, username, expiresAt⟩
  return token

/-- The user that a token stands for. -/
def authorize (token : String) : Action String := do
  let token := presented token
  if token = "" then throw (.authentication .missingToken)
  let hash := hashToken token
  match ← Action.ask fun v => v.registry.session? hash with
  | none => throw (.authentication .invalidToken)
  | some session =>
    if session.expiresAt ≤ (← Action.ask (·.clock)) then
      Action.changeRegistry fun r => r.deleteSession hash
      throw (.authentication .expired)
    return session.username

/-- The user that a token stands for, who is moved back to the root. -/
def validate (token : String) : Action String := do
  let username ← authorize token
  let _ ← Directories.reset username
  return username

/-- Withdraws the tokens of a user. -/
def invalidate (username : String) : Action Unit :=
  Action.changeRegistry fun r => r.deleteSessionsFor username

end Strongroom.Sessions
