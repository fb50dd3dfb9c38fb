import Strongroom.Bytes.Sha256
/-!
# Random values

Tokens, salts and names of root directories are drawn one after the other from a stream of random
bytes.
-/

namespace Strongroom

/-- A stream of random bytes, of which the first `used` have been drawn. -/
structure Entropy where
  byte : Nat → UInt8
  used : Nat

namespace Entropy

/-- How many bytes make a token. -/
def tokenBytes : Nat := 32

/-- How many bytes make a salt. -/
def saltBytes : Nat := 16

/-- How many bytes make the name of a root directory. -/
def rootIdBytes : Nat := 8

/-- The next `n` bytes of the stream. -/
def next (e : Entropy) (n : Nat) : Bytes :=
  (List.range n).map fun i => e.byte (e.used + i)

/-- The stream after its next `n` bytes. -/
def skip (e : Entropy) (n : Nat) : Entropy :=
  { e with used := e.used + n }

/-- A new token. -/
def token (e : Entropy) : String × Entropy :=
  (Bytes.toHex (e.next tokenBytes), e.skip tokenBytes)

/-- A new salt. -/
def salt (e : Entropy) : String × Entropy :=
  (Bytes.toHex (e.next saltBytes), e.skip saltBytes)

/-- A new name for a root directory. -/
def rootId (e : Entropy) : String × Entropy :=
  ("r" ++ Bytes.toHex (e.next rootIdBytes), e.skip rootIdBytes)

end Entropy

/-- The hash under which a token is remembered. -/
def hashToken (token : String) : String :=
  Bytes.toHex (Sha256.hash (Bytes.ofText token))

/-- The hash by which a password is checked: of the password with the salt after it. -/
def hashPassword (password salt : String) : String :=
  Bytes.toHex (Sha256.hash (Bytes.ofText password ++ Bytes.ofText salt))

end Strongroom
