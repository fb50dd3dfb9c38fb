import Strongroom.Bytes.Base64
import Strongroom.Datum.Basic
/-!
# What can be wrong with a line of JSON

Either the text is not JSON, or the value that it spells is not the one asked for.
-/

namespace Strongroom.Json

/-- Why a text is not JSON. -/
inductive Malformed
  | endInValue
  | endInString
  | endInList
  | endInObject
  | expectedValue
  | expectedIdent
  | expectedColon
  | expectedListEnd
  | expectedObjectEnd
  | keyNotString
  | trailingComma
  | trailingCharacters
  | invalidNumber
  | numberOutOfRange
  | invalidEscape
  | loneSurrogate
  | unfinishedPair
  | controlCharacter
  | tooDeep
deriving DecidableEq, Repr

/-- The wording of each complaint. -/
def Malformed.message : Malformed → String
  | .endInValue => "EOF while parsing a value"
  | .endInString => "EOF while parsing a string"
  | .endInList => "EOF while parsing a list"
  | .endInObject => "EOF while parsing an object"
  | .expectedValue => "expected value"
  | .expectedIdent => "expected ident"
  | .expectedColon => "expected `:`"
  | .expectedListEnd => "expected `,` or `]`"
  | .expectedObjectEnd => "expected `,` or `\x7d`"
  | .keyNotString => "key must be a string"
  | .trailingComma => "trailing comma"
  | .trailingCharacters => "trailing characters"
  | .invalidNumber => "invalid number"
  | .numberOutOfRange => "number out of range"
  | .invalidEscape => "invalid escape"
  | .loneSurrogate => "lone leading surrogate in hex escape"
  | .unfinishedPair => "unexpected end of hex escape"
  | .controlCharacter => "control character (\\u0000-\\u001F) found while parsing a string"
  | .tooDeep => "recursion limit exceeded"

/-- What is wrong with a line. -/
inductive Fault
  | malformed (cause : Malformed)
  | mismatch (cause : Datum.Mismatch)
  | body (cause : Base64.Fault)

/-- In messages about JSON an absent value is `null`, and very large and very small numbers have
an exponent. -/
def wording : Datum.Wording where
  nothing := "null"
  real := .compact

/-- The text of a fault: what is wrong, and not where.  The line and the column at which a reader stopped,
which may be told after it, are left out. -/
def Fault.message : Fault → String
  | .malformed cause => cause.message
  | .mismatch cause => cause.message wording
  | .body cause => s!"invalid base64 body: {cause.message}"

/-- A reader takes a value off the front of a text. -/
abbrev Reader (α : Type) := List Char → Except Fault (α × List Char)

/-- A refusal because the text is not JSON. -/
def malformed (cause : Malformed) : Except Fault α :=
  .error (.malformed cause)

/-- A refusal because the value does not fit. -/
def mismatch (cause : Datum.Mismatch) : Except Fault α :=
  .error (.mismatch cause)

/-- A decoding step as a step of a reader. -/
def liftMismatch : Except Datum.Mismatch α → Except Fault α
  | .ok value => .ok value
  | .error cause => mismatch cause

end Strongroom.Json
