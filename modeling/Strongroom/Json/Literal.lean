import Strongroom.Json.Fault
/-!
# Strings in JSON

Reading goes through the text once, with a state that says what the next character belongs to.
Writing escapes the quotation mark, the backslash and the control characters, and nothing else.
-/

namespace Strongroom.Json

/-! ## Reading -/

/-- What the next character of a string belongs to: the text itself, an escape, the `left` digits
that an escape still lacks, or the escape that has to follow a leading surrogate. -/
inductive Lexing
  | plain
  | escape
  | digits (left : Nat) (value : Nat) (lead : Option Nat)
  | pair (lead : Nat)
  | pairMark (lead : Nat)

/-- The value of a hexadecimal digit. -/
def hexValue? (c : Char) : Option Nat :=
  if c.isDigit then some (c.toNat - 48)
  else if 'a' ≤ c ∧ c ≤ 'f' then some (c.toNat - 87)
  else if 'A' ≤ c ∧ c ≤ 'F' then some (c.toNat - 55)
  else none

/-- The character of a one-letter escape. -/
def shortEscape? (c : Char) : Option Char :=
  if c = '"' then some '"'
  else if c = '\\' then some '\\'
  else if c = '/' then some '/'
  else if c = 'b' then some '\x08'
  else if c = 'f' then some '\x0c'
  else if c = 'n' then some '\n'
  else if c = 'r' then some '\r'
  else if c = 't' then some '\t'
  else none

/-- Whether at least `n` bytes of UTF-8 are left. -/
def hasBytes : Nat → List Char → Bool
  | 0, _ => true
  | _ + 1, [] => false
  | n + 1, c :: cs => hasBytes (n + 1 - c.utf8Size) cs

/-- A number that leads a surrogate pair. -/
def isLeading (n : Nat) : Bool := 0xD800 ≤ n && n ≤ 0xDBFF

/-- A number that ends a surrogate pair. -/
def isTrailing (n : Nat) : Bool := 0xDC00 ≤ n && n ≤ 0xDFFF

/-- What the four digits of an escape amount to: a state, with a character if one is complete. -/
def completeDigits (value : Nat) : Option Nat → Except Fault (Lexing × Option Char)
  | none =>
    if isTrailing value then malformed .loneSurrogate
    else if isLeading value then .ok (.pair value, none)
    else .ok (.plain, some (Char.ofNat value))
  | some lead =>
    if isTrailing value then
      .ok (.plain, some (Char.ofNat (0x10000 + (lead - 0xD800) * 0x400 + (value - 0xDC00))))
    else malformed .loneSurrogate

/-- Reads a string after its first quotation mark; `seen` holds its characters in reverse. -/
def readStringFrom : Lexing → List Char → List Char → Except Fault (List Char × List Char)
  | .plain, _, [] => malformed .endInString
  | .plain, seen, c :: cs =>
    if c = '"' then .ok (seen.reverse, cs)
    else if c = '\\' then readStringFrom .escape seen cs
    else if c.toNat < 0x20 then malformed .controlCharacter
    else readStringFrom .plain (c :: seen) cs
  | .escape, _, [] => malformed .endInString
  | .escape, seen, c :: cs =>
    if c = 'u' then readStringFrom (.digits 4 0 none) seen cs
    else
      match shortEscape? c with
      | some d => readStringFrom .plain (d :: seen) cs
      | none => malformed .invalidEscape
  | .digits _ _ _, _, [] => malformed .endInString
  | .digits left value lead, seen, c :: cs =>
    match hexValue? c with
    | none => if hasBytes left (c :: cs) then malformed .invalidEscape else malformed .endInString
    | some digit =>
      let value := 16 * value + digit
      if left ≤ 1 then
        match completeDigits value lead with
        | .error fault => .error fault
        | .ok (state, none) => readStringFrom state seen cs
        | .ok (state, some d) => readStringFrom state (d :: seen) cs
      else readStringFrom (.digits (left - 1) value lead) seen cs
  | .pair _, _, [] => malformed .endInString
  | .pair lead, seen, c :: cs =>
    if c = '\\' then readStringFrom (.pairMark lead) seen cs else malformed .unfinishedPair
  | .pairMark _, _, [] => malformed .endInString
  | .pairMark lead, seen, c :: cs =>
    if c = 'u' then readStringFrom (.digits 4 0 (some lead)) seen cs
    else malformed .unfinishedPair

/-- Reads a string after its first quotation mark. -/
def readString : Reader String := fun cs => do
  let (text, rest) ← readStringFrom .plain [] cs
  return (String.ofList text, rest)

/-- Passes over a string after its first quotation mark, whatever its escapes stand for. -/
def skipStringFrom : Lexing → List Char → Except Fault (List Char)
  | _, [] => malformed .endInString
  | .escape, c :: cs =>
    if c = 'u' then skipStringFrom (.digits 4 0 none) cs
    else if (shortEscape? c).isSome then skipStringFrom .plain cs
    else malformed .invalidEscape
  | .digits left _ _, c :: cs =>
    if (hexValue? c).isNone then
      if hasBytes left (c :: cs) then malformed .invalidEscape else malformed .endInString
    else if left ≤ 1 then skipStringFrom .plain cs
    else skipStringFrom (.digits (left - 1) 0 none) cs
  | _, c :: cs =>
    if c = '"' then .ok cs
    else if c = '\\' then skipStringFrom .escape cs
    else if c.toNat < 0x20 then malformed .controlCharacter
    else skipStringFrom .plain cs

/-! ## Writing -/

/-- One digit of an escape. -/
def escapeDigit (n : Nat) : Char :=
  if n < 10 then Char.ofNat (48 + n) else Char.ofNat (87 + n)

/-- One character inside quotation marks. -/
def writeChar (c : Char) : List Char :=
  if c = '"' then ['\\', '"']
  else if c = '\\' then ['\\', '\\']
  else if c = '\x08' then ['\\', 'b']
  else if c = '\t' then ['\\', 't']
  else if c = '\n' then ['\\', 'n']
  else if c = '\x0c' then ['\\', 'f']
  else if c = '\r' then ['\\', 'r']
  else if c.toNat < 0x20 then
    ['\\', 'u', '0', '0', escapeDigit (c.toNat / 16), escapeDigit (c.toNat % 16)]
  else [c]

/-- A string with its quotation marks. -/
def writeString (text : String) : List Char :=
  '"' :: text.toList.flatMap writeChar ++ ['"']

end Strongroom.Json
