import Strongroom.Datum.Decode
import Strongroom.Json.Literal
import Strongroom.Json.Number
/-!
# Reading JSON

A reader takes one value off the front of a text.  Lists and objects are read by loops that take
the reader of their parts as an argument, so that the same loops read free-form values and values
whose form is known.  Faults come in the order in which a single pass over the text meets them.
-/

namespace Strongroom.Json

/-- How deeply lists and objects may be nested. -/
def nestingLimit : Nat := 127

/-- The white space of JSON. -/
def isSpace (c : Char) : Bool :=
  c = ' ' || c = '\n' || c = '\t' || c = '\r'

/-- A text from its first character that is not white space. -/
def skipSpace (cs : List Char) : List Char :=
  cs.dropWhile isSpace

/-- The remaining letters of a word. -/
def readWord : List Char → List Char → Except Fault (List Char)
  | [], cs => .ok cs
  | _ :: _, [] => malformed .endInValue
  | e :: es, c :: cs => if c = e then readWord es cs else malformed .expectedIdent

/-- The colon after a key. -/
def readColon (cs : List Char) : Except Fault (List Char) :=
  match skipSpace cs with
  | ':' :: rest => .ok rest
  | _ :: _ => malformed .expectedColon
  | [] => malformed .endInObject

/-! ## Lists and objects -/

/-- Where the next item of a list starts, or the text after the list. -/
def nextItem (first : Bool) (cs : List Char) : Except Fault (Option (List Char) × List Char) :=
  match skipSpace cs with
  | [] => malformed .endInList
  | ']' :: rest => .ok (none, rest)
  | ',' :: rest =>
    if first then .ok (some (',' :: rest), [])
    else
      match skipSpace rest with
      | [] => malformed .endInValue
      | ']' :: _ => malformed .trailingComma
      | rest => .ok (some rest, [])
  | c :: rest => if first then .ok (some (c :: rest), []) else malformed .expectedListEnd

/-- The items of a list up to and with its closing bracket; `done` holds the items before it in
reverse.  No more items than `fuel` are read. -/
def readItems (item : Reader α) : Nat → Bool → List α → Reader (List α)
  | 0, _, _, _ => malformed .endInList
  | fuel + 1, first, done, cs => do
    match ← nextItem first cs with
    | (none, rest) => return (done.reverse, rest)
    | (some start, _) =>
      let (value, rest) ← item start
      readItems item fuel false (value :: done) rest

/-- The end of a list whose items have all been read. -/
def closeList (cs : List Char) : Except Fault (List Char) :=
  match skipSpace cs with
  | ']' :: rest => .ok rest
  | ',' :: rest =>
    match skipSpace rest with
    | ']' :: _ => malformed .trailingComma
    | _ => malformed .trailingCharacters
  | _ :: _ => malformed .trailingCharacters
  | [] => malformed .endInList

/-- The next key of an object with the text after it, or the text after the object. -/
def nextKey (first : Bool) (cs : List Char) : Except Fault (Option String × List Char) :=
  match skipSpace cs with
  | [] => malformed .endInObject
  | '\x7d' :: rest => .ok (none, rest)
  | ',' :: rest =>
    if first then malformed .keyNotString
    else
      match skipSpace rest with
      | '"' :: rest => do
        let (key, rest) ← readString rest
        return (some key, rest)
      | '\x7d' :: _ => malformed .trailingComma
      | _ :: _ => malformed .keyNotString
      | [] => malformed .endInValue
  | '"' :: rest =>
    if first then do
      let (key, rest) ← readString rest
      return (some key, rest)
    else malformed .expectedObjectEnd
  | _ :: _ => if first then malformed .keyNotString else malformed .expectedObjectEnd

/-- The members of an object up to and with its closing brace.  Each member changes a state; it is
read from the text that follows its key. -/
def readMembers (member : σ → String → Reader σ) : Nat → Bool → σ → Reader σ
  | 0, _, _, _ => malformed .endInObject
  | fuel + 1, first, state, cs => do
    match ← nextKey first cs with
    | (none, rest) => return (state, rest)
    | (some key, rest) =>
      let (state, rest) ← member state key rest
      readMembers member fuel false state rest

/-- A member whose value may be anything, put in front of those before it. -/
def anyMember (value : Reader Datum) (members : List (String × Datum)) (key : String) :
    Reader (List (String × Datum)) := fun cs => do
  let (datum, rest) ← value (← readColon cs)
  return ((key, datum) :: members, rest)

/-! ## Values of any form -/

/-- A value; lists and objects are refused unless there is a reader for their parts. -/
def readValueWith (parts : Option (Reader Datum)) : Reader Datum := fun cs =>
  match skipSpace cs with
  | [] => malformed .endInValue
  | 'n' :: rest => do return (.null, ← readWord ['u', 'l', 'l'] rest)
  | 't' :: rest => do return (.bool true, ← readWord ['r', 'u', 'e'] rest)
  | 'f' :: rest => do return (.bool false, ← readWord ['a', 'l', 's', 'e'] rest)
  | '-' :: rest => readNumber true rest
  | '"' :: rest => do
    let (text, rest) ← readString rest
    return (.text text, rest)
  | '[' :: rest =>
    match parts with
    | none => malformed .tooDeep
    | some value => do
      let (items, rest) ← readItems value (rest.length + 1) true [] rest
      return (.list items, rest)
  | '\x7b' :: rest =>
    match parts with
    | none => malformed .tooDeep
    | some value => do
      let (members, rest) ← readMembers (anyMember value) (rest.length + 1) true [] rest
      return (.record members.reverse, rest)
  | c :: rest => if c.isDigit then readNumber false (c :: rest) else malformed .expectedValue

/-- A value with lists and objects nested at most so deeply. -/
def readValue : Nat → Reader Datum
  | 0 => readValueWith none
  | depth + 1 => readValueWith (some (readValue depth))

/-- Nothing but white space may follow a value that fills its text. -/
def readEnd (cs : List Char) : Except Fault Unit :=
  match skipSpace cs with
  | [] => .ok ()
  | _ :: _ => malformed .trailingCharacters

/-- The value that a whole text spells. -/
def parse (text : List Char) : Except Fault Datum := do
  let (value, rest) ← readValue nestingLimit text
  readEnd rest
  return value

/-! ## Values of a known form -/

/-- The complaint about a value of another form than `expected`.  A scalar is read for it, a list
or an object is not. -/
def refuse (expected : String) (cs : List Char) : Except Fault α :=
  match cs with
  | '[' :: _ => mismatch (.wrongType .sequence expected)
  | '\x7b' :: _ => mismatch (.wrongType .map expected)
  | cs => do
    let (value, _) ← readValueWith none cs
    mismatch (.wrongType value.shape expected)

/-- A text. -/
def readText (expected : String) : Reader String := fun cs =>
  match skipSpace cs with
  | [] => malformed .endInValue
  | '"' :: rest => readString rest
  | rest => refuse expected rest

/-- A truth value. -/
def readBool : Reader Bool := fun cs =>
  match skipSpace cs with
  | [] => malformed .endInValue
  | 't' :: rest => do return (true, ← readWord ['r', 'u', 'e'] rest)
  | 'f' :: rest => do return (false, ← readWord ['a', 'l', 's', 'e'] rest)
  | rest => refuse "a boolean" rest

/-- The null value. -/
def readNothing : Reader Unit := fun cs =>
  match skipSpace cs with
  | [] => malformed .endInValue
  | 'n' :: rest => do return ((), ← readWord ['u', 'l', 'l'] rest)
  | rest => refuse "unit" rest

/-- The name of a choice. -/
def readVariant (known : List String) : Reader String := fun cs => do
  let (name, rest) ← readText "variant identifier" cs
  return (← liftMismatch (Datum.asVariant known name), rest)

/-- A choice: a bare name, or an object whose only member is named for the choice.  The payload is
read by `payload`, a bare name stands for itself if `bare` has a value for it. -/
def readChoice (known : List String) (bare : String → Except Fault α)
    (payload : String → Reader α) : Reader α := fun cs =>
  match skipSpace cs with
  | [] => malformed .endInValue
  | '"' :: rest => do
    let (name, rest) ← readVariant known ('"' :: rest)
    return (← bare name, rest)
  | '\x7b' :: rest => do
    let (name, rest) ← readVariant known rest
    let (value, rest) ← payload name (← readColon rest)
    match skipSpace rest with
    | '\x7d' :: rest => return (value, rest)
    | _ :: _ => malformed .expectedValue
    | [] => malformed .endInObject
  | _ :: _ => malformed .expectedValue

/-- A choice between names without payloads. -/
def readBareChoice (known : List String) : Reader String :=
  readChoice known .ok fun name cs => do
    let ((), rest) ← readNothing cs
    return (name, rest)

/-! ## Values that are passed over -/

/-- The innermost list or object that is open while values are passed over. -/
inductive Enclosure
  | list
  | object
deriving DecidableEq, Repr

/-- Passes over a key and its colon. -/
def skipKey (cs : List Char) : Except Fault (List Char) :=
  match skipSpace cs with
  | '"' :: rest => do readColon (← skipStringFrom .plain rest)
  | _ :: _ => malformed .keyNotString
  | [] => malformed .endInObject

/-- Passes over a value that opens nothing; for a list or an object, what it opens. -/
def skipScalar (cs : List Char) : Except Fault (Option Enclosure × List Char) :=
  match skipSpace cs with
  | [] => malformed .endInValue
  | 'n' :: rest => do return (none, ← readWord ['u', 'l', 'l'] rest)
  | 't' :: rest => do return (none, ← readWord ['r', 'u', 'e'] rest)
  | 'f' :: rest => do return (none, ← readWord ['a', 'l', 's', 'e'] rest)
  | '-' :: rest => do return (none, ← skipNumber rest)
  | '"' :: rest => do return (none, ← skipStringFrom .plain rest)
  | '[' :: rest => .ok (some .list, rest)
  | '\x7b' :: rest => .ok (some .object, rest)
  | c :: rest =>
    if c.isDigit then do return (none, ← skipNumber (c :: rest)) else malformed .expectedValue

/-- Passes over values, given the lists and objects that are open, the innermost first; with
`after` a value has just ended.  There is no limit to the nesting. -/
def skipWithin : Nat → List Enclosure → Bool → List Char → Except Fault (List Char)
  | 0, _, _, _ => malformed .endInValue
  | _ + 1, [], true, cs => .ok cs
  | fuel + 1, [], false, cs => do
    match ← skipScalar cs with
    | (none, rest) => return rest
    | (some opened, rest) => skipWithin fuel [opened] false rest
  | fuel + 1, inner :: outer, after, cs =>
    match skipSpace cs with
    | [] => malformed (if inner = .list then .endInList else .endInObject)
    | c :: rest =>
      if (c = ']' ∧ inner = .list) ∨ (c = '\x7d' ∧ inner = .object) then
        skipWithin fuel outer true rest
      else if after ∧ c ≠ ',' then
        malformed (if inner = .list then .expectedListEnd else .expectedObjectEnd)
      else do
        let start := if after then rest else c :: rest
        let start ← if inner = .object then skipKey start else pure start
        match ← skipScalar start with
        | (none, rest) => skipWithin fuel (inner :: outer) true rest
        | (some opened, rest) => skipWithin fuel (opened :: inner :: outer) false rest

/-- Passes over one value. -/
def skipValue (cs : List Char) : Except Fault (List Char) :=
  skipWithin (cs.length + 1) [] false cs

/-! ## Records with known fields -/

/-- A field that is written twice is refused before its value is read; a member that is no field
is passed over. -/
def knownMember (field : String → Option (Reader α)) (fields : List (String × α))
    (key : String) : Reader (List (String × α)) := fun cs =>
  match field key with
  | none => do return (fields, ← skipValue (← readColon cs))
  | some value =>
    if (Datum.kept key fields).isSome then mismatch (.duplicateField key)
    else do
      let (kept, rest) ← value (← readColon cs)
      return (fields ++ [(key, kept)], rest)

end Strongroom.Json
