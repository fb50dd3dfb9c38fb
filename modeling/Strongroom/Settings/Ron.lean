import Strongroom.Decimal.Reading
import Strongroom.Settings.Scan
/-!
# Settings in object notation

Records in parentheses, with or without a name in front of them, maps in braces, lists in brackets,
optional values, and strings, which may be raw.  Comments may be nested, and attributes at the start
of a file switch extensions on.
-/

namespace Strongroom.Ron

/-! ## White space and names -/

/-- Whether a character is white space. -/
def isSpace (c : Char) : Bool :=
  c = ' ' || c = '\n' || c = '\t' || c = '\r'

/-- The text after a comment that may hold others, of which `depth` more than one are open. -/
def blockEnd : Nat → List Char → Option (List Char)
  | depth, '/' :: '*' :: rest => blockEnd (depth + 1) rest
  | 0, '*' :: '/' :: rest => some rest
  | depth + 1, '*' :: '/' :: rest => blockEnd depth rest
  | depth, _ :: rest => blockEnd depth rest
  | _, [] => none

/-- One comment, or nothing. -/
def comment (state : Unit) : Scan (Unit × Bool) := fun cs =>
  match cs.dropWhile isSpace with
  | '/' :: '/' :: rest => some ((state, false), rest.dropWhile (· != '\n'))
  | '/' :: '*' :: rest => (blockEnd 0 rest).map fun rest => ((state, false), rest)
  | rest => some ((state, true), rest)

/-- The text after white space and comments. -/
def skipSpace (cs : List Char) : Option (List Char) :=
  (Scan.untilDone comment () cs).map (·.2)

/-- Whether a character may stand in a name. -/
def isNameChar (c : Char) : Bool :=
  c.isAlphanum || c = '_'

/-- Whether a character may stand in a name with a raw mark. -/
def isRawNameChar (c : Char) : Bool :=
  isNameChar c || c = '.' || c = '+' || c = '-'

/-- A name, which does not start with a digit.  After a raw mark it may hold points and signs and
start with any of its characters; what looks like the start of a raw string is no name. -/
def name : Scan String := fun cs =>
  match cs with
  | ['r'] => none
  | 'r' :: '"' :: _ => none
  | 'r' :: '#' :: rest => (Scan.run1 isRawNameChar rest).map spelled
  | cs => if cs.head?.any Char.isDigit then none else (Scan.run1 isNameChar cs).map spelled
where
  /-- The name as a text. -/
  spelled (result : List Char × List Char) : String × List Char :=
    (String.ofList result.1, result.2)

/-- What follows a name that comes next as a whole. -/
def nameIs? (word : List Char) (cs : List Char) : Option (List Char) := do
  let rest ← Scan.word? word cs
  if rest.head?.any isNameChar then none else some rest

/-! ## Strings -/

/-- The character of an escape. -/
def escape : Scan Char := fun cs =>
  match cs with
  | '\'' :: rest => some ('\'', rest)
  | '"' :: rest => some ('"', rest)
  | '\\' :: rest => some ('\\', rest)
  | 'n' :: rest => some ('\n', rest)
  | 'r' :: rest => some ('\r', rest)
  | 't' :: rest => some ('\t', rest)
  | 'x' :: rest => Scan.codePoint 2 rest
  | 'u' :: '\x7b' :: rest => do
    let run := rest.takeWhile (· != '\x7d')
    let rest ← Scan.exactly '\x7d' (rest.drop run.length)
    if run = [] ∨ 6 < run.length then none
    let c ← (Scan.hexadecimal? run).bind Scan.character?
    return (c, rest)
  | _ => none

/-- A string up to and with its closing mark; `seen` holds its characters in reverse. -/
def stringFrom : Nat → List Char → Scan String
  | 0, _, _ => none
  | _, _, [] => none
  | _, seen, '"' :: cs => some (String.ofList seen.reverse, cs)
  | fuel + 1, seen, '\\' :: cs =>
    match escape cs with
    | some (c, rest) => stringFrom fuel (c :: seen) rest
    | none => none
  | fuel + 1, seen, c :: cs => stringFrom fuel (c :: seen) cs

/-- A raw string: up to a mark that so many hashes follow. -/
def rawFrom (hashes : List Char) : List Char → Scan String
  | _, [] => none
  | seen, c :: cs =>
    if c = '"' ∧ hashes.isPrefixOf cs then
      some (String.ofList seen.reverse, cs.drop hashes.length)
    else rawFrom hashes (c :: seen) cs

/-- A raw string after its first letter. -/
def rawString : Scan String := fun cs => do
  let hashes := cs.takeWhile (· == '#')
  rawFrom hashes [] (← Scan.exactly '"' (cs.drop hashes.length))

/-- A character after its mark. -/
def character : Scan Char := fun cs => do
  let (c, rest) ←
    match cs with
    | '\\' :: rest => escape rest
    | '\'' :: _ => none
    | c :: rest => some (c, rest)
    | [] => none
  return (c, ← Scan.exactly '\'' rest)

/-! ## Numbers -/

/-- Whether a character may be a digit of a whole number in any base, or stand between digits. -/
def isDigitChar (c : Char) : Bool :=
  Decimal.isDigitIn 16 c || c = '_'

/-- Whether a character may stand in a number with a fraction. -/
def isRealChar (c : Char) : Bool :=
  c.isDigit || c = 'e' || c = 'E' || c = '.' || c = '+' || c = '-'

/-- The base that a mark in front of the digits tells, and the text after the mark. -/
def base : List Char → Nat × List Char
  | '0' :: 'x' :: rest => (16, rest)
  | '0' :: 'o' :: rest => (8, rest)
  | '0' :: 'b' :: rest => (2, rest)
  | rest => (10, rest)

/-- A whole number that fits sixty-four bits, with a sign in them exactly if one is written.  One
without a sign that needs all bits is a real number. -/
def whole : Scan Datum := fun cs => do
  let negative := cs.head? == some '-'
  let signed := negative || cs.head? == some '+'
  let (base, rest) := base (if signed then cs.drop 1 else cs)
  let (run, rest) ← Scan.run1 isDigitChar rest
  if run.head? = some '_' then none
  let digits := run.filter (· != '_')
  if digits.all (Decimal.isDigitIn base) = false then none
  let n := Decimal.ofDigits base digits
  if n ≤ Int64.maxValue.toInt.toNat then return (.integer (if negative then -n else n), rest)
  else if negative ∧ n ≤ Int64.minValue.toInt.natAbs then return (.integer (-n), rest)
  else if signed = false ∧ n < UInt64.size then return (.real (Float.ofScientific n false 0), rest)
  else none

/-- A real number: a word with its sign, or all characters of its kind that come next. -/
def real : Scan Datum := fun cs =>
  match words.findSome? fun (word, x) => (nameIs? word cs).map fun rest => (Datum.real x, rest) with
  | some result => some result
  | none => do
    let run := cs.takeWhile isRealChar
    return (.real (← Decimal.real? run), cs.drop run.length)
where
  /-- The words for what is no finite number. -/
  words : List (List Char × Float) :=
    let infinity := ['i', 'n', 'f']
    let none := ['N', 'a', 'N']
    [(infinity, 1.0 / 0.0), ('+' :: infinity, 1.0 / 0.0), ('-' :: infinity, -1.0 / 0.0),
      (none, 0.0 / 0.0), ('+' :: none, 0.0 / 0.0), ('-' :: none, 0.0 / 0.0)]

/-- A number.  It is read as a real one if more of it looks like that than like a whole one, and
also if it is no whole number that fits. -/
def number : Scan Datum := fun cs =>
  let unsigned := if cs.head? = some '-' ∨ cs.head? = some '+' then cs.drop 1 else cs
  if (unsigned.takeWhile isDigitChar).length < (unsigned.takeWhile isRealChar).length then real cs
  else (whole cs).or (real cs)

/-! ## Values -/

/-- What follows an item: a comma, with more items or none after it, or the closing mark. -/
def afterItem (close : Char) (cs : List Char) : Option (Bool × List Char) := do
  match ← skipSpace cs with
  | ',' :: rest => return (false, rest)
  | c :: rest => if c = close then return (true, rest) else none
  | [] => none

/-- The items of a list or of a tuple after its opening mark. -/
def item (close : Char) (value : Scan α) (done : List α) : Scan (List α × Bool) := fun cs => do
  let start ← skipSpace cs
  if start.head? = some close then return ((done, true), start.drop 1)
  let (d, rest) ← value start
  let (last, rest) ← afterItem close rest
  return ((done ++ [d], last), rest)

/-- The members of a record or of a map after its opening mark. -/
def member (close : Char) (key : Scan κ) (value : Scan α) (done : List (κ × α)) :
    Scan (List (κ × α) × Bool) := fun cs => do
  let start ← skipSpace cs
  if start.head? = some close then return ((done, true), start.drop 1)
  let (name, rest) ← key start
  let (d, rest) ← value (← skipSpace (← Scan.exactly ':' (← skipSpace rest)))
  let (last, rest) ← afterItem close rest
  return ((done ++ [(name, d)], last), rest)

/-- Whether a member of a record comes next: a name with a colon after it. -/
def startsMember (cs : List Char) : Bool :=
  match name cs with
  | some (_, rest) => (skipSpace rest).any fun rest => rest.head? = some ':'
  | none => false

/-- A value as it is written.  A map may have names that are no texts, and what it makes of them is
decided once the whole file is read. -/
inductive Value
  | leaf (d : Datum)
  | character (c : Char)
  | optional (value : Value)
  | list (items : List Value)
  | map (members : List (Value × Value))

namespace Value

/-- The name that a value can be for a member: the text or the character that it is. -/
def name? : Value → Option String
  | .leaf (.text name) => some name
  | .character c => some c.toString
  | _ => none

/-- Whether a value is a character. -/
def isCharacter : Value → Bool
  | .character _ => true
  | _ => false

/-- Whether a value takes the place of a member with another name: if they are the same text or the
same character. -/
def replaces (later earlier : Value) : Bool :=
  later.isCharacter = earlier.isCharacter && later.name? = earlier.name?

/-- A map.  A text comes behind the character that is the same name, wherever it is written. -/
def ofMembers (members : List (Value × Value)) : Value :=
  .map (members.filter (·.1.isCharacter) ++ members.filter (!·.1.isCharacter))

end Value

/-- A record or a tuple after its opening parenthesis. -/
def parenthesized (value : Scan Value) : Scan Value := fun cs => do
  if startsMember (← skipSpace cs) then
    let key : Scan Value := fun cs => (name cs).map fun (text, rest) => (.leaf (.text text), rest)
    let (members, rest) ← Scan.untilDone (member ')' key value) [] cs
    return (.map members, rest)
  else
    let (items, rest) ← Scan.untilDone (item ')' value) [] cs
    return (.list items, rest)

/-- A value that is there, after its word.  If `implicit` is set the parentheses may be missing. -/
def present (implicit : Bool) (value : Scan Value) : Scan Value := fun cs => do
  let start ← skipSpace cs
  match start with
  | '(' :: rest =>
    let (d, rest) ← value (← skipSpace rest)
    let rest ← skipSpace rest
    let rest ← skipSpace (if rest.head? = some ',' then rest.drop 1 else rest)
    return (.optional d, ← Scan.exactly ')' rest)
  | rest =>
    if implicit then (value rest).map fun (d, rest) => (.optional d, rest) else none

/-- A value that starts with a name of its own. -/
def named (value : Scan Value) : Scan Value := fun cs => do
  let (_, rest) ← name cs
  match ← skipSpace rest with
  | '(' :: rest => parenthesized value rest
  | rest => return (.leaf .null, rest)

/-- A value that a word stands for, with the text after it. -/
def wordValue? (cs : List Char) : Option (Datum × List Char) :=
  words.findSome? fun (word, d) => (nameIs? word cs).map fun rest => (d, rest)
where
  /-- The words and what they stand for. -/
  words : List (List Char × Datum) :=
    [(['t', 'r', 'u', 'e'], .bool true), (['f', 'a', 'l', 's', 'e'], .bool false),
      (['N', 'o', 'n', 'e'], .null), (['i', 'n', 'f'], .real (1.0 / 0.0)),
      (['-', 'i', 'n', 'f'], .real (-1.0 / 0.0)), (['N', 'a', 'N'], .real (0.0 / 0.0))]

/-- A value that is neither a word nor a name. -/
def marked (value : Scan Value) : Scan Value := fun cs =>
  match cs with
  | '(' :: ')' :: rest => some (.leaf .null, rest)
  | '(' :: rest => parenthesized value rest
  | '[' :: rest => do
    let (items, rest) ← Scan.untilDone (item ']' value) [] rest
    return (.list items, rest)
  | '\x7b' :: rest => do
    let (members, rest) ← Scan.untilDone (member '\x7d' value value) [] rest
    return (.ofMembers members, rest)
  | '"' :: rest => leaf .text (stringFrom (rest.length + 1) [] rest)
  | 'r' :: rest => leaf .text (rawString rest)
  | '\'' :: rest => (character rest).map fun (c, rest) => (.character c, rest)
  | '.' :: _ => leaf id (real cs)
  | c :: _ => if c.isDigit || c = '+' || c = '-' then leaf id (number cs) else none
  | [] => none
where
  /-- The value that is made of a result. -/
  leaf {α : Type} (make : α → Datum) (result : Option (α × List Char)) :
      Option (Value × List Char) :=
    result.map fun (x, rest) => (.leaf (make x), rest)

/-- A value with records, maps and lists nested at most so deeply. -/
def value (implicit : Bool) : Nat → Scan Value
  | 0, _ => none
  | depth + 1, cs =>
    match nameIs? ['S', 'o', 'm', 'e'] cs, wordValue? cs with
    | some rest, _ => present implicit (value implicit depth) rest
    | none, some (d, rest) => some (.leaf d, rest)
    | none, none =>
      if (name cs).isSome then named (value implicit depth) cs
      else marked (value implicit depth) cs

/-! ## Attributes -/

/-- The extensions that a file may switch on; only that of implicit options makes a difference. -/
def extensions : List String :=
  ["unwrap_newtypes", "implicit_some", "unwrap_variant_newtypes"]

/-- The text after marks that come next in this order, each with white space after it. -/
def passMarks : List (List Char) → List Char → Option (List Char)
  | [], cs => some cs
  | mark :: more, cs => do passMarks more (← skipSpace (← Scan.word? mark cs))

/-- The extensions in an attribute, one more of which comes next. -/
def extensionName (done : List String) : Scan (List String × Bool) := fun cs => do
  let (extension, rest) ← name cs
  if extension ∉ extensions then none
  let done := extension :: done
  match ← skipSpace rest with
  | ',' :: rest =>
    let rest ← skipSpace rest
    return ((done, !rest.head?.any isNameChar), rest)
  | rest => if rest.head?.any isNameChar then none else return ((done, true), rest)

/-- One attribute, or nothing: the extensions switched on so far. -/
def enabling (done : List String) : Scan (List String × Bool) := fun cs => do
  let start ← skipSpace cs
  if start.head? ≠ some '#' then return ((done, true), start)
  let opening := [['#'], ['!'], ['['], ['e', 'n', 'a', 'b', 'l', 'e'], ['(']]
  let (done, rest) ← Scan.untilDone extensionName done (← passMarks opening start)
  return ((done, false), ← passMarks [[')'], [']']] (← skipSpace rest))

/-! ## Files -/

mutual
/-- The value as a setting.  A map is none unless all its names are texts; of the members of one
name the last one counts. -/
def Value.datum? : Value → Option Datum
  | .leaf d => some d
  | .character c => some (.text c.toString)
  | .optional value => value.datum?
  | .list items => (itemData? items).map .list
  | .map members => (memberData? members).map .record

/-- The items of a list as settings. -/
def itemData? : List Value → Option (List Datum)
  | [] => some []
  | item :: rest => do return (← item.datum?) :: (← itemData? rest)

/-- The members of a map as settings. -/
def memberData? : List (Value × Value) → Option (List (String × Datum))
  | [] => some []
  | (key, value) :: rest => do
    let name ← key.name?
    if rest.any fun later => later.1.replaces key then memberData? rest
    else return (name, ← value.datum?) :: (← memberData? rest)
end

/-- The settings of a file; a file that holds another value has no settings. -/
def read (text : List Char) : Option (List (String × Datum)) := do
  let (switched, rest) ← Scan.untilDone enabling [] text
  let (value, rest) ← value (switched.contains "implicit_some") (text.length + 1) rest
  if (← skipSpace rest) ≠ [] then none
  return (← value.datum?).members

end Strongroom.Ron
