import Strongroom.Decimal.Reading
import Strongroom.Settings.Scan
import Strongroom.Text.Blank
import Strongroom.Text.Letter
/-!
# Settings in relaxed JSON

JSON with comments, names without quotation marks, single quotation marks, commas after the last
item, and numbers with a sign, in base sixteen, or with a point at either end.
-/

namespace Strongroom.Json5

/-! ## White space -/

/-- The characters that end a line. -/
def endsLine (c : Char) : Bool :=
  c = '\n' || c = '\r' || c = '\u2028' || c = '\u2029'

/-- Whether a character is white space. -/
def isSpace (c : Char) : Bool :=
  (Text.isBlank c && c ≠ '\u0085') || c = '\ufeff'

/-- The text after a comment in several lines, whose start has been read. -/
def blockEnd : List Char → Option (List Char)
  | '*' :: '/' :: rest => some rest
  | _ :: rest => blockEnd rest
  | [] => none

/-- One comment, or nothing. -/
def comment (state : Unit) : Scan (Unit × Bool) := fun cs =>
  match cs.dropWhile isSpace with
  | '/' :: '/' :: rest => some ((state, false), rest.dropWhile fun c => !endsLine c)
  | '/' :: '*' :: rest => (blockEnd rest).map fun rest => ((state, false), rest)
  | rest => some ((state, true), rest)

/-- The text after white space and comments. -/
def skipSpace (cs : List Char) : Option (List Char) :=
  (Scan.untilDone comment () cs).map (·.2)

/-! ## Characters given by their code -/

/-- A number of four digits in base sixteen. -/
def codeUnit : Scan Nat := fun cs =>
  if cs.length < 4 then none
  else (Scan.hexadecimal? (cs.take 4)).map fun n => (n, cs.drop 4)

/-- Whether a number is the first of two that stand for one character together. -/
def isLeading (n : Nat) : Bool := 0xD800 ≤ n && n ≤ 0xDBFF

/-- Whether a number is the second of two that stand for one character together. -/
def isTrailing (n : Nat) : Bool := 0xDC00 ≤ n && n ≤ 0xDFFF

/-- The number of the character that a leading and a trailing number stand for.  The start of the
higher planes is laid over the bits of the leading number and not added to them. -/
def joined (leading trailing : Nat) : Nat :=
  Nat.lor ((leading - 0xD800) * 0x400) (trailing - 0xDC00 + 0x10000)

/-- A character given by its code, after the letter of the escape.  A leading number has to be
followed by the escape of a trailing one, once `next` has passed over what may stand between. -/
def characterByCode (next : List Char → List Char) : Scan Char := fun cs => do
  let (n, rest) ← codeUnit cs
  if isLeading n then
    match next rest with
    | '\\' :: 'u' :: rest =>
      let (m, rest) ← codeUnit rest
      if isTrailing m then return (← Scan.character? (joined n m), rest) else none
    | _ => none
  else return (← Scan.character? n, rest)

/-! ## Strings -/

/-- The text after line ends that are taken back. -/
def skipFolds : List Char → List Char
  | '\\' :: '\r' :: '\n' :: rest => skipFolds rest
  | '\\' :: c :: rest => if endsLine c then skipFolds rest else '\\' :: c :: rest
  | cs => cs

/-- What an escape stands for: at most one character.  The end of a line is taken back. -/
def escape : Scan (List Char) := fun cs =>
  match cs with
  | 'b' :: rest => some (['\x08'], rest)
  | 'f' :: rest => some (['\x0c'], rest)
  | 'n' :: rest => some (['\n'], rest)
  | 'r' :: rest => some (['\r'], rest)
  | 't' :: rest => some (['\t'], rest)
  | 'v' :: rest => some (['\x0b'], rest)
  | '0' :: rest => some (['\x00'], rest)
  | 'x' :: rest => (Scan.codePoint 2 rest).map fun (c, rest) => ([c], rest)
  | 'u' :: rest => (characterByCode skipFolds rest).map fun (c, rest) => ([c], rest)
  | '\r' :: '\n' :: rest => some ([], rest)
  | c :: rest =>
    if endsLine c then some ([], rest) else if c.isDigit then none else some ([c], rest)
  | [] => none

/-- A string up to and with its closing mark; `seen` holds its characters in reverse. -/
def stringFrom (mark : Char) : Nat → List Char → Scan String
  | 0, _, _ => none
  | _, _, [] => none
  | fuel + 1, seen, c :: cs =>
    if c = mark then some (String.ofList seen.reverse, cs)
    else if c = '\\' then
      match escape cs with
      | some (chars, rest) => stringFrom mark fuel (chars.reverse ++ seen) rest
      | none => none
    else if endsLine c then none
    else stringFrom mark fuel (c :: seen) cs

/-- A string after its opening mark. -/
def string (mark : Char) : Scan String := fun cs =>
  stringFrom mark (cs.length + 1) [] cs

/-! ## Names -/

/-- Whether a name may start with a character. -/
def startsName (c : Char) : Bool :=
  Text.isLetter c || c = '$' || c = '_'

/-- Whether a name may go on with a character: the two marks without a width that join letters and
keep them apart count too. -/
def continuesName (c : Char) : Bool :=
  startsName c || Text.isFollower c || c = '\u200c' || c = '\u200d'

/-- The characters of a name; each of them may be given by its code. -/
def nameFrom : Nat → List Char → Scan String
  | fuel + 1, seen, '\\' :: 'u' :: rest =>
    match characterByCode id rest with
    | some (c, rest) => nameFrom fuel (c :: seen) rest
    | none => none
  | fuel + 1, seen, c :: cs =>
    if startsName c || (continuesName c && !seen.isEmpty) then nameFrom fuel (c :: seen) cs
    else finished seen (c :: cs)
  | _, seen, cs => finished seen cs
where
  /-- A name that ends here. -/
  finished (seen cs : List Char) : Option (String × List Char) :=
    if seen = [] then none else some (String.ofList seen.reverse, cs)

/-- The name of a member. -/
def name : Scan String := fun cs =>
  match cs with
  | '"' :: rest => string '"' rest
  | '\'' :: rest => string '\'' rest
  | cs => nameFrom (cs.length + 1) [] cs

/-! ## Numbers -/

/-- The characters of a number without its sign, and whether it is whole. -/
def numeral (cs : List Char) : Option (List Char × Bool × List Char) := do
  let whole := cs.takeWhile Char.isDigit
  let rest := cs.drop whole.length
  if whole.length > 1 ∧ whole.head? = some '0' then none
  let (places, rest, pointed) :=
    match rest with
    | '.' :: rest => ('.' :: rest.takeWhile Char.isDigit, rest.dropWhile Char.isDigit, true)
    | rest => ([], rest, false)
  if whole = [] ∧ places.length < 2 then none
  match exponent? rest with
  | some (mark, rest) => return (whole ++ places ++ mark, false, rest)
  | none => return (whole ++ places, !pointed, rest)
where
  /-- The exponent at the front of a text. -/
  exponent? (cs : List Char) : Option (List Char × List Char) :=
    match cs with
    | c :: rest =>
      if c = 'e' ∨ c = 'E' then
        let (sign, rest) :=
          match rest with
          | '-' :: rest => (['-'], rest)
          | '+' :: rest => ([], rest)
          | rest => ([], rest)
        let run := rest.takeWhile Char.isDigit
        if run = [] then none else some ('e' :: sign ++ run, rest.drop run.length)
      else none
    | [] => none

/-- A finite number with a point or an exponent. -/
def real (sign text : List Char) : Option Datum := do
  let value ← Decimal.real? (sign ++ text)
  if value.isFinite then return .real value else none

/-- A number after its sign.  What is no finite number, and what is written in base sixteen, has no
plus in front of it. -/
def number (sign : List Char) : Scan Datum := fun cs =>
  let infinity := "Infinity".toList
  match Scan.word? infinity cs, Scan.word? ['N', 'a', 'N'] cs with
  | some rest, _ =>
    if sign = ['+'] then none
    else some (.real (if sign = ['-'] then -1.0 / 0.0 else 1.0 / 0.0), rest)
  | none, some rest => if sign = ['+'] then none else some (.real (0.0 / 0.0), rest)
  | none, none =>
    match cs with
    | '0' :: c :: rest =>
      if c = 'x' ∨ c = 'X' then
        let run := rest.takeWhile (Decimal.isDigitIn 16)
        let n := Decimal.ofDigits 16 run
        if run = [] ∨ sign ≠ [] ∨ UInt32.size ≤ n then none
        else some (.integer n, rest.drop run.length)
      else plain sign ('0' :: c :: rest)
    | cs => plain sign cs
where
  /-- A number in base ten. -/
  plain (sign : List Char) : Scan Datum := fun cs => do
    let (text, isWhole, rest) ← numeral cs
    if isWhole then return (.integer (← Decimal.integer? (sign ++ text)), rest)
    else return (← real sign text, rest)

/-! ## Values -/

/-- The items of a list after its bracket. -/
def listItem (value : Scan Datum) (done : List Datum) : Scan (List Datum × Bool) := fun cs => do
  match ← skipSpace cs with
  | ']' :: rest => return ((done, true), rest)
  | start =>
    let (item, rest) ← value start
    match ← skipSpace rest with
    | ',' :: rest => return ((done ++ [item], false), rest)
    | ']' :: rest => return ((done ++ [item], true), rest)
    | _ => none

/-- The members of a record after its brace. -/
def member (value : Scan Datum) (done : List (String × Datum)) :
    Scan (List (String × Datum) × Bool) := fun cs => do
  match ← skipSpace cs with
  | '\x7d' :: rest => return ((done, true), rest)
  | start =>
    let (name, rest) ← name start
    let (d, rest) ← value (← skipSpace (← Scan.exactly ':' (← skipSpace rest)))
    match ← skipSpace rest with
    | ',' :: rest => return ((done ++ [(name, d)], false), rest)
    | '\x7d' :: rest => return ((done ++ [(name, d)], true), rest)
    | _ => none

/-- A value with lists and records nested at most so deeply. -/
def value : Nat → Scan Datum
  | 0, _ => none
  | depth + 1, cs =>
    match cs with
    | '"' :: rest => (string '"' rest).map fun (text, rest) => (.text text, rest)
    | '\'' :: rest => (string '\'' rest).map fun (text, rest) => (.text text, rest)
    | '[' :: rest => do
      let (items, rest) ← Scan.untilDone (listItem (value depth)) [] rest
      return (.list items, rest)
    | '\x7b' :: rest => do
      let (members, rest) ← Scan.untilDone (member (value depth)) [] rest
      return (.record members, rest)
    | 'n' :: rest => (Scan.word? ['u', 'l', 'l'] rest).map fun rest => (.null, rest)
    | 't' :: rest => (Scan.word? ['r', 'u', 'e'] rest).map fun rest => (.bool true, rest)
    | 'f' :: rest => (Scan.word? ['a', 'l', 's', 'e'] rest).map fun rest => (.bool false, rest)
    | '-' :: rest => number ['-'] rest
    | '+' :: rest => number ['+'] rest
    | cs => number [] cs

/-- The settings of a file. -/
def read (text : List Char) : Option (List (String × Datum)) := do
  let (d, rest) ← value (text.length + 1) (← skipSpace text)
  match d, ← skipSpace rest with
  | .record members, [] => return members
  | _, _ => none

end Strongroom.Json5
