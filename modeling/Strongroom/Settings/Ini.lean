import Strongroom.Settings.Scan
import Strongroom.Text.Blank
/-!
# Settings in sections

Lines of the form `name = value`, where a colon may stand for the equals sign, and `[section]`
lines, after which the names belong to that section.  Every value is a text.  A backslash takes the
special meaning from the next character or gives it one.
-/

namespace Strongroom.Ini

/-- A character given by its code in four places, the first of which may be a plus. -/
def characterByCode : Scan Char := fun cs => do
  let places := cs.take 4
  if places.length < 4 then none
  let digits := if places.head? = some '+' then places.drop 1 else places
  return (← (Scan.hexadecimal? digits).bind Scan.character?, cs.drop 4)

/-- What an escape stands for: at most one character. -/
def escape : Scan (List Char) := fun cs =>
  match cs with
  | [] => none
  | '0' :: rest => some (['\x00'], rest)
  | 'a' :: rest => some (['\x07'], rest)
  | 'b' :: rest => some (['\x08'], rest)
  | 't' :: rest => some (['\t'], rest)
  | 'r' :: rest => some (['\r'], rest)
  | 'n' :: rest => some (['\n'], rest)
  | '\n' :: rest => some ([], rest)
  | 'x' :: rest => (characterByCode rest).map fun (c, rest) => ([c], rest)
  | c :: rest => some ([c], rest)

/-- A text up to one of the characters where it stops, or up to the end if it may end there.  `seen`
holds its characters in reverse, and no more than `fuel` are read. -/
def untilStop (stop : Char → Bool) (mayEnd : Bool) : Nat → List Char → Scan (List Char)
  | _, seen, [] => if mayEnd then some (seen.reverse, []) else none
  | 0, _, _ => none
  | fuel + 1, seen, c :: cs =>
    if stop c then some (seen.reverse, c :: cs)
    else if c = '\\' then
      match escape cs with
      | some (chars, rest) => untilStop stop mayEnd fuel (chars.reverse ++ seen) rest
      | none => none
    else untilStop stop mayEnd fuel (c :: seen) cs

/-- A text up to one of the characters where it stops. -/
def textUntil (stop : Char → Bool) (mayEnd : Bool) : Scan (List Char) := fun cs =>
  untilStop stop mayEnd (cs.length + 1) [] cs

/-- Whether a character ends a line. -/
def endsLine (c : Char) : Bool := c = '\n' || c = '\r'

/-- A text between quotation marks, with what follows it on the line. -/
def quotedValue (mark : Char) : Scan (List Char) := fun cs => do
  let (inner, rest) ← textUntil (· == mark) false cs
  let (after, rest) ← textUntil endsLine true (rest.drop 1)
  return (inner ++ after, rest)

/-- The value after an equals sign. -/
def value : Scan (List Char) := fun cs =>
  match cs.dropWhile fun c => Text.isBlank c && !endsLine c with
  | '"' :: rest => quotedValue '"' rest
  | '\'' :: rest => quotedValue '\'' rest
  | rest => textUntil endsLine true rest

/-- A text without the blanks at its ends. -/
def trimmed (text : List Char) : String :=
  String.ofList (Text.trim text)

/-- What has been read: the settings before the first section, the finished sections, and the
section that is being read. -/
structure Progress where
  general : List (String × Datum)
  sections : List (String × Datum)
  current : Option (String × List (String × Datum))

/-- The sections with the one that is being read. -/
def Progress.closed (p : Progress) : List (String × Datum) :=
  match p.current with
  | some (name, members) => p.sections ++ [(name, .record members)]
  | none => p.sections

/-- One setting more, for the section that is being read. -/
def Progress.add (p : Progress) (name value : String) : Progress :=
  match p.current with
  | some (sectionName, members) =>
    { p with current := some (sectionName, members ++ [(name, .text value)]) }
  | none => { p with general := p.general ++ [(name, .text value)] }

/-- The text from its first character that is not blank, and whether that starts a line. -/
def skipBlanks (atStart : Bool) : List Char → Bool × List Char
  | [] => (atStart, [])
  | c :: cs => if Text.isBlank c then skipBlanks (c = '\n') cs else (atStart, c :: cs)

/-- One line: a comment, a section, or a setting. -/
def line (state : Progress × Bool) : Scan ((Progress × Bool) × Bool) := fun cs =>
  let (p, atStart) := state
  match skipBlanks atStart cs with
  | (atStart, []) => some (((p, atStart), true), [])
  | (atStart, c :: cs) =>
    if c = ';' ∨ c = '#' then
      if atStart then some (((p, true), false), (cs.dropWhile (· != '\n')).drop 1) else none
    else if c = '[' then do
      let (name, rest) ← textUntil (· == ']') false cs
      let p := { p with sections := p.closed, current := some (trimmed name, []) }
      return (((p, false), false), rest.drop 1)
    else if c = '=' ∨ c = ':' then none
    else do
      let (name, rest) ← textUntil (fun c => c == '=' || c == ':') false (c :: cs)
      if trimmed name = "" then none
      let (text, rest) ← value (rest.drop 1)
      return (((p.add (trimmed name) (trimmed text), false), false), rest)

/-- The settings of a file, those of a section in a record of its name. -/
def read (text : List Char) : Option (List (String × Datum)) := do
  let ((p, _), _) ← Scan.untilDone line (⟨[], [], none⟩, true) text
  return p.general ++ p.closed

end Strongroom.Ini
