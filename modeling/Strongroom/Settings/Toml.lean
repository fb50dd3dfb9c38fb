import Strongroom.Decimal.Reading
import Strongroom.Settings.Scan
/-!
# Settings in tables

Lines of the form `key = value` below headers of the form `[table]` or `[[table]]`.  A key may be a
path of names with points between them.  No name is given twice in a table, and a table that was
written out in one place is not added to in another.
-/

namespace Strongroom.Toml

/-! ## Small parts -/

/-- Whether a character may stand in a name without quotation marks. -/
def isBare (c : Char) : Bool :=
  c.isAlphanum || c = '_' || c = '-'

/-- The text after spaces and tabs. -/
def skipSpace (cs : List Char) : List Char :=
  cs.dropWhile fun c => c = ' ' || c = '\t'

/-- Whether a comment may hold a character. -/
def isCommentChar (c : Char) : Bool :=
  c = '\t' || ' ' ≤ c

/-- The text after a comment, if one starts here, up to the end of the line. -/
def skipComment : List Char → List Char
  | '#' :: rest => rest.dropWhile isCommentChar
  | cs => cs

/-- The text after the end of a line, before which a comment may stand. -/
def lineEnd (cs : List Char) : Option (List Char) :=
  match skipComment (skipSpace cs) with
  | [] => some []
  | '\n' :: rest => some rest
  | _ => none

/-- The text after spaces, line ends and comments. -/
def skipLines (fuel : Nat) (cs : List Char) : Option (List Char) :=
  match fuel, skipSpace cs with
  | fuel + 1, '\n' :: rest => skipLines fuel rest
  | fuel + 1, '#' :: rest =>
    match lineEnd ('#' :: rest) with
    | some rest => skipLines fuel rest
    | none => none
  | _, cs => some cs

/-- The text after spaces, line ends and comments. -/
def skipGap (cs : List Char) : Option (List Char) :=
  skipLines (cs.length + 1) cs

/-! ## Strings -/

/-- Whether a string may hold a character as it is. -/
def isStringChar (c : Char) : Bool :=
  c = '\t' || (' ' ≤ c && c ≠ '\x7f')

/-- What an escape stands for: at most one character.  In a string of several lines it may stand
for nothing, when it takes back the end of a line and the blanks around it. -/
def escape (several : Bool) : Scan (List Char) := fun cs =>
  match cs with
  | '"' :: rest => some (['"'], rest)
  | '\\' :: rest => some (['\\'], rest)
  | 'b' :: rest => some (['\x08'], rest)
  | 'f' :: rest => some (['\x0c'], rest)
  | 'n' :: rest => some (['\n'], rest)
  | 'r' :: rest => some (['\r'], rest)
  | 't' :: rest => some (['\t'], rest)
  | 'u' :: rest => (Scan.codePoint 4 rest).map fun (c, rest) => ([c], rest)
  | 'U' :: rest => (Scan.codePoint 8 rest).map fun (c, rest) => ([c], rest)
  | cs =>
    if several then
      match skipSpace cs with
      | '\n' :: rest => some ([], rest.dropWhile fun c => c = ' ' || c = '\t' || c = '\n')
      | _ => none
    else none

/-- A string of one line, up to and with its closing mark. -/
def lineString (mark : Char) : Nat → List Char → Scan String
  | 0, _, _ => none
  | _, _, [] => none
  | fuel + 1, seen, c :: cs =>
    if c = mark then some (String.ofList seen.reverse, cs)
    else if c = '\\' ∧ mark = '"' then
      match escape false cs with
      | some (chars, rest) => lineString mark fuel (chars.reverse ++ seen) rest
      | none => none
    else if isStringChar c then lineString mark fuel (c :: seen) cs
    else none

/-- A string of several lines, up to and with its three closing marks.  Up to two more marks before
them belong to the string. -/
def blockString (mark : Char) : Nat → List Char → Scan String
  | 0, _, _ => none
  | _, _, [] => none
  | fuel + 1, seen, c :: cs =>
    if c = mark then
      match (c :: cs).takeWhile (· == mark) with
      | [_] => blockString mark fuel (mark :: seen) cs
      | [_, _] => blockString mark fuel (mark :: mark :: seen) (cs.drop 1)
      | marks =>
        let more := min (marks.length - 3) 2
        some (String.ofList ((List.replicate more mark ++ seen).reverse), cs.drop (2 + more))
    else if c = '\\' ∧ mark = '"' then
      match escape true cs with
      | some (chars, rest) => blockString mark fuel (chars.reverse ++ seen) rest
      | none => none
    else if c = '\n' ∨ isStringChar c then blockString mark fuel (c :: seen) cs
    else none

/-- A string after its first mark, and whether it may have several lines. -/
def string (mark : Char) : Scan (String × Bool) := fun cs =>
  match cs with
  | a :: b :: rest =>
    if a = mark ∧ b = mark then
      let start := if rest.head? = some '\n' then rest.drop 1 else rest
      (blockString mark (start.length + 1) [] start).map fun (text, rest) => ((text, true), rest)
    else (lineString mark (cs.length + 1) [] cs).map fun (text, rest) => ((text, false), rest)
  | _ => (lineString mark (cs.length + 1) [] cs).map fun (text, rest) => ((text, false), rest)

/-! ## Keys -/

/-- One name of a key. -/
def name : Scan String := fun cs =>
  match cs with
  | '"' :: rest => quoted '"' rest
  | '\'' :: rest => quoted '\'' rest
  | cs => (Scan.run1 isBare cs).map fun (run, rest) => (String.ofList run, rest)
where
  /-- A name between marks, which has to stay on its line. -/
  quoted (mark : Char) : Scan String := fun cs =>
    match string mark cs with
    | some ((text, false), rest) => some (text, rest)
    | _ => none

/-- A path of names with points between them. -/
def path : Nat → Scan (List String)
  | 0, _ => none
  | fuel + 1, cs => do
    let (first, rest) ← name (skipSpace cs)
    match skipSpace rest with
    | '.' :: rest =>
      let (more, rest) ← path fuel rest
      return (first :: more, rest)
    | rest => return ([first], rest)

/-- A key with its equals sign. -/
def key : Scan (List String) := fun cs => do
  let (names, rest) ← path (cs.length + 1) cs
  return (names, skipSpace (← Scan.exactly '=' rest))

/-! ## Numbers -/

/-- The digits at the front of a text, between which single underscores may stand.  A number that
is not to start with a zero may still be zero. -/
def digits (base : Nat) (zeros : Bool) (cs : List Char) : Option (List Char × List Char) :=
  let run := cs.takeWhile fun c => c = '_' || Decimal.isDigitIn base c
  if run.head? = none ∨ run.head? = some '_' ∨ run.getLast? = some '_' ∨ doubled run then none
  else
    let plain := run.filter (· != '_')
    if zeros = false ∧ plain.head? = some '0' ∧ run.length > 1 then none
    else some (plain, cs.drop run.length)
where
  /-- Whether two underscores follow one another. -/
  doubled : List Char → Bool
    | '_' :: '_' :: _ => true
    | _ :: rest => doubled rest
    | [] => false

/-- Digits with a sign in front of them that is kept if it is a minus. -/
def signedDigits (zeros : Bool) (cs : List Char) : Option (List Char × List Char) :=
  match cs with
  | '-' :: rest => (digits 10 zeros rest).map fun (run, rest) => ('-' :: run, rest)
  | '+' :: rest => digits 10 zeros rest
  | rest => digits 10 zeros rest

/-- The rest of a number that may have a fraction and an exponent: `whole` has been read. -/
def fraction (whole : List Char) : Scan Datum := fun cs => do
  let (places, rest) ←
    match cs with
    | '.' :: rest => (digits 10 true rest).map fun (run, rest) => ('.' :: run, rest)
    | rest => some ([], rest)
  let (exponent, rest) ←
    match rest with
    | c :: rest =>
      if c = 'e' ∨ c = 'E' then
        (signedDigits true rest).map fun (run, rest) => ('e' :: run, rest)
      else some ([], c :: rest)
    | [] => some ([], [])
  let value ← Decimal.real? (whole ++ places ++ exponent)
  if value.isFinite then return (.real value, rest) else none

/-- A whole number in another base, after its mark. -/
def based (base : Nat) : Scan Datum := fun cs => do
  let (run, rest) ← digits base true cs
  return (.integer (← Decimal.integerIn? base run), rest)

/-- A number without a leading plus. -/
def number : Scan Datum := fun cs =>
  match cs with
  | '0' :: 'x' :: rest => based 16 rest
  | '0' :: 'o' :: rest => based 8 rest
  | '0' :: 'b' :: rest => based 2 rest
  | 'i' :: 'n' :: 'f' :: rest => some (.real (1.0 / 0.0), rest)
  | '-' :: 'i' :: 'n' :: 'f' :: rest => some (.real (-1.0 / 0.0), rest)
  | 'n' :: 'a' :: 'n' :: rest => some (.real (0.0 / 0.0), rest)
  | '-' :: 'n' :: 'a' :: 'n' :: rest => some (.real (0.0 / 0.0), rest)
  | cs => do
    let (whole, rest) ← signedDigits false cs
    if rest.head? = some '.' ∨ rest.head? = some 'e' ∨ rest.head? = some 'E' then
      fraction whole rest
    else return (.integer (← Decimal.integer? whole), rest)

/-! ## Dates -/

/-- A number of exactly so many digits. -/
def field (count : Nat) (cs : List Char) : Option (Nat × List Char) :=
  let run := cs.take count
  if run.length = count ∧ run.all Char.isDigit then
    some (Decimal.ofDigits 10 run, cs.drop count)
  else none

/-- A number with zeros in front of it. -/
def padded (width n : Nat) : String :=
  let text := toString n
  "".pushn '0' (width - text.length) ++ text

/-- A date in its written form. -/
def date : Scan String := fun cs => do
  let (year, rest) ← field 4 cs
  let (month, rest) ← field 2 (← Scan.exactly '-' rest)
  let (day, rest) ← field 2 (← Scan.exactly '-' rest)
  if 1 ≤ month ∧ month ≤ 12 ∧ 1 ≤ day ∧ day ≤ 31 then
    return (s!"{padded 4 year}-{padded 2 month}-{padded 2 day}", rest)
  else none

/-- The nine digits that count of a fraction of a second, without zeros at their end. -/
def subsecond (run : List Char) : String :=
  String.ofList ((run.take 9).reverse.dropWhile (· == '0')).reverse

/-- A time of day in its written form. -/
def time : Scan String := fun cs => do
  let (hour, rest) ← field 2 cs
  let (minute, rest) ← field 2 (← Scan.exactly ':' rest)
  let (second, rest) ← field 2 (← Scan.exactly ':' rest)
  if 24 < hour ∨ 59 < minute ∨ 59 < second then none
  let clock := s!"{padded 2 hour}:{padded 2 minute}:{padded 2 second}"
  match rest with
  | '.' :: rest =>
    let (run, rest) ← Scan.run1 Char.isDigit rest
    let part := subsecond run
    return (if part = "" then clock else s!"{clock}.{part}", rest)
  | rest => return (clock, rest)

/-- The distance from universal time at the end of a date with a time, in its written form. -/
def offset (cs : List Char) : Option String :=
  match cs with
  | [] => some ""
  | ['Z'] => some "Z"
  | ['z'] => some "Z"
  | sign :: rest => do
    if sign ≠ '+' ∧ sign ≠ '-' then none
    let (hours, rest) ← field 2 rest
    let (minutes, rest) ← field 2 (← Scan.exactly ':' rest)
    if rest ≠ [] then none
    let mark := if sign = '-' ∧ hours ≠ 0 then "-" else "+"
    return s!"{mark}{padded 2 hours}:{padded 2 minutes}"

/-- A date, a time, or both, in the form in which they are written out. -/
def moment? (text : List Char) : Option String := do
  if text.length < 3 then none
  if text[2]? = some ':' then
    let (clock, rest) ← time text
    if rest = [] then return clock else none
  let (day, rest) ← date text
  match rest with
  | c :: more =>
    if c ≠ 'T' ∧ c ≠ 't' ∧ c ≠ ' ' then none
    let (clock, rest) ← time more
    return s!"{day}T{clock}{← offset rest}"
  | [] => return day

/-- A run that has to follow a mark. -/
def after (mark : Char) (cs : List Char) : Option (List Char) := do
  let (_, rest) ← Scan.run1 isBare (← Scan.exactly mark cs)
  return rest

/-- What follows an optional mark with its run. -/
def afterOptional (mark : Char) (cs : List Char) : Option (List Char) :=
  if cs.head? = some mark then after mark cs else some cs

/-- The text after a date or time whose first run has been read. -/
def momentRest (cs : List Char) : Option (List Char) := do
  let cs :=
    match cs with
    | ' ' :: c :: rest => if isBare c then (c :: rest).dropWhile isBare else cs
    | cs => cs
  if cs.head? = some ':' then
    let rest ← after ':' (← after ':' cs)
    let rest ← afterOptional '.' rest
    let rest ← afterOptional '+' rest
    afterOptional ':' rest
  else return cs

/-! ## Values -/

/-- A value that is being read.  Of a table it is told whether names with points may still add to
it, and its members are kept as they were written, with names that come again. -/
inductive Draft
  | leaf (d : Datum)
  | moment (text : List Char)
  | list (items : List Draft)
  | table (isOpen : Bool) (members : List (String × Draft))

/-- A date or a time at the front of a text, as it is written. -/
def moment (run rest : List Char) : Option (Draft × List Char) := do
  let left ← momentRest rest
  return (.moment (run ++ rest.take (rest.length - left.length)), left)

/-- Whether a run belongs to a date or a time instead of a number. -/
def startsMoment (run rest : List Char) : Bool :=
  run.contains 'T' || run.contains 't' ||
    ((run.drop 1).contains '-' && !hasExponent run) || rest.head? == some ':'
where
  /-- Whether a run has a mark of an exponent with a minus after it. -/
  hasExponent : List Char → Bool
    | 'e' :: '-' :: _ => true
    | 'E' :: '-' :: _ => true
    | _ :: rest => hasExponent rest
    | [] => false

/-- A value that starts with a run of bare characters. -/
def bareValue (run rest : List Char) : Option (Draft × List Char) :=
  if run = ['t', 'r', 'u', 'e'] then some (.leaf (.bool true), rest)
  else if run = ['f', 'a', 'l', 's', 'e'] then some (.leaf (.bool false), rest)
  else
    let isNumber := run.head?.any fun c => c.isDigit || c = '-'
    if isNumber = false ∧ run ≠ ['i', 'n', 'f'] ∧ run ≠ ['n', 'a', 'n'] then none
    else if startsMoment run rest then moment run rest
    else (number (run ++ rest)).map fun (d, rest) => (.leaf d, rest)

/-- Adds a value under a path of names.  All names but the last one lead through open tables, which
are made where they are missing. -/
def Draft.add (value : Draft) : List String → List (String × Draft) →
    Option (List (String × Draft))
  | [], _ => none
  | [name], members => some (members ++ [(name, value)])
  | name :: rest, members =>
    match members.span fun m => m.1 != name with
    | (before, (_, .table true inner) :: after) => do
      return before ++ (name, .table true (← Draft.add value rest inner)) :: after
    | (before, []) => do return before ++ [(name, .table true (← Draft.add value rest []))]
    | _ => none

/-- The items of a list after its bracket. -/
def listItem (value : Scan Draft) (done : List Draft) : Scan (List Draft × Bool) := fun cs => do
  match ← skipGap cs with
  | ']' :: rest => return ((done, true), rest)
  | start =>
    let (item, rest) ← value start
    match ← skipGap rest with
    | ',' :: rest => return ((done ++ [item], false), rest)
    | ']' :: rest => return ((done ++ [item], true), rest)
    | _ => none

/-- The members of a table on one line after its brace. -/
def tableMember (value : Scan Draft) (members : List (String × Draft)) :
    Scan (List (String × Draft) × Bool) := fun cs => do
  let (names, rest) ← key cs
  let (d, rest) ← value rest
  let members ← Draft.add d names members
  match skipSpace rest with
  | '\x7d' :: rest => return ((members, true), rest)
  | ',' :: rest => return ((members, false), rest)
  | _ => none

/-- A value with lists and tables nested at most so deeply. -/
def value : Nat → Scan Draft
  | 0, _ => none
  | depth + 1, cs =>
    match cs with
    | '"' :: rest => leaf ((string '"' rest).map fun ((text, _), rest) => (.text text, rest))
    | '\'' :: rest => leaf ((string '\'' rest).map fun ((text, _), rest) => (.text text, rest))
    | '[' :: rest => do
      let (items, rest) ← Scan.untilDone (listItem (value depth)) [] rest
      return (.list items, rest)
    | '\x7b' :: rest =>
      match skipSpace rest with
      | '\x7d' :: rest => some (.table false [], rest)
      | start => do
        let (members, rest) ← Scan.untilDone (tableMember (value depth)) [] start
        return (.table false members, rest)
    | '+' :: rest =>
      if rest.head?.any isBare then leaf (number rest) else none
    | cs => do
      let (run, rest) ← Scan.run1 isBare cs
      bareValue run rest
where
  /-- A value that holds no others. -/
  leaf (result : Option (Datum × List Char)) : Option (Draft × List Char) :=
    result.map fun (d, rest) => (.leaf d, rest)

/-! ## Tables -/

/-- The name that makes a table a date or a time: the one that its text is given under, if that
comes first. -/
def momentName : String := "$__toml_private_datetime"

/-- The date or the time whose text has the name for one. -/
def namedMoment? : Draft → Option Datum
  | .leaf (.text text) => (moment? text.toList).map .text
  | _ => none

/-- Whether no name comes twice. -/
def distinct (members : List (String × α)) : Bool :=
  match members with
  | [] => true
  | (name, _) :: rest => (Datum.kept name rest).isNone && distinct rest

mutual
/-- A value once it is read.  What comes after the name for a date is not looked at. -/
def Draft.datum? : Draft → Option Datum
  | .leaf d => some d
  | .moment text => (moment? text).map .text
  | .list items => (Draft.items? items).map .list
  | .table _ members =>
    match members with
    | [] => some (.record [])
    | (name, first) :: rest =>
      if name = momentName then namedMoment? first
      else if distinct ((name, first) :: rest) then do
        return .record ((name, ← first.datum?) :: (← Draft.members? rest))
      else none

/-- The items of a list once they are read. -/
def Draft.items? : List Draft → Option (List Datum)
  | [] => some []
  | item :: rest => do return (← item.datum?) :: (← Draft.items? rest)

/-- The members of a table once they are read. -/
def Draft.members? : List (String × Draft) → Option (List (String × Datum))
  | [] => some []
  | (name, draft) :: rest => do return (name, ← draft.datum?) :: (← Draft.members? rest)
end

/-! ## Files -/

/-- A header with the settings below it. -/
structure Block where
  header : List String
  isItem : Bool
  own : List (String × Draft)

/-- A header after its bracket, with what follows its line. -/
def header : Scan (List String × Bool) := fun cs => do
  let isItem := cs.head? == some '['
  let (names, rest) ← path (cs.length + 1) (if isItem then cs.drop 1 else cs)
  let rest ← Scan.exactly ']' rest
  let rest ← if isItem then Scan.exactly ']' rest else some rest
  return ((names, isItem), ← lineEnd rest)

/-- One line of a file: nothing, a header, or a setting of the block that is being read. -/
def line (state : List Block × Block) : Scan ((List Block × Block) × Bool) := fun cs => do
  let (done, current) := state
  match ← skipGap cs with
  | [] => return ((state, true), [])
  | '[' :: rest =>
    let ((names, isItem), rest) ← header rest
    return (((done ++ [current], ⟨names, isItem, []⟩), false), rest)
  | start =>
    let (names, rest) ← key start
    let (d, rest) ← value (cs.length + 1) rest
    let own ← Draft.add d names current.own
    return (((done, { current with own }), false), ← lineEnd rest)

/-- The names that come first in some headers, each once. -/
def firstNames (blocks : List Block) : List String :=
  (blocks.filterMap fun block => block.header.head?).eraseDups

/-- The blocks below a name, without that name. -/
def blocksBelow (name : String) (blocks : List Block) : List Block :=
  blocks.filterMap fun block =>
    match block.header with
    | first :: rest => if first = name then some { block with header := rest } else none
    | [] => none

/-- Whether a block is the head of an item of a list of tables. -/
def Block.startsItem (block : Block) : Bool :=
  block.header.isEmpty && block.isItem

/-- The items of a list of tables, each with the blocks below it; what stands before the first of
them is kept apart. -/
def splitItems (blocks : List Block) : List Block × List (List Block) :=
  blocks.foldr (fun block (before, items) =>
    if block.startsItem then ([], ({ block with isItem := false } :: before) :: items)
    else (block :: before, items)) ([], [])

/-- The first name of the table that some blocks make, with what is given for it in a line of its
own. -/
def firstMember? : List Block → Option (String × Option Draft)
  | [] => none
  | block :: rest =>
    match block.header, block.own with
    | [], (name, draft) :: _ => some (name, some draft)
    | [], [] => (rest.head?.bind fun next => next.header.head?).map (·, none)
    | name :: _, _ => some (name, none)

/-- The table that some blocks make, with headers of at most so many names.  If it is a date, no
other block may belong to it, but what follows a date at the top of a file is not looked at. -/
def table (atTop : Bool) : Nat → List Block → Option Datum
  | 0, _ => none
  | depth + 1, blocks => do
    match (firstMember? blocks).filter (·.1 == momentName) with
    | some (_, first) =>
      if blocks.head?.any (·.isItem) ∨ (atTop = false ∧ blocks.length > 1) then none
      namedMoment? (← first)
    | none =>
      let here := blocks.filter fun block => block.header.isEmpty
      if here.length > 1 ∨ here.any (·.isItem) then none
      let own ← Draft.members? (here.flatMap (·.own))
      let names := firstNames blocks
      if distinct own = false ∨ names.any fun name => (Datum.kept name own).isSome then none
      let parts ← names.mapM fun name => do
        let below := blocksBelow name blocks
        if below.head?.any Block.startsItem then
          let items ← (splitItems below).2.mapM (table false depth)
          return (name, Datum.list items)
        else return (name, ← table false depth below)
      return .record (own ++ parts)

/-- The settings of a file; a file that is a date has no settings. -/
def read (text : List Char) : Option (List (String × Datum)) := do
  let text := Scan.foldLineEnds text
  let start := if text.head? = some '\ufeff' then text.drop 1 else text
  let ((done, last), _) ← Scan.untilDone line ([], ⟨[], false, []⟩) start
  let blocks := done ++ [last]
  let depth := (blocks.map fun block => block.header.length).foldl max 0 + 2
  return (← table true depth blocks).members

end Strongroom.Toml
