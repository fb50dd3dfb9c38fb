import Strongroom.Settings.Yaml.Scalar
/-!
# Tokens of an outline

An outline is cut into tokens.  Where columns open and close a list or a record, tokens say so, and
so they do where the name of a member starts: that shows only at the colon behind it, which has to
come on the same line and not too far away.
-/

namespace Strongroom.Yaml

/-- What a tag says about the word behind it: a handle, and what follows the handle. -/
structure Tag where
  handle : String
  suffix : String
deriving DecidableEq

/-- The tokens of an outline. -/
inductive Token
  | direction
  | documentStart
  | documentEnd
  | listStart
  | recordStart
  | blockEnd
  | openBracket
  | closeBracket
  | openBrace
  | closeBrace
  | comma
  | item
  | name
  | value
  | reference (anchor : String)
  | anchor (anchor : String)
  | tag (tag : Tag)
  | word (text : String)
  | text (text : String)
deriving DecidableEq

/-! ## Anchors, tags and directions -/

/-- The name of an anchor, whose mark comes next. -/
def anchorName (c : Cursor) : Option (String × Cursor) :=
  let name := c.next.rest.takeWhile isWordChar
  let after := c.next.pass name.length
  let ends := atGap after.rest || after.rest.head?.any fun d =>
    d = '?' || d = ':' || d = ',' || d = ']' || d = '\x7d' || d = '%' || d = '@' || d.toNat = 0x60
  if name = [] ∨ ends = false then none else some (String.ofList name, after)

/-- Whether a character may stand in a tag. -/
def isTagChar (c : Char) : Bool :=
  isWordChar c || c = ';' || c = '/' || c = '?' || c = ':' || c = '@' || c = '&' || c = '=' ||
    c = '+' || c = '$' || c = ',' || c = '.' || c = '!' || c = '~' || c = '*' || c = '\'' ||
    c = '(' || c = ')' || c = '[' || c = ']'

/-- An octet given by two digits in base sixteen behind a percent sign. -/
def octet : Scan Nat := fun cs =>
  match cs with
  | '%' :: a :: b :: rest => (Scan.hexadecimal? [a, b]).map fun n => (n, rest)
  | _ => none

/-- Octets that follow the first one of a character, put behind the number that is there. -/
def moreOctets : Nat → Nat → Scan Nat
  | 0, n, cs => some (n, cs)
  | count + 1, n, cs => do
    let (next, rest) ← octet cs
    if next / 0x40 = 2 then moreOctets count (n * 0x100 + next) rest else none

/-- A character given by octets.  Their number is told by the first one, but they are put together
as they are. -/
def octetChar : Scan Char := fun cs => do
  let (first, rest) ← octet cs
  let count ←
    if first / 0x80 = 0 then some 0
    else if first / 0x20 = 6 then some 1
    else if first / 0x10 = 0xe then some 2
    else if first / 0x8 = 0x1e then some 3
    else none
  let (n, rest) ← moreOctets count first rest
  return (← Scan.character? n, rest)

/-- One character more of a tag. -/
def tagStep (seen : List Char) : Scan (List Char × Bool) := fun cs =>
  match cs with
  | '%' :: rest => (octetChar ('%' :: rest)).map fun (c, rest) => ((c :: seen, false), rest)
  | c :: rest =>
    if isTagChar c then some ((c :: seen, false), rest) else some ((seen, true), c :: rest)
  | [] => some ((seen, true), [])

/-- The characters of a tag at the front of a text. -/
def tagChars : Scan (List Char) := fun cs =>
  (Scan.untilDone tagStep [] cs).map fun (seen, rest) => (seen.reverse, rest)

/-- A handle: a mark, letters, and maybe another mark. -/
def tagHandle : Scan (List Char) := fun cs => do
  let rest ← Scan.exactly '!' cs
  let letters := rest.takeWhile isWordChar
  match rest.drop letters.length with
  | '!' :: rest => return ('!' :: letters ++ ['!'], rest)
  | rest => return ('!' :: letters, rest)

/-- A tag: between pointed brackets, or a handle with what follows it.  A handle that is not closed
by a second mark belongs to what follows, and a mark alone is a tag of its own. -/
def tag : Scan Tag := fun cs => do
  let (tag, rest) ←
    match cs with
    | '!' :: '<' :: rest => do
      let (suffix, rest) ← tagChars rest
      if suffix = [] then none
      some (Tag.mk "" (String.ofList suffix), ← Scan.exactly '>' rest)
    | cs => do
      let (handle, rest) ← tagHandle cs
      let (suffix, rest) ← tagChars rest
      if 2 ≤ handle.length ∧ handle.getLast? = some '!' then
        if suffix = [] then none
        else some (Tag.mk (String.ofList handle) (String.ofList suffix), rest)
      else
        let suffix := handle.drop 1 ++ suffix
        if suffix = [] then some (Tag.mk "" "!", rest)
        else some (Tag.mk "!" (String.ofList suffix), rest)
  if atGap rest then return (tag, rest) else none

/-- The number of a version: up to nine digits. -/
def versionNumber (cs : List Char) : Option (List Char) :=
  let digits := cs.takeWhile Char.isDigit
  if digits = [] ∨ 9 < digits.length then none else some (cs.drop digits.length)

/-- The text behind a direction, whose mark has been read: a version, a handle for tags, or anything
under another name. -/
def direction (cs : List Char) : Option (List Char) := do
  let name := cs.takeWhile isWordChar
  let rest := cs.drop name.length
  if name = [] ∨ atGap rest = false then none
  if name = ['Y', 'A', 'M', 'L'] then
    versionNumber (← Scan.exactly '.' (← versionNumber (rest.dropWhile isBlank)))
  else if name = ['T', 'A', 'G'] then
    let (handle, rest) ← tagHandle (rest.dropWhile isBlank)
    if handle ≠ ['!'] ∧ (handle.length < 2 ∨ handle.getLast? ≠ some '!') then none
    let (shorthand, rest) ← tagChars (rest.dropWhile isBlank)
    if shorthand = [] ∨ atGap rest = false then none
    return rest
  else return rest.dropWhile (!isLineEnd ·)

/-! ## Cutting a text -/

/-- A token that the name of a member may start with.  Between brackets the name is required if it
stands at the column of the block around them. -/
structure Candidate where
  place : Cursor
  index : Nat
  required : Bool

/-- What is known between two tokens: the tokens so far, each with those that turned out to stand
before it, the column of the block, the columns of the blocks around it, whether a name may start
here, what it may have started with, the same for the brackets around this place, and where the last
quoted text ended. -/
structure Progress where
  cursor : Cursor
  tokens : Array (List Token)
  column : Int
  outer : List Int
  mayStart : Bool
  candidate : Option Candidate
  enclosing : List (Option Candidate)
  quotedEnd : Option Nat

namespace Progress

/-- Nothing has been read. -/
def start (text : List Char) : Progress where
  cursor := .start text
  tokens := #[]
  column := -1
  outer := []
  mayStart := true
  candidate := none
  enclosing := []
  quotedEnd := none

/-- Whether a bracket is open. -/
def inFlow (p : Progress) : Bool := !p.enclosing.isEmpty

/-- One token more. -/
def emit (p : Progress) (token : Token) : Progress :=
  { p with tokens := p.tokens.push [token] }

/-- Tokens that stand before one that has been read. -/
def insert (p : Progress) (index : Nat) (before : List Token) : Progress :=
  if index < p.tokens.size then { p with tokens := p.tokens.modify index (before ++ ·) }
  else { p with tokens := p.tokens.push before }

/-- Ends all blocks that start behind a column. -/
def unindent (p : Progress) (column : Int) : Progress :=
  let open' := p.column :: p.outer
  let ended := open'.takeWhile fun c => decide (column < c)
  if p.inFlow then p
  else
    match open'.drop ended.length with
    | [] => p
    | c :: outer =>
      { p with column := c, outer, tokens := p.tokens ++ ended.toArray.map fun _ => [.blockEnd] }

/-- Starts a block at a column behind that of the block that is open, if no bracket is. -/
def indent (p : Progress) (column : Nat) : Progress × Bool :=
  if p.inFlow = false ∧ p.column < column then
    ({ p with column, outer := p.column :: p.outer }, true)
  else (p, false)

/-- Starts a block here. -/
def indentHere (p : Progress) (token : Token) : Progress :=
  match p.indent p.cursor.column with
  | (p, true) => p.emit token
  | (p, false) => p

/-- Gives up that a name has started. -/
def withoutName (p : Progress) : Option Progress :=
  if p.candidate.any (·.required) then none else some { p with candidate := none }

/-- The next token may start a name. -/
def maybeName (p : Progress) : Option Progress :=
  if p.mayStart then do
    let p ← p.withoutName
    let required := p.inFlow && p.column == p.cursor.column
    return { p with candidate := some ⟨p.cursor, p.tokens.size, required⟩ }
  else some p

/-- Gives up a candidate on an earlier line or more than 1024 characters back. -/
def recent (place : Cursor) : Option Candidate → Option (Option Candidate)
  | none => some none
  | some k =>
    if k.place.line < place.line ∨ k.place.offset + 1024 < place.offset then
      if k.required then none else some none
    else some (some k)

/-- Passes over blanks, line ends and comments.  A tabulator is passed over between brackets and
where no name may start; the end of a line lets a name start, except between brackets. -/
def gap (flow : Bool) : (mayStart comment : Bool) → List Char → Nat × Bool
  | mayStart, _, [] => (0, mayStart)
  | mayStart, comment, c :: cs =>
    if isLineEnd c then further (gap flow (mayStart || !flow) false cs)
    else if comment || c = ' ' || (c = '\t' && (flow || !mayStart)) then
      further (gap flow mayStart comment cs)
    else if c = '#' then further (gap flow mayStart true cs)
    else (0, mayStart)
where
  /-- One character more. -/
  further (result : Nat × Bool) : Nat × Bool := (result.1 + 1, result.2)

/-- The place of the next token, with the blocks ended that it does not belong to. -/
def toNextToken (p : Progress) : Option Progress := do
  let (size, mayStart) := gap p.inFlow p.mayStart false p.cursor.rest
  let cursor := p.cursor.pass size
  let candidate ← recent cursor p.candidate
  let enclosing ← p.enclosing.mapM (recent cursor)
  return { p with cursor, mayStart, candidate, enclosing }.unindent cursor.column

/-! ## Kinds of tokens -/

/-- Ends everything that is open. -/
def close (p : Progress) : Option Progress := do
  return { ← (p.unindent (-1)).withoutName with mayStart := false }

/-- A line that separates documents. -/
def separator (p : Progress) (token : Token) : Option Progress := do
  let p ← p.close
  return { p with cursor := p.cursor.pass 3 }.emit token

/-- A line of directions. -/
def directionLine (p : Progress) : Option Progress := do
  let p ← p.close
  let rest ← direction (p.cursor.rest.drop 1)
  return { p with cursor := ← (p.cursor.moveTo rest).lineDone? }.emit .direction

/-- The mark of a token, with what it says about a name behind it. -/
def mark (p : Progress) (token : Token) (mayStart : Bool) : Progress :=
  { p with cursor := p.cursor.next, mayStart }.emit token

/-- An opening bracket.  At most 255 may be open at once. -/
def openFlow (p : Progress) (token : Token) : Option Progress := do
  let p ← p.maybeName
  if 255 ≤ p.enclosing.length then none
  return { p with enclosing := p.candidate :: p.enclosing, candidate := none }.mark token true

/-- A closing bracket. -/
def closeFlow (p : Progress) (token : Token) : Option Progress := do
  let p ← p.withoutName
  match p.enclosing with
  | candidate :: enclosing => return { p with candidate, enclosing }.mark token false
  | [] => return p.mark token false

/-- The mark of an item of a list that is told by columns. -/
def itemMark (p : Progress) : Option Progress := do
  if p.inFlow ∨ p.mayStart = false then none
  return (← (p.indentHere .listStart).withoutName).mark .item true

/-- The mark of a name that is no single word. -/
def nameMark (p : Progress) : Option Progress := do
  if p.inFlow = false ∧ p.mayStart = false then none
  return (← (p.indentHere .recordStart).withoutName).mark .name !p.inFlow

/-- A colon: the candidate was a name, or the name is missing or was marked. -/
def valueMark (p : Progress) : Option Progress :=
  match p.candidate with
  | some k =>
    let (p, starts) := p.indent k.place.column
    let before := if starts then [.recordStart, .name] else [.name]
    some ({ p.insert k.index before with candidate := none }.mark .value false)
  | none =>
    if p.inFlow then some (p.mark .value false)
    else if p.mayStart then some ((p.indentHere .recordStart).mark .value true)
    else none

/-- A token that may start a name, and behind which none starts. -/
def scalar (p : Progress) (read : Cursor → Option (Token × Cursor)) : Option Progress := do
  let p ← p.maybeName
  let (token, cursor) ← read p.cursor
  return { p with cursor, mayStart := false }.emit token

/-- A text between quotation marks. -/
def quoted (p : Progress) (quotation : Char) : Option Progress := do
  let p ← p.scalar fun c => (quotedText quotation c).map fun (text, c) => (.text text, c)
  return { p with quotedEnd := some p.cursor.offset }

/-- A block of lines, behind which a name may start. -/
def block (p : Progress) (folds : Bool) : Option Progress := do
  let p ← p.scalar fun c => (blockText folds p.column c).map fun (text, c) => (.text text, c)
  return { p with mayStart := true }

/-- A plain word.  A name may start behind it if a line ended there. -/
def plain (p : Progress) : Option Progress := do
  let p ← p.maybeName
  let ((text, ended), cursor) ← plainWord p.inFlow (p.column + 1) p.cursor
  return { p with cursor, mayStart := ended }.emit (.word text)

/-- The next token, which starts with a character. -/
def token (p : Progress) (c : Char) : Option Progress :=
  let rest := p.cursor.rest.drop 1
  let gapNext := atGap rest
  let markNext := p.inFlow && (rest.head?.any isFlowMark || p.quotedEnd == some p.cursor.offset)
  if p.cursor.column = 0 ∧ c = '%' then p.directionLine
  else if p.cursor.atSeparator then
    p.separator (if c = '-' then .documentStart else .documentEnd)
  else
    match c with
    | '[' => p.openFlow .openBracket
    | '\x7b' => p.openFlow .openBrace
    | ']' => p.closeFlow .closeBracket
    | '\x7d' => p.closeFlow .closeBrace
    | ',' => do return (← p.withoutName).mark .comma true
    | '-' => if gapNext then p.itemMark else p.plain
    | '?' => if gapNext then p.nameMark else p.plain
    | ':' => if gapNext || markNext then p.valueMark else p.plain
    | '*' => p.scalar fun c => (anchorName c).map fun (name, c) => (.reference name, c)
    | '&' => p.scalar fun c => (anchorName c).map fun (name, c) => (.anchor name, c)
    | '!' => p.scalar fun c => (tag c.rest).map fun (tag, rest) => (.tag tag, c.moveTo rest)
    | '|' => if p.inFlow then p.plain else p.block false
    | '>' => if p.inFlow then p.plain else p.block true
    | '\'' => p.quoted '\''
    | '"' => p.quoted '"'
    | '%' => none
    | '@' => none
    | c => if c.toNat = 0x60 then none else p.plain

/-- The next token, or the end of all that is open at the end of the text. -/
def step (p : Progress) : Option (Progress × Bool) := do
  let p ← p.toNextToken
  match p.cursor.rest with
  | [] => return (← p.close, true)
  | c :: _ => return (← p.token c, false)

/-- All tokens up to the end of the text. -/
def toEnd (p : Progress) : Option Progress :=
  match p.step with
  | none => none
  | some (p', true) => some p'
  | some (p', false) => if p'.cursor.rest.length < p.cursor.rest.length then toEnd p' else none
termination_by p.cursor.rest.length

end Progress

/-- The tokens of a text. -/
def tokens? (text : List Char) : Option (List Token) :=
  (Progress.start text).toEnd.map fun p => p.tokens.toList.flatten

end Strongroom.Yaml
