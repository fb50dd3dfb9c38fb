import Strongroom.Settings.Scan
/-!
# Places in an outline

Where something stands in an outline matters: its line, its column, and how far behind the start of
the text it is.  A cursor is a place together with the text from there on.
-/

namespace Strongroom.Yaml

/-! ## Kinds of characters -/

/-- Whether a character is a blank within a line. -/
def isBlank (c : Char) : Bool := c = ' ' || c = '\t'

/-- Whether a character ends a line. -/
def isLineEnd (c : Char) : Bool := c = '\n' || c = '\r'

/-- Whether a character is a blank or ends a line. -/
def isGap (c : Char) : Bool := isBlank c || isLineEnd c

/-- Whether a character separates values between brackets. -/
def isFlowMark (c : Char) : Bool :=
  c = ',' || c = '[' || c = ']' || c = '\x7b' || c = '\x7d'

/-- Whether a character may stand in the name of an anchor. -/
def isWordChar (c : Char) : Bool :=
  c.isAlphanum || c = '_' || c = '-'

/-- Whether the line is over. -/
def atLineEnd (cs : List Char) : Bool := cs.head?.all isLineEnd

/-- Whether a blank, the end of a line or the end of the text comes next. -/
def atGap (cs : List Char) : Bool := cs.head?.all isGap

/-! ## Cursors -/

/-- A place in a text, with the text from there on.  Lines and columns are counted from zero. -/
structure Cursor where
  offset : Nat
  line : Nat
  column : Nat
  rest : List Char

namespace Cursor

/-- The place at the start of a text. -/
def start (text : List Char) : Cursor := ⟨0, 0, 0, text⟩

/-- The place behind the next character.  Only a line feed starts a line. -/
def next (c : Cursor) : Cursor :=
  match c.rest with
  | [] => c
  | '\n' :: rest => ⟨c.offset + 1, c.line + 1, 0, rest⟩
  | _ :: rest => ⟨c.offset + 1, c.line, c.column + 1, rest⟩

/-- The place behind so many characters. -/
def pass (c : Cursor) : Nat → Cursor
  | 0 => c
  | n + 1 => c.next.pass n

/-- The place behind the characters of a kind that come next. -/
def passWhile (c : Cursor) (p : Char → Bool) : Cursor :=
  c.pass (c.rest.takeWhile p).length

/-- The place where a later part of the text starts. -/
def moveTo (c : Cursor) (rest : List Char) : Cursor :=
  c.pass (c.rest.length - rest.length)

/-- The place behind the end of the line, where a carriage return and a line feed end one line. -/
def passLineEnd (c : Cursor) : Cursor :=
  match c.rest with
  | '\r' :: '\n' :: _ => c.pass 2
  | d :: _ => if isLineEnd d then c.next else c
  | [] => c

/-- The place behind the blanks and the comment that may follow the last word of a line, if the line
is over there.  A comment needs no blank in front of it. -/
def lineDone? (c : Cursor) : Option Cursor :=
  let after := c.passWhile isBlank
  let after := if after.rest.head? = some '#' then after.passWhile (!isLineEnd ·) else after
  if atLineEnd after.rest then some after.passLineEnd else none

/-- Whether a line starts here that separates documents. -/
def atSeparator (c : Cursor) : Bool :=
  c.column = 0 &&
    (['-', '-', '-'].isPrefixOf c.rest || ['.', '.', '.'].isPrefixOf c.rest) &&
      atGap (c.rest.drop 3)

/-- Runs a step as often as it asks for another one, as long as it gets on in the text. -/
def untilDone (step : σ → Cursor → Option ((σ × Bool) × Cursor)) (state : σ) (c : Cursor) :
    Option (σ × Cursor) :=
  Scan.untilDoneBy (·.rest.length) step state c

end Cursor

/-! ## Gaps -/

/-- The number of line ends among some characters. -/
def countLineEnds : List Char → Nat
  | '\r' :: '\n' :: rest => countLineEnds rest + 1
  | c :: rest => countLineEnds rest + if isLineEnd c then 1 else 0
  | [] => 0

/-- What stands between two parts of a text that goes on over lines: the blanks before the end of
the line, and the number of line ends. -/
structure Gap where
  blanks : List Char
  lineEnds : Nat

/-- The gap at a place, and the place behind it. -/
def Cursor.gap (c : Cursor) : Gap × Cursor :=
  let span := c.rest.takeWhile isGap
  (⟨span.takeWhile isBlank, countLineEnds span⟩, c.pass span.length)

/-- What a gap stands for: its blanks, or a space for one line end, or one line end less than there
are. -/
def Gap.text (gap : Gap) : List Char :=
  match gap.lineEnds with
  | 0 => gap.blanks
  | 1 => [' ']
  | n + 1 => List.replicate n '\n'

/-- Whether a tabulator stands in one of the first columns of a line that starts in a gap. -/
def tabBefore (least : Int) : (column : Nat) → (started : Bool) → List Char → Bool
  | _, _, [] => false
  | column, started, c :: cs =>
    (started && c = '\t' && decide ((column : Int) < least)) ||
      tabBefore least (if c = '\n' then 0 else column + 1) (started || isLineEnd c) cs

end Strongroom.Yaml
