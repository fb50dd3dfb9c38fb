import Strongroom.Settings.Yaml.Cursor
/-!
# Texts in an outline

A text is a plain word, which goes on over lines that are indented, or it stands between quotation
marks, or it is a block of lines below the line that announces it.
-/

namespace Strongroom.Yaml

/-! ## Plain words -/

/-- Whether a colon before these characters ends a word; `flow` tells that the word stands between
brackets. -/
def endsWord (flow : Bool) (cs : List Char) : Bool :=
  atGap cs || (flow && cs.head?.any isFlowMark)

/-- The part of a word up to the next gap or the next mark. -/
def wordPart (flow : Bool) : List Char → List Char
  | [] => []
  | c :: cs =>
    if isGap c || (c = ':' && endsWord flow cs) || (flow && isFlowMark c) then []
    else c :: wordPart flow cs

/-- The next part of a word behind the gap before it: `least` is the column at which its lines have
to start. -/
def wordStep (flow : Bool) (least : Int) (state : List Char × Gap) (c : Cursor) :
    Option (((List Char × Gap) × Bool) × Cursor) :=
  let (seen, before) := state
  if c.atSeparator || c.rest.head? = some '#' then some (((seen, before), true), c)
  else
    let part := wordPart flow c.rest
    let seen := if part = [] then seen else seen ++ before.text ++ part
    let before := if part = [] then before else ⟨[], 0⟩
    let here := c.pass part.length
    if !here.rest.head?.any isGap then some (((seen, before), true), here)
    else if tabBefore least here.column false (here.rest.takeWhile isGap) then none
    else
      let (gap, after) := here.gap
      some (((seen, gap), !flow && decide ((after.column : Int) < least)), after)

/-- A plain word, and whether a line ended behind it. -/
def plainWord (flow : Bool) (least : Int) (c : Cursor) : Option ((String × Bool) × Cursor) := do
  let ((text, gap), after) ← c.untilDone (wordStep flow least) ([], ⟨[], 0⟩)
  return ((String.ofList text, 0 < gap.lineEnds), after)

/-! ## Quoted texts -/

/-- The character of an escape. -/
def escape : Scan Char := fun cs =>
  match cs with
  | '0' :: rest => some ('\x00', rest)
  | 'a' :: rest => some ('\x07', rest)
  | 'b' :: rest => some ('\x08', rest)
  | 't' :: rest => some ('\t', rest)
  | '\t' :: rest => some ('\t', rest)
  | 'n' :: rest => some ('\n', rest)
  | 'v' :: rest => some ('\x0b', rest)
  | 'f' :: rest => some ('\x0c', rest)
  | 'r' :: rest => some ('\r', rest)
  | 'e' :: rest => some ('\x1b', rest)
  | ' ' :: rest => some (' ', rest)
  | '"' :: rest => some ('"', rest)
  | '\'' :: rest => some ('\'', rest)
  | '\\' :: rest => some ('\\', rest)
  | 'N' :: rest => some ('\u0085', rest)
  | '_' :: rest => some ('\u00a0', rest)
  | 'L' :: rest => some ('\u2028', rest)
  | 'P' :: rest => some ('\u2029', rest)
  | 'x' :: rest => Scan.codePoint 2 rest
  | 'u' :: rest => Scan.codePoint 4 rest
  | 'U' :: rest => Scan.codePoint 8 rest
  | _ => none

/-- One character more of a text between double marks, up to a gap, a mark or the end of the line
behind a backslash; `seen` holds the characters in reverse. -/
def doubleStep (seen : List Char) : Scan (List Char × Bool) := fun cs =>
  match cs with
  | [] => some ((seen, true), [])
  | '"' :: rest => some ((seen, true), '"' :: rest)
  | '\\' :: rest =>
    if rest.head?.any isLineEnd then some ((seen, true), '\\' :: rest)
    else (escape rest).map fun (c, rest) => ((c :: seen, false), rest)
  | c :: rest => if isGap c then some ((seen, true), c :: rest) else some ((c :: seen, false), rest)

/-- One character more of a text between single marks, where two marks stand for one. -/
def singleStep (seen : List Char) : Scan (List Char × Bool) := fun cs =>
  match cs with
  | [] => some ((seen, true), [])
  | '\'' :: '\'' :: rest => some (('\'' :: seen, false), rest)
  | '\'' :: rest => some ((seen, true), '\'' :: rest)
  | c :: rest => if isGap c then some ((seen, true), c :: rest) else some ((c :: seen, false), rest)

/-- One part of a quoted text with the gap behind it, or the last one with the closing mark.  The
end of a line behind a backslash is taken back. -/
def quotedStep (mark : Char) (seen : List Char) (c : Cursor) :
    Option ((List Char × Bool) × Cursor) := do
  if c.atSeparator then none
  let (part, rest) ← Scan.untilDone (if mark = '"' then doubleStep else singleStep) [] c.rest
  let seen := seen ++ part.reverse
  let here := c.moveTo rest
  match rest with
  | [] => none
  | '\\' :: _ =>
    let here := here.next.passLineEnd
    if here.rest.head? = some mark then return ((seen, true), here.next)
    let (gap, after) := here.gap
    return ((seen ++ List.replicate gap.lineEnds '\n', false), after)
  | d :: _ =>
    if d = mark then return ((seen, true), here.next)
    let (gap, after) := here.gap
    return ((seen ++ gap.text, false), after)

/-- A text between quotation marks, of which the first comes next. -/
def quotedText (mark : Char) (c : Cursor) : Option (String × Cursor) := do
  let (text, after) ← c.next.untilDone (quotedStep mark) []
  return (String.ofList text, after)

/-! ## Blocks of lines -/

/-- What happens to the line ends behind the last line of a block. -/
inductive Chomp
  | strip
  | clip
  | keep
deriving DecidableEq

/-- The marks that may follow the one that starts a block: what happens at its end, and by how many
columns it is indented. -/
def blockMarks : Scan (Chomp × Option Nat) := fun cs =>
  match chomp? cs with
  | some (chomp, rest) =>
    match rest with
    | d :: more => if d.isDigit then (width? d).map fun n => ((chomp, some n), more)
      else some ((chomp, none), rest)
    | [] => some ((chomp, none), [])
  | none =>
    match cs with
    | d :: rest =>
      if d.isDigit then do
        let n ← width? d
        match chomp? rest with
        | some (chomp, rest) => return ((chomp, some n), rest)
        | none => return ((.clip, some n), rest)
      else some ((.clip, none), d :: rest)
    | [] => some ((.clip, none), [])
where
  /-- The mark for what happens at the end. -/
  chomp? : List Char → Option (Chomp × List Char)
    | '+' :: rest => some (.keep, rest)
    | '-' :: rest => some (.strip, rest)
    | _ => none
  /-- The width that a digit tells, which is not zero. -/
  width? (d : Char) : Option Nat :=
    if d = '0' then none else some (d.toNat - 48)

/-- What stands in front of a line of a block. -/
structure Margin where
  size : Nat
  lineEnds : Nat
  deepest : Nat

/-- The empty lines and the spaces in front of a line, up to column `indent` or, if that is zero, as
far as the spaces reach.  No tabulator may stand there. -/
def margin (indent : Nat) : (column : Nat) → List Char → Option Margin
  | column, [] => some ⟨0, 0, column⟩
  | column, '\r' :: '\n' :: rest => (margin indent 0 rest).map (wider 2 column)
  | column, c :: rest =>
    let inside := indent = 0 || column < indent
    if c = ' ' && inside then (margin indent (column + 1) rest).map fun m => { m with size := m.size + 1 }
    else if c = '\t' && inside then none
    else if c = '\n' then (margin indent 0 rest).map (wider 1 column)
    else if c = '\r' then (margin indent (column + 1) rest).map (wider 1 column)
    else some ⟨0, 0, column⟩
where
  /-- The margin with an empty line more that ends at a column. -/
  wider (size column : Nat) (m : Margin) : Margin :=
    ⟨m.size + size, m.lineEnds + 1, max m.deepest column⟩

/-- What has been read of a block: its text, whether a line end waits to be written, how many empty
lines wait, and whether the last line started with a blank. -/
structure BlockProgress where
  text : List Char
  pending : Bool
  empties : Nat
  blank : Bool

/-- What stands for the gap in front of a line.  In a folded block the end of a line counts as a
space, or as nothing before empty lines, unless a line beside it starts with a blank. -/
def BlockProgress.gap (p : BlockProgress) (folds blank : Bool) : List Char :=
  let joint :=
    if !p.pending then []
    else if folds && !p.blank && !blank then (if p.empties = 0 then [' '] else [])
    else ['\n']
  joint ++ List.replicate p.empties '\n'

/-- One line of a block whose lines start at column `indent`. -/
def blockStep (folds : Bool) (indent : Nat) (p : BlockProgress) (c : Cursor) :
    Option ((BlockProgress × Bool) × Cursor) := do
  if c.column ≠ indent ∨ c.rest = [] then return ((p, true), c)
  let blank := c.rest.head?.any isBlank
  let line := c.rest.takeWhile (!isLineEnd ·)
  let text := p.text ++ p.gap folds blank ++ line
  let here := c.pass line.length
  if here.rest = [] then return ((⟨text, false, 0, blank⟩, true), here)
  let here := here.passLineEnd
  let m ← margin indent here.column here.rest
  return ((⟨text, true, m.lineEnds, blank⟩, false), here.pass m.size)

/-- A block of lines, whose first mark comes next, below a line of an outline at column `outer`. -/
def blockText (folds : Bool) (outer : Int) (c : Cursor) : Option (String × Cursor) := do
  let ((chomp, width), rest) ← blockMarks c.next.rest
  let here ← (c.moveTo rest).lineDone?
  let known := width.elim 0 fun n => outer.toNat + n
  let m ← margin known here.column here.rest
  let indent := if known = 0 then max (max m.deepest (outer + 1).toNat) 1 else known
  let start := here.pass m.size
  let (p, after) ← start.untilDone (blockStep folds indent) ⟨[], false, m.lineEnds, false⟩
  let last := if p.pending && chomp != .strip then ['\n'] else []
  let more := if chomp = .keep then List.replicate p.empties '\n' else []
  return (String.ofList (p.text ++ last ++ more), after)

end Strongroom.Yaml
