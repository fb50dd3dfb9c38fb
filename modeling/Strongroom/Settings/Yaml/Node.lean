import Strongroom.Decimal.Reading
import Strongroom.Settings.Yaml.Token
/-!
# Nodes of an outline

The tokens of an outline make up a tree of records, lists and words.  A node may carry an anchor, to
which a reference may come back later, and a tag, which tells what a plain word stands for.
-/

namespace Strongroom.Yaml

/-- What an outline holds at a place.  A word that is not what its tag asks for is void, and some
numbers are known for what they are although they cannot be read.  Of the members of one name the
last one counts. -/
inductive Node
  | leaf (value : Datum)
  | void
  | unreadable
  | list (items : List Node)
  | record (members : List (String × Node))

namespace Node

/-! ## Words -/

/-- Nothing. -/
def null : Node := .leaf .null

/-- The whole number that a word spells: behind a mark of its base, behind a plus, which another sign
may follow, or just in decimal. -/
def whole? : List Char → Option Int
  | '0' :: 'x' :: digits => Decimal.integerIn? 16 digits
  | '0' :: 'o' :: digits => Decimal.integerIn? 8 digits
  | '+' :: digits => Decimal.integer? digits
  | word => Decimal.integer? word

/-- The words for numbers that cannot be read. -/
def boundless : List String :=
  [".inf", ".Inf", ".INF", "+.inf", "+.Inf", "+.INF", "-.inf", "-.Inf", "-.INF", ".nan", ".NAN"]

/-- The number that a word spells, which need not be whole. -/
def real? (word : String) : Option Node :=
  if word ∈ boundless then some .unreadable
  else (Decimal.real? word.toList).map fun x => .leaf (.real x)

/-- What a word spells if it is one of two. -/
def bool? (word : String) : Option Node :=
  if word = "true" then some (.leaf (.bool true))
  else if word = "false" then some (.leaf (.bool false))
  else none

/-- What a word spells if it is one of those for nothing. -/
def null? (word : String) : Option Node :=
  if word = "~" ∨ word = "null" then some .null else none

/-- What a plain word stands for. -/
def ofWord (word : String) : Node :=
  let whole := (whole? word.toList).map fun n => Node.leaf (.integer n)
  (whole <|> null? word <|> bool? word <|> real? word).getD (.leaf (.text word))

/-- What a plain word with a tag stands for.  Tags with the short handle name the kinds of words;
every other tag makes a text. -/
def ofTagged (tag : Tag) (word : String) : Node :=
  let node :=
    if tag.handle ≠ "!!" then some (.leaf (.text word))
    else
      match tag.suffix with
      | "bool" => bool? word
      | "int" => (Decimal.integer? word.toList).map fun n => .leaf (.integer n)
      | "float" => real? word
      | "null" => null? word
      | _ => some (.leaf (.text word))
  node.getD .void

/-- What a plain word with or without a tag stands for. -/
def ofPlain (tag : Option Tag) (word : String) : Node :=
  tag.elim (ofWord word) fun tag => ofTagged tag word

/-! ## Records -/

/-- The text that a node is. -/
def text? : Node → Option String
  | .leaf (.text text) => some text
  | _ => none

/-- The members that are written as names and values in turn.  A void name gives its place to the
node behind it, and only members whose name is a text are kept. -/
def membersOf : List Node → List (String × Node)
  | .void :: rest => membersOf rest
  | name :: value :: rest =>
    match name.text? with
    | some text => (text, value) :: membersOf rest
    | none => membersOf rest
  | _ => []

mutual
/-- The value that a node stands for. -/
def datum? : Node → Option Datum
  | .leaf value => some value
  | .void => some .null
  | .unreadable => none
  | .list items => (itemData? items).map .list
  | .record members => (memberData? members).map .record

/-- The items of a list as values. -/
def itemData? : List Node → Option (List Datum)
  | [] => some []
  | item :: rest => do return (← item.datum?) :: (← itemData? rest)

/-- The members of a record as values. -/
def memberData? : List (String × Node) → Option (List (String × Datum))
  | [] => some []
  | (name, value) :: rest => do
    if rest.any fun later => later.1 = name then memberData? rest
    else return (name, ← value.datum?) :: (← memberData? rest)
end

end Node

/-! ## Reading -/

/-- What is known between two nodes: the tokens that are left, and the anchors so far, each with its
node once that is complete. -/
structure Remainder where
  tokens : List Token
  anchors : Array (String × Option Node)

/-- A reader takes something off the tokens or refuses them. -/
abbrev Reader := StateT Remainder Option

namespace Reader

/-- The token that comes next. -/
def peek : Reader (Option Token) := do return (← get).tokens.head?

/-- Passes over a token. -/
def skip : Reader Unit :=
  modify fun r => { r with tokens := r.tokens.tail }

/-- Passes over a token if it comes next. -/
def accept (token : Token) : Reader Bool := do
  if (← peek) = some token then
    skip
    return true
  else return false

/-- Passes over a token that has to come next. -/
def expect (token : Token) : Reader Unit := do
  if !(← accept token) then failure

/-- Passes over all tokens of a kind that come next. -/
def skipAll (token : Token) : Reader Unit :=
  modify fun r => { r with tokens := r.tokens.dropWhile (· = token) }

/-- Runs a step as often as it asks for another one, as long as it takes tokens. -/
def untilDone (step : σ → Reader (σ × Bool)) (state : σ) : Reader σ := fun r =>
  Scan.untilDoneBy (·.tokens.length) step state r

/-! ## Anchors and tags -/

/-- The node that a reference comes back to, which is the last one of that name, and void as long as
it is not complete. -/
def node? (anchor : String) : Reader Node := do
  let some (_, node) := (← get).anchors.findRev? fun known => known.1 = anchor | failure
  return node.getD .void

/-- An anchor that may come next, by its number. -/
def anchor? : Reader (Option Nat) := do
  let some (.anchor name) ← peek | return none
  skip
  modifyGet fun r => (some r.anchors.size, { r with anchors := r.anchors.push (name, none) })

/-- A tag that may come next. -/
def tag? : Reader (Option Tag) := do
  let some (.tag tag) ← peek | return none
  skip
  return some tag

/-- Keeps the node of an anchor, now that it is complete. -/
def complete (anchor : Option Nat) (node : Node) : Reader Unit :=
  match anchor with
  | none => return
  | some number =>
    modify fun r =>
      { r with anchors := r.anchors.modify number fun (name, _) => (name, some node) }

/-! ## Lists and records -/

/-- Where a node stands: on lines of its own, behind a name, or between brackets.  Behind a name the
items of a list may start at the column of the name. -/
inductive Position
  | line
  | member
  | flow
deriving DecidableEq

/-- A node, or nothing if one of some tokens comes in its place. -/
def orNull (ends : List Token) (node : Reader Node) : Reader Node := do
  match ← peek with
  | some token => if token ∈ ends then return .null else node
  | none => node

/-- What stands behind a name: a colon and a value, of which both or the value may be missing. -/
def valuePart (ends : List Token) (node : Reader Node) : Reader Node := do
  if ← accept .value then orNull ends node else return .null

/-- One item more of a list whose items are told by columns. -/
def item (node : Position → Reader Node) (items : Array Node) : Reader (Array Node × Bool) := do
  if ← accept .blockEnd then return (items, true)
  expect .item
  return (items.push (← orNull [.item, .blockEnd] (node .line)), false)

/-- One item more of a list that starts at the column of its name. -/
def levelItem (node : Position → Reader Node) (items : Array Node) :
    Reader (Array Node × Bool) := do
  if ← accept .item then
    return (items.push (← orNull [.item, .name, .value, .blockEnd] (node .line)), false)
  else return (items, true)

/-- One member more of a record whose members are told by columns: a name and a value. -/
def member (node : Position → Reader Node) (parts : Array Node) : Reader (Array Node × Bool) := do
  if ← accept .blockEnd then return (parts, true)
  let ends := [.name, .value, .blockEnd]
  let name ←
    if ← accept .name then orNull ends (node .member)
    else if (← peek) = some .value then pure .null
    else failure
  return ((parts.push name).push (← valuePart ends (node .member)), false)

/-- One member more of a record between braces. -/
def flowMember (node : Position → Reader Node) (parts : Array Node) :
    Reader (Array Node × Bool) := do
  if ← accept .closeBrace then return (parts, true)
  if !parts.isEmpty then
    expect .comma
    if ← accept .closeBrace then return (parts, true)
  let ends := [.comma, .closeBrace]
  if ← accept .name then
    let name ← orNull (.value :: ends) (node .flow)
    return ((parts.push name).push (← valuePart ends (node .flow)), false)
  else if (← peek) = some .value then
    return ((parts.push .null).push (← valuePart ends (node .flow)), false)
  else return ((parts.push (← node .flow)).push .null, false)

/-- A record of one member that stands in a list without braces, after the mark of its name.  If the
name is missing, the token in its place is passed over. -/
def pair (node : Position → Reader Node) : Reader Node := do
  let ends := [.comma, .closeBracket]
  let name ←
    if (← peek).any fun token => token ∈ Token.value :: ends then
      skip
      pure .null
    else node .flow
  return .record (Node.membersOf [name, ← valuePart ends (node .flow)])

/-- One item more of a list between brackets. -/
def flowItem (node : Position → Reader Node) (items : Array Node) :
    Reader (Array Node × Bool) := do
  if ← accept .closeBracket then return (items, true)
  if !items.isEmpty then
    expect .comma
    if ← accept .closeBracket then return (items, true)
  let next ← if ← accept .name then pair node else node .flow
  return (items.push next, false)

/-! ## Nodes -/

/-- A list that is read item by item. -/
def list (item : Array Node → Reader (Array Node × Bool)) : Reader Node := do
  return .list (← untilDone item #[]).toList

/-- A record that is read member by member. -/
def record (member : Array Node → Reader (Array Node × Bool)) : Reader Node := do
  return .record (Node.membersOf (← untilDone member #[]).toList)

/-- What stands behind the anchor and the tag of a node; `marked` tells that there is one of them, so
that nothing else has to come. -/
def content (node : Position → Reader Node) (position : Position) (marked : Bool)
    (tag : Option Tag) : Reader Node := do
  let missing : Reader Node := if marked then return .ofPlain tag "" else failure
  match ← peek with
  | some .item => if position = .member then list (levelItem node) else missing
  | some (.word word) => do
    skip
    return .ofPlain tag word
  | some (.text text) => do
    skip
    return .leaf (.text text)
  | some .openBracket => do
    skip
    list (flowItem node)
  | some .openBrace => do
    skip
    record (flowMember node)
  | some .listStart =>
    if position = .flow then missing
    else do
      skip
      list (item node)
  | some .recordStart =>
    if position = .flow then missing
    else do
      skip
      record (member node)
  | _ => missing

/-- A node in which at most so many others are nested. -/
def node : Nat → Position → Reader Node
  | 0, _ => failure
  | depth + 1, position => do
    match ← peek with
    | some (.reference anchor) =>
      skip
      node? anchor
    | _ =>
      let first ← anchor?
      let tag ← tag?
      let anchor ← if first.isSome then pure first else anchor?
      let result ← content (node depth) position (anchor.isSome || tag.isSome) tag
      complete anchor result
      return result

/-! ## Documents -/

/-- The only document of a text.  Directions have to be followed by the mark of its start. -/
def document : Reader Node := do
  let depth := (← get).tokens.length + 1
  let first ← peek
  let root ←
    if first = some .direction ∨ first = some .documentStart then
      skipAll .direction
      expect .documentStart
      let next ← peek
      if next.all fun token => token ∈ [Token.direction, .documentStart, .documentEnd] then
        pure .null
      else node depth .line
    else if first = none then pure .null
    else node depth .line
  skipAll .documentEnd
  if (← peek).isSome then failure
  return root

end Reader

/-- The node that some tokens make up. -/
def Node.ofTokens? (tokens : List Token) : Option Node :=
  (Reader.document ⟨tokens, #[]⟩).map (·.1)

end Strongroom.Yaml
