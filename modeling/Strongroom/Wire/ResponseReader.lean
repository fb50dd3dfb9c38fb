import Strongroom.Json.Reader
import Strongroom.Wire.Response
/-!
# Reading responses

A response is an object with the members `status` and `result`, or a list of the two.  If the
status comes first the result is read in the form that the status asks for; if the result comes
first it is kept as it is and taken apart afterwards.
-/

namespace Strongroom.Response

open Json (Reader Fault malformed mismatch)

/-- What is asked for when a value is no response at all. -/
def expected : String := "adjacently tagged enum Response"

/-- The kind of a name that is known. -/
def kindOf (name : String) : Except Fault FailureKind :=
  match FailureKind.ofName? name with
  | some kind => .ok kind
  | none => mismatch (.unknownVariant name FailureKind.names)

/-- The bytes of a body that is written in base64. -/
def bodyOf (text : String) : Except Fault Bytes :=
  match Base64.ofText text with
  | .ok body => .ok body
  | .error fault => .error (.body fault)

/-- The complaint about a reply without its payload. -/
def bareReply (name : String) : Except Fault Reply :=
  if name = "empty" then .ok .empty
  else mismatch (.wrongType .unitVariant "newtype variant")

/-! ## Fields of records -/

/-- The value of a field of a known record. -/
inductive Part
  | text (value : String)
  | flag (value : Bool)
  | kind (value : FailureKind)

/-- The text among the fields that were read. -/
def textPart (parts : List (String × Part)) (name : String) : Except Fault String :=
  match Datum.kept name parts with
  | some (.text value) => .ok value
  | _ => mismatch (.missingField name)

/-- The truth value among the fields that were read. -/
def flagPart (parts : List (String × Part)) (name : String) : Except Fault Bool :=
  match Datum.kept name parts with
  | some (.flag value) => .ok value
  | _ => mismatch (.missingField name)

/-- The kind among the fields that were read. -/
def kindPart (parts : List (String × Part)) (name : String) : Except Fault FailureKind :=
  match Datum.kept name parts with
  | some (.kind value) => .ok value
  | _ => mismatch (.missingField name)

/-- The line of a listing with these fields. -/
def entryOf (parts : List (String × Part)) : Except Fault Listed := do
  let name ← textPart parts "name"
  let isDirectory ← flagPart parts "is_dir"
  return ⟨name, isDirectory⟩

/-- The failure with these fields. -/
def failureOf (parts : List (String × Part)) : Except Fault Response := do
  let kind ← kindPart parts "kind"
  let message ← textPart parts "message"
  return .error kind message

/-! ## Off the line -/

/-- A text field. -/
def readTextPart : Reader Part := fun cs => do
  let (value, rest) ← Json.readText "a string" cs
  return (.text value, rest)

/-- A field that is a truth value. -/
def readFlagPart : Reader Part := fun cs => do
  let (value, rest) ← Json.readBool cs
  return (.flag value, rest)

/-- A field that is a kind of failure. -/
def readKindPart : Reader Part := fun cs => do
  let (name, rest) ← Json.readBareChoice FailureKind.names cs
  return (.kind (← kindOf name), rest)

/-- The two fields of a record, written as an object or as a list; `title` names the record. -/
def readPair (title first second : String) (readFirst readSecond : Reader Part) :
    Reader (List (String × Part)) := fun cs =>
  match Json.skipSpace cs with
  | [] => malformed .endInValue
  | '\x7b' :: rest =>
    let field (name : String) : Option (Reader Part) :=
      if name = first then some readFirst
      else if name = second then some readSecond
      else none
    Json.readMembers (Json.knownMember field) (rest.length + 1) true [] rest
  | '[' :: rest => do
    match ← Json.nextItem true rest with
    | (none, _) => mismatch (.wrongLength 0 (title ++ " with 2 elements"))
    | (some start, _) =>
      let (a, rest) ← readFirst start
      match ← Json.nextItem false rest with
      | (none, _) => mismatch (.wrongLength 1 (title ++ " with 2 elements"))
      | (some start, _) =>
        let (b, rest) ← readSecond start
        return ([(first, a), (second, b)], ← Json.closeList rest)
  | rest => Json.refuse title rest

/-- A line of a listing. -/
def readEntry : Reader Listed := fun cs => do
  let (parts, rest) ← readPair "struct DirEntry" "name" "is_dir" readTextPart readFlagPart cs
  return (← entryOf parts, rest)

/-- A listing. -/
def readEntries : Reader (List Listed) := fun cs =>
  match Json.skipSpace cs with
  | [] => malformed .endInValue
  | '[' :: rest => Json.readItems readEntry (rest.length + 1) true [] rest
  | rest => Json.refuse "a sequence" rest

/-- The payload of a reply. -/
def readPayload (name : String) : Reader Reply := fun cs =>
  if name = "empty" then do
    let ((), rest) ← Json.readNothing cs
    return (.empty, rest)
  else if name = "entries" then do
    let (entries, rest) ← readEntries cs
    return (.entries entries, rest)
  else do
    let (text, rest) ← Json.readText "a string" cs
    if name = "username" then return (.username text, rest)
    else if name = "token" then return (.token text, rest)
    else if name = "body" then return (.body (← bodyOf text), rest)
    else return (.path text, rest)

/-- A failure. -/
def readFailure : Reader Response := fun cs => do
  let (parts, rest) ← readPair "struct Failure" "kind" "message" readKindPart readTextPart cs
  return (← failureOf parts, rest)

/-- The result that a status asks for. -/
def readResult (status : String) : Reader Response := fun cs =>
  if status = "ok" then do
    let (reply, rest) ← Json.readChoice Reply.names bareReply readPayload cs
    return (.ok reply, rest)
  else readFailure cs

/-! ## From a value that was kept -/

/-- A text field. -/
def textPartOf (d : Datum) : Except Fault Part := do
  return .text (← Json.liftMismatch d.asText)

/-- A field that is a truth value. -/
def flagPartOf (d : Datum) : Except Fault Part := do
  return .flag (← Json.liftMismatch d.asBool)

/-- A field that is a kind of failure. -/
def kindPartOf (d : Datum) : Except Fault Part := do
  return .kind (← kindOf (← Json.liftMismatch (d.asBareChoice FailureKind.names true)))

/-- Goes through the members of a record; those that are no field are passed over. -/
def partsOfMembers (field : String → Option (Datum → Except Fault Part)) :
    List (String × Part) → List (String × Datum) → Except Fault (List (String × Part))
  | parts, [] => .ok parts
  | parts, (name, d) :: rest =>
    match field name with
    | none => partsOfMembers field parts rest
    | some read =>
      if (Datum.kept name parts).isSome then mismatch (.duplicateField name)
      else do partsOfMembers field (parts ++ [(name, ← read d)]) rest

/-- The two fields of a record, kept as a record or as a list. -/
def pairOf (title first second : String) (readFirst readSecond : Datum → Except Fault Part) :
    Datum → Except Fault (List (String × Part))
  | .record members =>
    let field (name : String) : Option (Datum → Except Fault Part) :=
      if name = first then some readFirst
      else if name = second then some readSecond
      else none
    partsOfMembers field [] members
  | .list [] => mismatch (.wrongLength 0 (title ++ " with 2 elements"))
  | .list [a] => do
    let _ ← readFirst a
    mismatch (.wrongLength 1 (title ++ " with 2 elements"))
  | .list (a :: b :: extra) => do
    let a ← readFirst a
    let b ← readSecond b
    if extra ≠ [] then mismatch (.wrongLength (2 + extra.length) "2 elements in sequence")
    else return [(first, a), (second, b)]
  | d => mismatch (.wrongType d.shape title)

/-- A line of a listing. -/
def entryOfDatum (d : Datum) : Except Fault Listed := do
  entryOf (← pairOf "struct DirEntry" "name" "is_dir" textPartOf flagPartOf d)

/-- A reply. -/
def replyOf (d : Datum) : Except Fault Reply := do
  let (name, payload) ← Json.liftMismatch (d.asChoice Reply.names)
  if name = "empty" then
    match payload with
    | none => return .empty
    | some payload =>
      Json.liftMismatch (payload.asNothing true)
      return .empty
  else
    let payload ← Json.liftMismatch (Datum.payloadOf payload)
    if name = "entries" then
      let items ← Json.liftMismatch payload.asList
      return .entries (← items.mapM entryOfDatum)
    else
      let text ← Json.liftMismatch payload.asText
      if name = "username" then return .username text
      else if name = "token" then return .token text
      else if name = "body" then return .body (← bodyOf text)
      else return .path text

/-- The result that a status asks for. -/
def resultOf (status : String) (d : Datum) : Except Fault Response := do
  if status = "ok" then return .ok (← replyOf d)
  else failureOf (← pairOf "struct Failure" "kind" "message" kindPartOf textPartOf d)

/-! ## The whole response -/

/-- Passes over members up to the next status or result, whose name is returned with the text
after its colon, or up to the end of the object. -/
def nextPart : Nat → Bool → List Char → Except Fault (Option String × List Char)
  | 0, _, _ => malformed .endInObject
  | fuel + 1, first, cs => do
    match ← Json.nextKey first cs with
    | (none, rest) => return (none, rest)
    | (some key, rest) =>
      if key = "status" ∨ key = "result" then return (some key, rest)
      else nextPart fuel false (← Json.skipValue (← Json.readColon rest))

/-- The end of a response whose members have both been read. -/
def finish (response : Response) (cs : List Char) : Except Fault (Response × List Char) := do
  match ← nextPart (cs.length + 1) false cs with
  | (none, rest) => return (response, rest)
  | (some name, _) => mismatch (.duplicateField name)

/-- A response as an object, after its opening brace. -/
def readObject : Reader Response := fun cs => do
  match ← nextPart (cs.length + 1) true cs with
  | (none, _) => mismatch (.missingField "status")
  | (some key, rest) =>
    if key = "status" then
      let (status, rest) ← Json.readBareChoice statuses (← Json.readColon rest)
      match ← nextPart (rest.length + 1) false rest with
      | (none, _) => mismatch (.missingField "result")
      | (some key, rest) =>
        if key = "status" then mismatch (.duplicateField key)
        else
          let (response, rest) ← readResult status (← Json.readColon rest)
          finish response rest
    else
      let (kept, rest) ← Json.readValue (Json.nestingLimit - 1) (← Json.readColon rest)
      match ← nextPart (rest.length + 1) false rest with
      | (none, _) => mismatch (.missingField "status")
      | (some key, rest) =>
        if key = "result" then mismatch (.duplicateField key)
        else
          let (status, rest) ← Json.readBareChoice statuses (← Json.readColon rest)
          finish (← resultOf status kept) rest

/-- A response as a list, after its opening bracket. -/
def readList : Reader Response := fun cs => do
  match ← Json.nextItem true cs with
  | (none, _) => mismatch (.wrongLength 0 expected)
  | (some start, _) =>
    let (status, rest) ← Json.readBareChoice statuses start
    match ← Json.nextItem false rest with
    | (none, _) => mismatch (.wrongLength 1 expected)
    | (some start, _) =>
      let (response, rest) ← readResult status start
      return (response, ← Json.closeList rest)

/-- A response. -/
def read : Reader Response := fun cs =>
  match Json.skipSpace cs with
  | [] => malformed .endInValue
  | '\x7b' :: rest => readObject rest
  | '[' :: rest => readList rest
  | rest => Json.refuse expected rest

/-- The response that a line spells. -/
def parse (line : String) : Except Fault Response := do
  let (response, rest) ← read line.toList
  Json.readEnd rest
  return response

end Strongroom.Response
