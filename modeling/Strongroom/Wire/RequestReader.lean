import Strongroom.Json.Reader
import Strongroom.Text.Blank
import Strongroom.Wire.Request
/-!
# Reading requests

A request is an object with the member `method`, or a list that starts with the method.  The whole
value is read before the fields of the method are looked at, in the order in which they were
written; fields that are missing are reported last, and what follows the value after that.
-/

namespace Strongroom.Request

open Json (Reader Fault malformed mismatch)

/-! ## The method and what comes with it -/

/-- What comes with the method: named members, or a plain list of fields. -/
inductive Arguments
  | named (members : List (String × Datum))
  | positional (items : List Datum)

/-- What is asked for when a value is no request at all. -/
def expected : String := "internally tagged enum Request"

/-- The name of a method. -/
def readMethod : Reader Method := fun cs => do
  let (name, rest) ← Json.readVariant Method.names cs
  match Method.ofName? name with
  | some method => return (method, rest)
  | none => mismatch (.unknownVariant name Method.names)

/-- The method, if it has been met, and the other members in reverse. -/
abbrev Gathered := Option Method × List (String × Datum)

/-- One member of a request. -/
def readMember (value : Reader Datum) (seen : Gathered) (key : String) : Reader Gathered :=
  fun cs =>
    if key = "method" then
      if seen.1.isSome then mismatch (.duplicateField "method")
      else do
        let (method, rest) ← readMethod (← Json.readColon cs)
        return ((some method, seen.2), rest)
    else do
      let (members, rest) ← Json.anyMember value seen.2 key cs
      return ((seen.1, members), rest)

/-- The method of a request with what comes with it. -/
def readArguments : Reader (Method × Arguments) := fun cs =>
  let value := Json.readValue (Json.nestingLimit - 1)
  match Json.skipSpace cs with
  | '\x7b' :: rest => do
    let ((method, members), rest) ←
      Json.readMembers (readMember value) (rest.length + 1) true (none, []) rest
    match method with
    | some method => return ((method, .named members.reverse), rest)
    | none => mismatch (.missingField "method")
  | '[' :: rest => do
    match ← Json.nextItem true rest with
    | (none, _) => mismatch (.missingField "method")
    | (some start, _) =>
      let (method, rest) ← readMethod start
      let (items, rest) ← Json.readItems value (rest.length + 1) false [] rest
      return ((method, .positional items), rest)
  | [] => malformed .endInValue
  | rest => Json.refuse expected rest

/-! ## The fields -/

/-- The value of a field. -/
structure Argument where
  field : Field
  text : String
  body : Bytes

/-- Reads a field: a text, which for a body has to be base64. -/
def readField (field : Field) (d : Datum) : Except Fault Argument := do
  let text ← Json.liftMismatch d.asText
  match field with
  | .body =>
    match Base64.ofText text with
    | .ok body => return ⟨field, text, body⟩
    | .error fault => .error (.body fault)
  | _ => return ⟨field, text, []⟩

/-- The field of a method that has a name. -/
def fieldOf? (method : Method) (name : String) : Option Field :=
  method.fields.find? fun field => field.name == name

/-- Goes through named members; those that are no field of the method are passed over. -/
def readNamed (method : Method) :
    List Argument → List (String × Datum) → Except Fault (List Argument)
  | done, [] => .ok done
  | done, (name, d) :: rest =>
    match fieldOf? method name with
    | none => readNamed method done rest
    | some field =>
      if done.any fun argument => argument.field == field then mismatch (.duplicateField name)
      else do
        let argument ← readField field d
        readNamed method (done ++ [argument]) rest

/-- Refuses a field that is missing and may not be left out. -/
def requireFields (method : Method) (arguments : List Argument) :
    List Field → Except Fault Unit
  | [] => .ok ()
  | field :: rest =>
    if method.isOptional field || arguments.any fun argument => argument.field == field then
      requireFields method arguments rest
    else mismatch (.missingField field.name)

/-- Goes through a plain list of fields: `count` of them have been read. -/
def readPositional (method : Method) (count : Nat) :
    List Field → List Datum → Except Fault (List Argument)
  | [], [] => .ok []
  | [], extra =>
    mismatch (.wrongLength (count + extra.length) (Datum.countOf count ++ " in sequence"))
  | field :: fields, [] =>
    if method.isOptional field then readPositional method (count + 1) fields []
    else
      mismatch (.wrongLength count
        s!"struct variant Request::{method.title} with {Datum.countOf method.fields.length}")
  | field :: fields, d :: rest => do
    let argument ← readField field d
    return argument :: (← readPositional method (count + 1) fields rest)

/-- The text of a field, which is empty if the field was left out. -/
def textOf (arguments : List Argument) (field : Field) : String :=
  match arguments.find? fun argument => argument.field == field with
  | some argument => argument.text
  | none => ""

/-- The bytes of the body. -/
def bodyOf (arguments : List Argument) : Bytes :=
  match arguments.find? fun argument => argument.field == .body with
  | some argument => argument.body
  | none => []

/-- The request of a method with some fields. -/
def assemble (method : Method) (arguments : List Argument) : Request :=
  let text := textOf arguments
  match method with
  | .authenticate => .authenticate (text .token)
  | .signup => .signup (text .username) (text .password)
  | .login => .login (text .username) (text .password)
  | .logout => .logout (text .token)
  | .delete => .delete (text .token)
  | .upload => .upload (text .token) (text .path) (bodyOf arguments)
  | .download => .download (text .token) (text .path)
  | .list => .list (text .token) (text .path)
  | .mkdir => .mkdir (text .token) (text .path)
  | .remove => .remove (text .token) (text .path)
  | .pwd => .pwd (text .token)
  | .cd => .cd (text .token) (text .path)

/-- The request that a method makes of what comes with it. -/
def ofArguments (method : Method) : Arguments → Except Fault Request
  | .named members => do
    let arguments ← readNamed method [] members
    requireFields method arguments method.fields
    return assemble method arguments
  | .positional items => do
    return assemble method (← readPositional method 0 method.fields items)

/-- The request that a line spells; blanks at its end do not count. -/
def parse (line : String) : Except Fault Request := do
  let ((method, arguments), rest) ← readArguments (Text.trimEnd line.toList)
  let request ← ofArguments method arguments
  Json.readEnd rest
  return request

end Strongroom.Request
