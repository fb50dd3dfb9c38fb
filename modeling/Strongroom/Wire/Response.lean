import Strongroom.Json.Writer
import Strongroom.Vault.Files
/-!
# Responses

Every request is answered by one line: what was asked for, or the kind and the text of a failure.
-/

namespace Strongroom

/-- What a request that succeeds is answered with. -/
inductive Reply
  | empty
  | username (value : String)
  | token (value : String)
  | body (value : Bytes)
  | entries (value : List Listed)
  | path (value : String)
deriving DecidableEq, Repr

/-- The answer to a request. -/
inductive Response
  | ok (reply : Reply)
  | error (kind : FailureKind) (message : String)
deriving DecidableEq, Repr

/-- The names of the replies, in the order in which they are offered. -/
def Reply.names : List String :=
  ["empty", "username", "token", "body", "entries", "path"]

/-- The names of the two kinds of answer. -/
def Response.statuses : List String := ["ok", "error"]

/-- A line of a listing as a record. -/
def Listed.toDatum (entry : Listed) : Datum :=
  .record [("name", .text entry.name), ("is_dir", .bool entry.isDirectory)]

/-- A reply as a value. -/
def Reply.toDatum : Reply → Datum
  | .empty => .text "empty"
  | .username value => .record [("username", .text value)]
  | .token value => .record [("token", .text value)]
  | .body value => .record [("body", .text (Base64.toText value))]
  | .entries value => .record [("entries", .list (value.map Listed.toDatum))]
  | .path value => .record [("path", .text value)]

namespace Response

/-- The answer to a request that fails. -/
def ofFailure (failure : Failure) : Response :=
  .error failure.kind failure.message

/-- Whether a request succeeded. -/
def isOk : Response → Bool
  | .ok _ => true
  | .error .. => false

/-- An answer as a record. -/
def toDatum : Response → Datum
  | .ok reply => .record [("status", .text "ok"), ("result", reply.toDatum)]
  | .error kind message =>
    .record
      [("status", .text "error"),
        ("result", .record [("kind", .text kind.name), ("message", .text message)])]

/-- An answer as JSON. -/
def toLine (r : Response) : String :=
  String.ofList (Json.write r.toDatum)

/-- The bytes that are sent for an answer: its line, with a newline at the end. -/
def toBytes (r : Response) : Bytes :=
  Bytes.ofText (r.toLine ++ "\n")

end Response

end Strongroom
