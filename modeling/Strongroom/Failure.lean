import Strongroom.FileTree.Fault
/-!
# Failures

Every reason for which a request is refused, the text that the client is given, the kind it is
reported as, and the line that is kept of it.
-/

namespace Strongroom

/-- A token or a password that is not accepted. -/
inductive AuthFailure
  | missingToken
  | invalidToken
  | expired
  | invalidCredentials
deriving DecidableEq, Repr

/-- A request that is refused before it changes anything. -/
inductive ValidationFailure
  | nameTooLong (max : UInt64)
  | quotaExceeded (used added quota : UInt64)
  | nestingTooDeep (max : UInt64)
  | tooManySubdirectories (max : UInt64)
  | weakPassword (reason : String)
  | invalidUsername (reason : String)
  | databaseFull
  | rootRemoval
deriving DecidableEq, Repr

/-- A failure of the host, of the database, or of the measurement of disk usage. -/
inductive StorageFailure
  | host (fault : HostFault)
  | database (reason : String)
  | diskUsage (reason : String)
deriving DecidableEq, Repr

/-- A failure of the record registry. -/
inductive RegistryFailure
  | duplicate (key : String)
  | database (reason : String)
deriving DecidableEq, Repr

/-- Why a request is refused. -/
inductive Failure
  | authentication (cause : AuthFailure)
  | authorization (reason : String)
  | validation (cause : ValidationFailure)
  | notFound (what : String)
  | conflict (what : String)
  | storage (cause : StorageFailure)
deriving DecidableEq, Repr

/-- The kinds of failure that a client can tell apart. -/
inductive FailureKind
  | authentication
  | sessionExpired
  | authorization
  | validation
  | notFound
  | conflict
  | storage
  | badRequest
  | unavailable
deriving DecidableEq, Repr

/-! ## Texts -/

/-- The text of a refused token or password. -/
def AuthFailure.message : AuthFailure → String
  | .missingToken => "missing session token"
  | .invalidToken => "invalid session token"
  | .expired => "session expired"
  | .invalidCredentials => "username/password incorrect"

/-- The text of a refusal. -/
def ValidationFailure.message : ValidationFailure → String
  | .nameTooLong max => s!"name cannot be longer than {max.toNat} characters"
  | .quotaExceeded used added quota =>
    s!"user storage exceeded: {used.toNat} + {added.toNat} bytes is over the {quota.toNat} byte quota"
  | .nestingTooDeep max => s!"too many nested directories in path, at most {max.toNat} allowed"
  | .tooManySubdirectories max =>
    s!"too many sub-directories in this directory, at most {max.toNat} allowed"
  | .weakPassword reason => s!"weak password: {reason}"
  | .invalidUsername reason => s!"invalid username: {reason}"
  | .databaseFull => "database full, cannot sign up new users"
  | .rootRemoval => "cannot remove root directory"

/-- The text of a storage failure. -/
def StorageFailure.message : StorageFailure → String
  | .host fault => s!"I/O error: {fault.message}"
  | .database reason => s!"database error: {reason}"
  | .diskUsage reason => s!"disk usage query failed: {reason}"

/-- The text that the client is given. -/
def Failure.message : Failure → String
  | .authentication cause => s!"authentication failed: {cause.message}"
  | .authorization reason => s!"not authorized: {reason}"
  | .validation cause => cause.message
  | .notFound what => s!"not found: {what}"
  | .conflict what => s!"conflict: {what}"
  | .storage cause => s!"storage error: {cause.message}"

/-! ## Conversions -/

/-- A failure of the registry as a failure of the request. -/
def RegistryFailure.toFailure : RegistryFailure → Failure
  | .duplicate key => .conflict key
  | .database reason => .storage (.database reason)

/-- A fault of the host as a failure of the request. -/
def HostFault.toFailure (fault : HostFault) : Failure :=
  .storage (.host fault)

/-- A fault of the host at a place that the client knows as `shown`: a missing entry and one that
is in the way are told to the client. -/
def HostFault.toFailureAt (shown : String) : HostFault → Failure
  | .noEntry => .notFound shown
  | .alreadyExists => .conflict s!"{shown}: already exists"
  | fault => fault.toFailure

/-! ## Kinds -/

/-- The kind that a failure is reported as. -/
def Failure.kind : Failure → FailureKind
  | .authentication .expired => .sessionExpired
  | .authentication _ => .authentication
  | .authorization _ => .authorization
  | .validation _ => .validation
  | .notFound _ => .notFound
  | .conflict _ => .conflict
  | .storage _ => .storage

/-- All kinds, in the order in which they are offered to a client that names an unknown one. -/
def FailureKind.all : List FailureKind :=
  [.authentication, .sessionExpired, .authorization, .validation, .notFound, .conflict, .storage,
    .badRequest, .unavailable]

/-- The name of a kind. -/
def FailureKind.name : FailureKind → String
  | .authentication => "authentication"
  | .sessionExpired => "session_expired"
  | .authorization => "authorization"
  | .validation => "validation"
  | .notFound => "not_found"
  | .conflict => "conflict"
  | .storage => "storage"
  | .badRequest => "bad_request"
  | .unavailable => "unavailable"

/-- The names of all kinds. -/
def FailureKind.names : List String :=
  FailureKind.all.map FailureKind.name

/-- The kind of a name. -/
def FailureKind.ofName? (name : String) : Option FailureKind :=
  FailureKind.all.find? fun kind => kind.name == name

/-- Whether the client has to log in again before it can go on. -/
def FailureKind.isTerminal : FailureKind → Bool
  | .authentication => true
  | .sessionExpired => true
  | _ => false

/-! ## The log -/

/-- How serious a line of the log is. -/
inductive Severity
  | info
  | warn
  | error
deriving DecidableEq, Repr

/-- The name of a severity. -/
def Severity.name : Severity → String
  | .info => "INFO"
  | .warn => "WARN"
  | .error => "ERROR"

/-- The line that is kept of a failure of a request. -/
def Failure.logLine (method : String) (failure : Failure) : Severity × String :=
  match failure with
  | .storage _ => (.error, s!"{method} failed: {failure.message}")
  | .validation _ => (.warn, s!"{method} rejected: {failure.message}")
  | .authorization _ => (.warn, s!"{method} rejected: {failure.message}")
  | _ => (.info, s!"{method} refused: {failure.message}")

end Strongroom
