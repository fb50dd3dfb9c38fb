/-!
# Settings

What the operator decides: where the server listens, where it keeps things, how long a session
lasts, and the limits on what users store.
-/

namespace Strongroom

/-- How the disk usage of a root directory is measured: by adding up its files, or by asking a
program of the host. -/
inductive UsageMode
  | walk
  | du
deriving DecidableEq, Repr

/-- The name of a mode. -/
def UsageMode.name : UsageMode → String
  | .walk => "walk"
  | .du => "du"

/-- The limits on what users store. -/
structure Limits where
  userQuotaBytes : UInt64 := 5000000
  totalQuotaBytes : UInt64 := 100000000
  accountOverheadBytes : UInt64 := 4096
  directoryCostBytes : UInt64 := 5000
  maxNameLength : UInt64 := 25
  maxDirectoryDepth : UInt64 := 20
  maxSubdirectories : UInt64 := 20
  maxUsernameLength : UInt64 := 32
deriving DecidableEq, Repr

/-- What is decided once, when the server starts. -/
structure Startup where
  bindAddress : String := "127.0.0.1"
  port : UInt16 := 8080
  maxClients : UInt64 := 64
  maxRequestBytes : UInt64 := 16777216
  storageRoot : String := "./server_root"
  databasePath : String := "./locker.db"
  diskUsage : UsageMode := .walk
  sessionTtlSecs : UInt64 := 600
deriving DecidableEq, Repr

/-- All settings. -/
structure Settings where
  startup : Startup := {}
  limits : Limits := {}
deriving DecidableEq, Repr

/-- Why settings cannot be served with. -/
inductive SettingsFlaw
  | portZero
  | storageRootEmpty
  | databasePathEmpty
  | maxClientsZero
  | sessionTtlZero
  | quotaZero
  | totalBelowUser
deriving DecidableEq, Repr

/-- The text of a flaw. -/
def SettingsFlaw.message : SettingsFlaw → String
  | .portZero => "port cannot be 0"
  | .storageRootEmpty => "storage_root cannot be empty"
  | .databasePathEmpty => "database_path cannot be empty"
  | .maxClientsZero => "max_clients must be greater than 0"
  | .sessionTtlZero => "session_ttl_secs must be greater than 0"
  | .quotaZero => "quotas must be greater than 0"
  | .totalBelowUser => "total_quota_bytes must be at least user_quota_bytes"

/-- The first flaw of the settings, if they have one. -/
def Settings.flaw? (s : Settings) : Option SettingsFlaw :=
  if s.startup.port = 0 then some .portZero
  else if s.startup.storageRoot = "" then some .storageRootEmpty
  else if s.startup.databasePath = "" then some .databasePathEmpty
  else if s.startup.maxClients = 0 then some .maxClientsZero
  else if s.startup.sessionTtlSecs = 0 then some .sessionTtlZero
  else if s.limits.userQuotaBytes = 0 ∨ s.limits.totalQuotaBytes = 0 then some .quotaZero
  else if s.limits.totalQuotaBytes < s.limits.userQuotaBytes then some .totalBelowUser
  else none

/-- Settings that can be served with. -/
def Settings.validate (s : Settings) : Except SettingsFlaw Settings :=
  match s.flaw? with
  | some flaw => .error flaw
  | none => .ok s

/-- The address that the server listens at. -/
def Startup.listenSocket (s : Startup) : String :=
  s!"{s.bindAddress}:{s.port.toNat}"

/-- The lifetime of a session in milliseconds. -/
def Startup.sessionTtlMillis (s : Startup) : Nat :=
  s.sessionTtlSecs.toNat * 1000

end Strongroom
