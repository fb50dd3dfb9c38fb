import Strongroom.Datum.Decode
import Strongroom.Settings.Basic
/-!
# Settings out of a record

All settings are members of one flat record.  A setting that is missing has its default, and a
member that is no setting is passed over.
-/

namespace Strongroom

/-- In messages about settings nothing is a unit value, and no number has an exponent. -/
def Settings.wording : Datum.Wording where
  nothing := "unit value"
  real := .plain

/-- What a record of settings has to say about one of them. -/
abbrev Setting (α : Type) := List (String × Datum) → Except Datum.Mismatch α

namespace Setting

/-- A setting with a default. -/
def optional (name : String) (read : Datum → Except Datum.Mismatch α) (default : α) : Setting α :=
  fun members =>
    match Datum.kept name members with
    | some d => read d
    | none => .ok default

/-- A text. -/
def text (name default : String) : Setting String :=
  optional name Datum.asText default

/-- A port. -/
def port (name : String) (default : UInt16) : Setting UInt16 :=
  optional name (fun d => UInt16.ofNat <$> Datum.asNatural (UInt16.size - 1) "u16" d) default

/-- A number of sixty-four bits; `expected` tells whether it counts things in memory. -/
def word (expected name : String) (default : UInt64) : Setting UInt64 :=
  optional name (fun d => UInt64.ofNat <$> Datum.asNatural (UInt64.size - 1) expected d) default

/-- A number of things that are kept in memory. -/
def count : String → UInt64 → Setting UInt64 := word "usize"

/-- A number of bytes or seconds. -/
def amount : String → UInt64 → Setting UInt64 := word "u64"

/-- A way to measure disk usage, by its name. -/
def usageMode (name : String) (default : UsageMode) : Setting UsageMode :=
  optional name (fun d => do
    let chosen ← Datum.asBareChoice [UsageMode.walk.name, UsageMode.du.name] true d
    return if chosen = UsageMode.du.name then .du else .walk) default

end Setting

/-- What a record says about the start of the server. -/
def Startup.ofMembers : Setting Startup := fun members => do
  let d : Startup := {}
  return {
    bindAddress := ← Setting.text "bind_address" d.bindAddress members
    port := ← Setting.port "port" d.port members
    maxClients := ← Setting.count "max_clients" d.maxClients members
    maxRequestBytes := ← Setting.count "max_request_bytes" d.maxRequestBytes members
    storageRoot := ← Setting.text "storage_root" d.storageRoot members
    databasePath := ← Setting.text "database_path" d.databasePath members
    diskUsage := ← Setting.usageMode "disk_usage" d.diskUsage members
    sessionTtlSecs := ← Setting.amount "session_ttl_secs" d.sessionTtlSecs members }

/-- What a record says about the limits. -/
def Limits.ofMembers : Setting Limits := fun members => do
  let d : Limits := {}
  return {
    userQuotaBytes := ← Setting.amount "user_quota_bytes" d.userQuotaBytes members
    totalQuotaBytes := ← Setting.amount "total_quota_bytes" d.totalQuotaBytes members
    accountOverheadBytes := ← Setting.amount "account_overhead_bytes" d.accountOverheadBytes members
    directoryCostBytes := ← Setting.amount "directory_cost_bytes" d.directoryCostBytes members
    maxNameLength := ← Setting.count "max_name_length" d.maxNameLength members
    maxDirectoryDepth := ← Setting.count "max_directory_depth" d.maxDirectoryDepth members
    maxSubdirectories := ← Setting.count "max_subdirectories" d.maxSubdirectories members
    maxUsernameLength := ← Setting.count "max_username_length" d.maxUsernameLength members }

/-- The settings in a record: those for the start are looked at first. -/
def Settings.ofMembers : Setting Settings := fun members => do
  return { startup := ← Startup.ofMembers members, limits := ← Limits.ofMembers members }

end Strongroom
