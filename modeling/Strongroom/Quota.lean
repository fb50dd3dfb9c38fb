import Strongroom.Failure
import Strongroom.FileTree.Calls
import Strongroom.Settings.Basic
import Strongroom.Text.Blank
import Strongroom.Text.Quoted
/-!
# Quotas

What a root directory takes up, and whether a file, a directory or an account may be added.  Sums
stop at the largest number of sixty-four bits instead of wrapping.
-/

namespace Strongroom

/-! ## Saturating numbers -/

/-- A number, or the largest number of sixty-four bits if it is larger than that. -/
def saturate (n : Nat) : UInt64 :=
  if n < UInt64.size then UInt64.ofNat n else UInt64.ofNat (UInt64.size - 1)

/-- A sum that stops at the largest number. -/
def saturatingAdd (a b : UInt64) : UInt64 :=
  saturate (a.toNat + b.toNat)

/-- The number itself is kept as long as it fits. -/
theorem toNat_saturate (n : Nat) : (saturate n).toNat = min n (UInt64.size - 1) := by
  have size : UInt64.size = 18446744073709551616 := rfl
  unfold saturate
  split
  · rw [UInt64.toNat_ofNat']
    omega
  · rw [UInt64.toNat_ofNat']
    omega

/-- A saturating sum is the exact sum, cut off at the largest number. -/
theorem toNat_saturatingAdd (a b : UInt64) :
    (saturatingAdd a b).toNat = min (a.toNat + b.toNat) (UInt64.size - 1) :=
  toNat_saturate _

/-! ## Measuring -/

/-- A measurement of what a root directory takes up on a host. -/
abbrev Meter := FileTree → Path → Except StorageFailure UInt64

/-- Adds up the files below a path.  Links are not followed, but the path may itself be one.  The sum is exact
as long as it fits into sixty-four bits; how a longer one is cut off does not matter, since no host holds that
many bytes, and what is stored within a quota below the largest number stays below it. -/
def Meter.walk : Meter := fun t p =>
  if t.pathExists p then
    match t.locate false p with
    | .ok (_, .file body) => .ok (saturate body.length)
    | .ok (location, .directory) => .ok (saturate (t.bytesBelow location))
    | .ok (_, .link _) =>
      match t.openDirectory p with
      | .ok location => .ok (saturate (t.bytesBelow location))
      | .error _ => .ok 0
    | .error _ => .ok 0
  else .ok 0

/-- What a program of the host left behind. -/
structure ProgramRun where
  succeeded : Bool
  status : String
  output : String
  complaints : String
deriving DecidableEq, Repr

/-- The number that some decimal digits spell, with a plus sign allowed in front of them. -/
def decimalField? (field : List Char) : Option Nat :=
  let digits :=
    match field with
    | '+' :: rest => rest
    | rest => rest
  if digits ≠ [] ∧ digits.all Char.isDigit then
    some (digits.foldl (fun n c => 10 * n + (c.toNat - 48)) 0)
  else none

/-- The bytes that the usage program reports.  It names a number of kilobytes first. -/
def usageOfReport (output : String) : Except StorageFailure UInt64 :=
  match decimalField? (Text.firstField output.toList) with
  | none => unexpected
  | some kilobytes =>
    if UInt64.size ≤ kilobytes then unexpected
    else if UInt64.size ≤ kilobytes * 1000 then .error (.diskUsage s!"du reported {kilobytes} KiB")
    else .ok (UInt64.ofNat (kilobytes * 1000))
where
  /-- The refusal of a report that does not start with a number. -/
  unexpected : Except StorageFailure UInt64 :=
    .error (.diskUsage
      ("unexpected du output: " ++ String.ofList (Text.quoted output.toList)))

/-- Asks a program of the host. -/
def Meter.program (run : FileTree → Path → Except HostFault ProgramRun) : Meter := fun t p =>
  match run t p with
  | .error fault => .error (.host fault)
  | .ok r =>
    if r.succeeded then usageOfReport r.output
    else
      .error (.diskUsage
        s!"du exited with {r.status}: {String.ofList (Text.trim r.complaints.toList)}")

/-! ## Checking -/

/-- What a request adds to a root directory. -/
inductive Addition
  | file (size : UInt64)
  | directory
deriving DecidableEq, Repr

/-- The bytes that an addition counts for. -/
def Addition.bytes (limits : Limits) : Addition → UInt64
  | .file size => size
  | .directory => limits.directoryCostBytes

/-- The limits, and the way in which usage is measured. -/
structure Quota where
  limits : Limits
  meter : Meter

namespace Quota

/-- The number of characters in the last name of a path. -/
def nameLength (p : Path) : Nat :=
  match p.fileName? with
  | some name => name.length
  | none => 0

/-- Refuses a name that is too long, and an addition that does not fit into the user's quota. -/
def checkNameAndSize (q : Quota) (t : FileTree) (root : Path) (addition : Addition) (p : Path) :
    Except Failure Unit :=
  if q.limits.maxNameLength.toNat < nameLength p then
    .error (.validation (.nameTooLong q.limits.maxNameLength))
  else
    match q.meter t root with
    | .error failure => .error (.storage failure)
    | .ok used =>
      let added := addition.bytes q.limits
      if q.limits.userQuotaBytes < saturatingAdd used added then
        .error (.validation (.quotaExceeded used added q.limits.userQuotaBytes))
      else .ok ()

/-- Whether a path lies at most so many names below a root as directories may be nested. -/
def checkNesting (q : Quota) (p root : Path) : Bool :=
  Path.depthBelow root p ≤ q.limits.maxDirectoryDepth.toNat

/-- The number of directories in a directory; one that is missing has none. -/
def countSubdirectories (t : FileTree) (directory : Path) : Except HostFault Nat :=
  match t.readDirectory directory with
  | .ok children => .ok (children.countP fun child => child.2 == .directory)
  | .error .noEntry => .ok 0
  | .error fault => .error fault

/-- Whether the parent of a path has room for one more directory. -/
def checkSiblings (q : Quota) (t : FileTree) (p : Path) : Except HostFault Bool :=
  match p.parent? with
  | none => .ok true
  | some parent => do
    return decide ((← countSubdirectories t parent) < q.limits.maxSubdirectories.toNat)

/-- All checks on a new directory, in this order: its name, the quota, how deeply it is nested,
and its siblings. -/
def checkNewDirectory (q : Quota) (t : FileTree) (root p : Path) : Except Failure Unit :=
  match q.checkNameAndSize t root .directory p with
  | .error failure => .error failure
  | .ok () =>
    if q.checkNesting p root = false then
      .error (.validation (.nestingTooDeep q.limits.maxDirectoryDepth))
    else
      match q.checkSiblings t p with
      | .error fault => .error fault.toFailure
      | .ok false => .error (.validation (.tooManySubdirectories q.limits.maxSubdirectories))
      | .ok true => .ok ()

/-- Adds the usage and the overhead of further accounts to what has been counted. -/
def aggregateFrom (q : Quota) (t : FileTree) : UInt64 → List Path → Except StorageFailure UInt64
  | total, [] => .ok total
  | total, root :: roots =>
    match q.meter t root with
    | .error failure => .error failure
    | .ok used =>
      aggregateFrom q t (saturatingAdd (saturatingAdd total used) q.limits.accountOverheadBytes)
        roots

/-- Refuses a new account once all accounts and the new one take up more than the total quota. -/
def checkAggregate (q : Quota) (t : FileTree) (roots : List Path) : Except Failure Unit :=
  match q.aggregateFrom t q.limits.accountOverheadBytes roots with
  | .error failure => .error (.storage failure)
  | .ok total =>
    if q.limits.totalQuotaBytes < total then .error (.validation .databaseFull) else .ok ()

end Quota

end Strongroom
