import Strongroom.Proofs.Datum.Members
import Strongroom.Proofs.Decimal.Spelling
import Strongroom.Proofs.Outcome
import Strongroom.Settings.Load
/-!
# Settings from the environment

A variable of the environment takes the place of the setting that it is named for and of no other, if its
text reads as a value of that setting.  A text is taken for a truth value or for a number wherever it can be,
so that not every text reads as a text, and not every number as a whole number.
-/

namespace Strongroom

/-! ## Settings by name -/

/-- The settings that are texts. -/
inductive TextSetting
  | bindAddress
  | storageRoot
  | databasePath
deriving DecidableEq, Repr

/-- The settings that are numbers of sixty-four bits. -/
inductive WordSetting
  | maxClients
  | maxRequestBytes
  | sessionTtlSecs
  | userQuotaBytes
  | totalQuotaBytes
  | accountOverheadBytes
  | directoryCostBytes
  | maxNameLength
  | maxDirectoryDepth
  | maxSubdirectories
  | maxUsernameLength
deriving DecidableEq, Repr

namespace TextSetting

/-- The name of a setting. -/
def name : TextSetting → String
  | .bindAddress => "bind_address"
  | .storageRoot => "storage_root"
  | .databasePath => "database_path"

/-- The settings with another value for one of them. -/
def set (value : String) (s : Settings) : TextSetting → Settings
  | .bindAddress => { s with startup.bindAddress := value }
  | .storageRoot => { s with startup.storageRoot := value }
  | .databasePath => { s with startup.databasePath := value }

end TextSetting

namespace WordSetting

/-- The name of a setting. -/
def name : WordSetting → String
  | .maxClients => "max_clients"
  | .maxRequestBytes => "max_request_bytes"
  | .sessionTtlSecs => "session_ttl_secs"
  | .userQuotaBytes => "user_quota_bytes"
  | .totalQuotaBytes => "total_quota_bytes"
  | .accountOverheadBytes => "account_overhead_bytes"
  | .directoryCostBytes => "directory_cost_bytes"
  | .maxNameLength => "max_name_length"
  | .maxDirectoryDepth => "max_directory_depth"
  | .maxSubdirectories => "max_subdirectories"
  | .maxUsernameLength => "max_username_length"

/-- What a number is asked for as: a number of bytes or seconds, or of things in memory. -/
def range : WordSetting → String
  | .sessionTtlSecs | .userQuotaBytes | .totalQuotaBytes | .accountOverheadBytes
  | .directoryCostBytes => "u64"
  | _ => "usize"

/-- The settings with another value for one of them. -/
def set (value : UInt64) (s : Settings) : WordSetting → Settings
  | .maxClients => { s with startup.maxClients := value }
  | .maxRequestBytes => { s with startup.maxRequestBytes := value }
  | .sessionTtlSecs => { s with startup.sessionTtlSecs := value }
  | .userQuotaBytes => { s with limits.userQuotaBytes := value }
  | .totalQuotaBytes => { s with limits.totalQuotaBytes := value }
  | .accountOverheadBytes => { s with limits.accountOverheadBytes := value }
  | .directoryCostBytes => { s with limits.directoryCostBytes := value }
  | .maxNameLength => { s with limits.maxNameLength := value }
  | .maxDirectoryDepth => { s with limits.maxDirectoryDepth := value }
  | .maxSubdirectories => { s with limits.maxSubdirectories := value }
  | .maxUsernameLength => { s with limits.maxUsernameLength := value }

end WordSetting

/-- The names of all settings. -/
def Settings.names : List String :=
  ["bind_address", "port", "max_clients", "max_request_bytes", "storage_root", "database_path", "disk_usage",
    "session_ttl_secs", "user_quota_bytes", "total_quota_bytes", "account_overhead_bytes",
    "directory_cost_bytes", "max_name_length", "max_directory_depth", "max_subdirectories",
    "max_username_length"]

/-- The variable that is named for a setting. -/
def Setting.variableFor (name : String) : String :=
  String.ofList ("RAX_LOCKER_".toList ++ name.toList.map Char.toUpper)

/-- A value for one of the sixteen settings. -/
inductive Override
  | text (which : TextSetting) (value : String)
  | word (which : WordSetting) (value : UInt64)
  | port (value : UInt16)
  | diskUsage (value : UsageMode)
deriving DecidableEq, Repr

namespace Override

/-- The name of the setting. -/
def name : Override → String
  | .text which _ => which.name
  | .word which _ => which.name
  | .port _ => "port"
  | .diskUsage _ => "disk_usage"

/-- The variable for the setting. -/
def variableName (o : Override) : String :=
  Setting.variableFor o.name

/-- The value as it is written. -/
def written : Override → String
  | .text _ value => value
  | .word _ value => toString value.toNat
  | .port value => toString value.toNat
  | .diskUsage value => value.name

/-- The settings with this value for the setting. -/
def apply (s : Settings) : Override → Settings
  | .text which value => which.set value s
  | .word which value => which.set value s
  | .port value => { s with startup.port := value }
  | .diskUsage value => { s with startup.diskUsage := value }

end Override

/-! ## Readings of a record -/

namespace Setting

/-- The reading of a setting from one more member, or the value it has if the member is another's. -/
def amend {α : Type} (key name : String) (reading : Except Datum.Mismatch α) (value : α) :
    Except Datum.Mismatch α :=
  if key = name then reading else .ok value

/-- A number of sixty-four bits. -/
def readWord (range : String) (d : Datum) : Except Datum.Mismatch UInt64 :=
  UInt64.ofNat <$> d.asNatural (UInt64.size - 1) range

/-- A port. -/
def readPort (d : Datum) : Except Datum.Mismatch UInt16 :=
  UInt16.ofNat <$> d.asNatural (UInt16.size - 1) "u16"

/-- A way to measure disk usage. -/
def readUsage (d : Datum) : Except Datum.Mismatch UsageMode := do
  let chosen ← d.asBareChoice [UsageMode.walk.name, UsageMode.du.name] true
  return if chosen = UsageMode.du.name then .du else .walk

/-- A member that is put into a record is read for the setting of its name and for no other. -/
theorem optional_put {α : Type} {name : String} {read : Datum → Except Datum.Mismatch α} {default value : α}
    {members : List (String × Datum)} (given : optional name read default members = .ok value)
    (key : String) (d : Datum) :
    optional name read default (Datum.put key d members) = amend key name (read d) value := by
  rw [optional, Datum.kept_put, amend]
  by_cases same : key = name
  · rw [if_pos same, if_pos same]
  · rw [if_neg same, if_neg same]
    exact given

end Setting

namespace Settings

variable {members : List (String × Datum)} {s : Settings}

/-- The settings with what a member says about the one of its name. -/
def amend (s : Settings) (key : String) (d : Datum) : Except Datum.Mismatch Settings := do
  let startup : Startup := {
    bindAddress := ← Setting.amend key "bind_address" d.asText s.startup.bindAddress
    port := ← Setting.amend key "port" (Setting.readPort d) s.startup.port
    maxClients := ← Setting.amend key "max_clients" (Setting.readWord "usize" d) s.startup.maxClients
    maxRequestBytes :=
      ← Setting.amend key "max_request_bytes" (Setting.readWord "usize" d) s.startup.maxRequestBytes
    storageRoot := ← Setting.amend key "storage_root" d.asText s.startup.storageRoot
    databasePath := ← Setting.amend key "database_path" d.asText s.startup.databasePath
    diskUsage := ← Setting.amend key "disk_usage" (Setting.readUsage d) s.startup.diskUsage
    sessionTtlSecs :=
      ← Setting.amend key "session_ttl_secs" (Setting.readWord "u64" d) s.startup.sessionTtlSecs }
  let limits : Limits := {
    userQuotaBytes :=
      ← Setting.amend key "user_quota_bytes" (Setting.readWord "u64" d) s.limits.userQuotaBytes
    totalQuotaBytes :=
      ← Setting.amend key "total_quota_bytes" (Setting.readWord "u64" d) s.limits.totalQuotaBytes
    accountOverheadBytes :=
      ← Setting.amend key "account_overhead_bytes" (Setting.readWord "u64" d) s.limits.accountOverheadBytes
    directoryCostBytes :=
      ← Setting.amend key "directory_cost_bytes" (Setting.readWord "u64" d) s.limits.directoryCostBytes
    maxNameLength :=
      ← Setting.amend key "max_name_length" (Setting.readWord "usize" d) s.limits.maxNameLength
    maxDirectoryDepth :=
      ← Setting.amend key "max_directory_depth" (Setting.readWord "usize" d) s.limits.maxDirectoryDepth
    maxSubdirectories :=
      ← Setting.amend key "max_subdirectories" (Setting.readWord "usize" d) s.limits.maxSubdirectories
    maxUsernameLength :=
      ← Setting.amend key "max_username_length" (Setting.readWord "usize" d) s.limits.maxUsernameLength }
  return { startup, limits }

theorem eq_of_validate {s' : Settings} (valid : s.validate = .ok s') : s' = s := by
  rw [validate] at valid
  split at valid
  · cases valid
  · exact (Except.ok.inj valid).symm

/-- The environment spells the names of settings in capitals. -/
theorem keyText?_variableFor :
    ∀ name ∈ names, Environment.keyText? (Setting.variableFor name) = some name := by
  decide +kernel

theorem ofText_name : ∀ name ∈ names, Key.ofText name = [.member name] := by
  decide +kernel

/-- What is put into a record of settings changes the setting of its name and no other. -/
theorem ofMembers_put (read : ofMembers members = .ok s) (key : String) (d : Datum) :
    ofMembers (Datum.put key d members) = s.amend key d := by
  simp only [ofMembers, Startup.ofMembers, Limits.ofMembers, bind_eq_ok, pure_eq_ok, Except.ok.injEq] at read
  obtain ⟨_, ⟨_, bindAddress, _, port, _, maxClients, _, maxRequestBytes, _, storageRoot, _, databasePath,
    _, diskUsage, _, sessionTtlSecs, rfl⟩, _, ⟨_, userQuotaBytes, _, totalQuotaBytes, _,
    accountOverheadBytes, _, directoryCostBytes, _, maxNameLength, _, maxDirectoryDepth, _,
    maxSubdirectories, _, maxUsernameLength, rfl⟩, rfl⟩ := read
  -- each setting is read again by itself, and only the one of this name can be read otherwise
  have bindAddress := Setting.optional_put bindAddress key d
  have port := Setting.optional_put port key d
  have maxClients := Setting.optional_put maxClients key d
  have maxRequestBytes := Setting.optional_put maxRequestBytes key d
  have storageRoot := Setting.optional_put storageRoot key d
  have databasePath := Setting.optional_put databasePath key d
  have diskUsage := Setting.optional_put diskUsage key d
  have sessionTtlSecs := Setting.optional_put sessionTtlSecs key d
  have userQuotaBytes := Setting.optional_put userQuotaBytes key d
  have totalQuotaBytes := Setting.optional_put totalQuotaBytes key d
  have accountOverheadBytes := Setting.optional_put accountOverheadBytes key d
  have directoryCostBytes := Setting.optional_put directoryCostBytes key d
  have maxNameLength := Setting.optional_put maxNameLength key d
  have maxDirectoryDepth := Setting.optional_put maxDirectoryDepth key d
  have maxSubdirectories := Setting.optional_put maxSubdirectories key d
  have maxUsernameLength := Setting.optional_put maxUsernameLength key d
  simp only [ofMembers, Startup.ofMembers, Limits.ofMembers, Setting.text, Setting.port, Setting.count,
    Setting.amount, Setting.word, Setting.usageMode, bindAddress, port, maxClients, maxRequestBytes,
    storageRoot, databasePath, diskUsage, sessionTtlSecs, userQuotaBytes, totalQuotaBytes,
    accountOverheadBytes, directoryCostBytes, maxNameLength, maxDirectoryDepth, maxSubdirectories,
    maxUsernameLength, bind_assoc, pure_bind]
  rfl

theorem amend_text (which : TextSetting) (s : Settings) (d : Datum) :
    s.amend which.name d = (which.set · s) <$> d.asText := by
  cases which <;>
    simp only [amend, Setting.amend, TextSetting.name, String.reduceEq, if_true, if_false, ok_bind,
      pure_eq_ok] <;>
    cases d.asText <;> rfl

theorem amend_word (which : WordSetting) (s : Settings) (d : Datum) :
    s.amend which.name d = (which.set · s) <$> Setting.readWord which.range d := by
  cases which <;>
    simp only [amend, Setting.amend, WordSetting.name, WordSetting.range, String.reduceEq, if_true,
      if_false, ok_bind, pure_eq_ok] <;>
    cases Setting.readWord _ d <;> rfl

theorem amend_port (s : Settings) (d : Datum) :
    s.amend "port" d = (fun value => { s with startup.port := value }) <$> Setting.readPort d := by
  simp only [amend, Setting.amend, String.reduceEq, if_true, if_false, ok_bind, pure_eq_ok]
  cases Setting.readPort d <;> rfl

theorem amend_diskUsage (s : Settings) (d : Datum) :
    s.amend "disk_usage" d =
      (fun value => { s with startup.diskUsage := value }) <$> Setting.readUsage d := by
  simp only [amend, Setting.amend, String.reduceEq, if_true, if_false, ok_bind, pure_eq_ok]
  cases Setting.readUsage d <;> rfl

end Settings

/-! ## What a text is taken for -/

namespace Environment

/-- A text that is taken for a truth value. -/
def Truth (value : String) : Prop :=
  value.toList.map lower = "true".toList ∨ value.toList.map lower = "false".toList

instance (value : String) : Decidable (Truth value) := inferInstanceAs (Decidable (_ ∨ _))

/-- What a text is taken for: a truth value or a number wherever it reads as one. -/
inductive Taken (value : String) : Datum → Prop
  | truth (word : Truth value) (truth : Bool) : Taken value (.bool truth)
  | integer {n : Int} (plain : ¬ Truth value) (reads : Decimal.integer? value.toList = some n) :
      Taken value (.integer n)
  | real {x : Float} (plain : ¬ Truth value) (large : Decimal.integer? value.toList = none)
      (reads : Decimal.real? value.toList = some x) : Taken value (.real x)
  | text (plain : ¬ Truth value) (number : ¬ Decimal.Spelled value.toList) : Taken value (.text value)

variable {value : String} {d : Datum}

theorem taken_resolve (value : String) : Taken value (resolve value) := by
  simp only [resolve]
  split
  · rename_i word
    exact .truth (.inl word) true
  · rename_i untrue
    split
    · rename_i word
      exact .truth (.inr word) false
    · rename_i unfalse
      have plain : ¬ Truth value := not_or.mpr ⟨untrue, unfalse⟩
      split
      · rename_i reads
        exact .integer plain reads
      · rename_i large reads
        exact .real plain large reads
      · rename_i unread
        refine .text plain fun number => ?_
        rw [← Decimal.real?_isSome, unread] at number
        cases number

theorem Taken.text_of_plain (h : Taken value d) (plain : ¬ Truth value)
    (number : ¬ Decimal.Spelled value.toList) : d = .text value := by
  cases h with
  | truth word => exact absurd word plain
  | integer _ reads => exact absurd (Decimal.spelled_of_integer? reads) number
  | real _ _ reads => exact absurd (Decimal.real?_isSome.mp (by rw [reads]; rfl)) number
  | text => rfl

/-- A text that is taken for something else is refused where a text is asked for. -/
theorem Taken.asText_of_other (h : Taken value d) (other : ¬ (¬ Truth value ∧ ¬ Decimal.Spelled value.toList)) :
    d.asText = .error (.wrongType d.shape "a string") := by
  cases h with
  | truth | integer | real => rfl
  | text plain number => exact absurd ⟨plain, number⟩ other

/-- No value of a variable is laid over a record member by member. -/
theorem Taken.layOver_eq (h : Taken value d) (below : Datum) : Datum.layOver below d = d := by
  cases h <;> rw [Datum.layOver]

/-! ### Numerals -/

theorem toList_toString (n : Nat) : (toString n).toList = Nat.toDigits 10 n := by
  rw [Nat.toString_eq_ofList_toDigits, String.toList_ofList]

theorem lower_of_isDigit {c : Char} (h : c.isDigit = true) : lower c = c := by
  have other : c ≠ '\u212a' := by
    rintro rfl
    exact absurd h (by decide)
  have low : ¬ (c.val ≥ 'A'.val ∧ c.val ≤ 'Z'.val) := by
    have small : c.toNat ≤ 57 := (Char.isDigit_iff_toNat.mp h).2
    exact fun capital => absurd (UInt32.le_iff_toNat_le.mp capital.1) (by simp; omega)
  have same : c.toLower = c := dif_neg low
  rw [lower, if_neg other, same]

theorem not_truth_toString (n : Nat) : ¬ Truth (toString n) := by
  have same : (toString n).toList.map lower = Nat.toDigits 10 n := by
    rw [toList_toString]
    exact (List.map_congr_left fun c hc => lower_of_isDigit (Decimal.digits_toDigits n c hc)).trans
      (List.map_id _)
  rw [Truth, same]
  -- both truth values have this letter in them
  have letter : 'e' ∉ Nat.toDigits 10 n := fun h => absurd (Decimal.digits_toDigits n 'e' h) (by decide)
  rintro (word | word)
  · exact letter (word ▸ by decide)
  · exact letter (word ▸ by decide)

/-- A number that fits sixty-four bits with a sign is taken for itself. -/
theorem Taken.integer_of_small {n : Nat} (h : Taken (toString n) d) (small : n < 2 ^ 63) :
    d = .integer n := by
  have whole := Decimal.integer?_toDigits n
  rw [if_pos small, ← toList_toString] at whole
  cases h with
  | truth word => exact absurd word (not_truth_toString n)
  | integer _ reads =>
      obtain rfl := Option.some.inj (reads.symm.trans whole)
      rfl
  | real _ large => exact absurd (large.symm.trans whole) nofun
  | text _ number => exact absurd (Decimal.spelled_of_integer? whole) number

/-- A number that needs all of sixty-four bits is taken for a real number. -/
theorem Taken.real_of_large {n : Nat} (h : Taken (toString n) d) (large : ¬ n < 2 ^ 63) :
    ∃ x, d = .real x := by
  have whole := Decimal.integer?_toDigits n
  rw [if_neg large, ← toList_toString] at whole
  have number : Decimal.Spelled (toString n).toList := by
    rw [toList_toString]
    exact Decimal.spelled_of_digits .none (Decimal.digits_toDigits n) Nat.toDigits_ne_nil
  cases h with
  | truth word => exact absurd word (not_truth_toString n)
  | integer _ reads => exact absurd (whole.symm.trans reads) nofun
  | real => exact ⟨_, rfl⟩
  | text _ unread => exact absurd number unread

end Environment

/-! ## A variable for a setting -/

namespace Override

/-- A value that its text is taken for: a text that reads as nothing else, or a number that fits sixty-four
bits with a sign. -/
def Readable : Override → Prop
  | .text _ value => ¬ Environment.Truth value ∧ ¬ Decimal.Spelled value.toList
  | .word _ value => value.toNat < 2 ^ 63
  | .port _ | .diskUsage _ => True

instance : DecidablePred Readable
  | .text _ value => inferInstanceAs (Decidable (¬ Environment.Truth value ∧ ¬ Decimal.Spelled value.toList))
  | .word _ value => inferInstanceAs (Decidable (value.toNat < 2 ^ 63))
  | .port _ | .diskUsage _ => inferInstanceAs (Decidable True)

/-- What the value is asked for as. -/
def expected : Override → String
  | .text .. => "a string"
  | .word which _ => which.range
  | .port _ => "u16"
  | .diskUsage _ => "string or map"

theorem name_mem (o : Override) : o.name ∈ Settings.names := by
  cases o with
  | text which => cases which <;> simp [name, TextSetting.name, Settings.names]
  | word which => cases which <;> simp [name, WordSetting.name, Settings.names]
  | port | diskUsage => simp [name, Settings.names]

/-- The variable for a setting sets that setting. -/
theorem settings_variable (o : Override) :
    Environment.settings [(o.variableName, o.written)] = [(o.name, Environment.resolve o.written)] := by
  simp [Environment.settings, variableName, Settings.keyText?_variableFor o.name o.name_mem]

theorem readWord_toNat (value : UInt64) (range : String) :
    Setting.readWord range (.integer value.toNat) = .ok value := by
  have fits : value.toNat ≤ UInt64.size - 1 := Nat.le_sub_one_of_lt value.toNat_lt
  rw [Setting.readWord, Datum.asNatural, if_pos ⟨Int.natCast_nonneg _, Int.ofNat_le.mpr fits⟩,
    Int.toNat_natCast]
  exact congrArg Except.ok UInt64.ofNat_toNat

theorem readPort_toNat (value : UInt16) : Setting.readPort (.integer value.toNat) = .ok value := by
  have fits : value.toNat ≤ UInt16.size - 1 := Nat.le_sub_one_of_lt value.toNat_lt
  rw [Setting.readPort, Datum.asNatural, if_pos ⟨Int.natCast_nonneg _, Int.ofNat_le.mpr fits⟩,
    Int.toNat_natCast]
  exact congrArg Except.ok UInt16.ofNat_toNat

theorem readUsage_name (value : UsageMode) : Setting.readUsage (.text value.name) = .ok value := by
  cases value <;> rfl

/-- A readable value takes the place of the setting's own. -/
theorem amend_of_readable {o : Override} (readable : o.Readable) (s : Settings) :
    s.amend o.name (Environment.resolve o.written) = .ok (o.apply s) := by
  have taken := Environment.taken_resolve o.written
  cases o with
  | text which value =>
      rw [taken.text_of_plain readable.1 readable.2]
      exact s.amend_text which _
  | word which value =>
      rw [taken.integer_of_small readable]
      refine (s.amend_word which _).trans ?_
      rw [readWord_toNat]
      rfl
  | port value =>
      rw [taken.integer_of_small (Nat.lt_trans value.toNat_lt (by decide))]
      refine (s.amend_port _).trans ?_
      rw [readPort_toNat]
      rfl
  | diskUsage value =>
      have plain : ¬ Environment.Truth value.name := by cases value <;> decide
      have number : ¬ Decimal.Spelled value.name.toList := by
        cases value <;> decide
      rw [taken.text_of_plain plain number]
      refine (s.amend_diskUsage _).trans ?_
      rw [written, readUsage_name]
      rfl

/-- Any other value is refused. -/
theorem amend_of_unreadable {o : Override} (unreadable : ¬ o.Readable) (s : Settings) :
    s.amend o.name (Environment.resolve o.written) =
      .error (.wrongType (Environment.resolve o.written).shape o.expected) := by
  have taken := Environment.taken_resolve o.written
  cases o with
  | text which value =>
      refine (s.amend_text which _).trans ?_
      rw [taken.asText_of_other unreadable]
      rfl
  | word which value =>
      obtain ⟨x, real⟩ := taken.real_of_large unreadable
      rw [real]
      exact s.amend_word which _
  | port value => exact absurd trivial unreadable
  | diskUsage value => exact absurd trivial unreadable

end Override

/-! ## Loading -/

/-- A variable for a setting is put into the record of the settings before it. -/
theorem Datum.withSettings?_override {d d' : Datum} {members : List (String × Datum)}
    (before : d.withSettings? members = some d') (o : Override) :
    d.withSettings? (members ++ [(o.name, Environment.resolve o.written)]) =
      some (.record (put o.name (Environment.resolve o.written) d'.members)) := by
  have taken := Environment.taken_resolve o.written
  rw [withSettings?] at before
  rw [withSettings?, List.foldlM_append, before]
  simp [Settings.ofText_name _ o.name_mem, setAt?, taken.layOver_eq]

namespace Surroundings

variable {s : Surroundings} {path : String} {file : Settings}

/-- The surroundings with a variable for one setting and for nothing else. -/
def overriding (s : Surroundings) (o : Override) : Surroundings :=
  { s with environment := [(o.variableName, o.written)] }

theorem find_overriding (s : Surroundings) (o : Override) (path : String) :
    (s.overriding o).find path = s.find path := by
  rw [overriding]
  simp only [find]

theorem gather_eq_ok {p : Path} {format : SettingsFormat} {d : Datum} :
    s.gather p format = .ok d ↔
      ∃ text members, (s.tree.readFile p).toOption.bind Bytes.toText? = some text ∧
        format.read text = some members ∧
        (Datum.record []).withSettings? (members ++ Environment.settings s.environment) = some d := by
  cases held : (s.tree.readFile p).toOption.bind Bytes.toText? with
  | none => simp [gather, held]
  | some text =>
      cases reads : format.read text with
      | none => simp [gather, held, reads]
      | some members =>
          cases placed : (Datum.record []).withSettings? (members ++ Environment.settings s.environment) <;>
            simp [gather, held, reads, placed]

/-- A variable for a setting is put into the record that a file gives. -/
theorem gather_overriding (plain : s.environment = []) {p : Path} {format : SettingsFormat} {d : Datum}
    (gathers : s.gather p format = .ok d) (o : Override) :
    (s.overriding o).gather p format =
      .ok (.record (Datum.put o.name (Environment.resolve o.written) d.members)) := by
  obtain ⟨text, members, held, reads, placed⟩ := gather_eq_ok.mp gathers
  refine gather_eq_ok.mpr ⟨text, members, held, reads, ?_⟩
  rw [plain, Environment.settings, List.filterMap_nil, List.append_nil] at placed
  rw [overriding, o.settings_variable]
  exact Datum.withSettings?_override placed o

theorem gather_of_loadFrom (loads : s.loadFrom path = .ok file) :
    ∃ p format d, s.find path = .ok (p, format) ∧ s.gather p format = .ok d ∧
      Settings.ofMembers d.members = .ok file := by
  rw [loadFrom, bind_eq_ok] at loads
  obtain ⟨⟨p, format⟩, found, loads⟩ := loads
  obtain ⟨d, gathers, loads⟩ := bind_eq_ok.mp loads
  refine ⟨p, format, d, found, gathers, ?_⟩
  cases reads : Settings.ofMembers d.members with
  | error cause =>
      rw [reads] at loads
      cases loads
  | ok settings =>
      rw [reads] at loads
      cases valid : settings.validate with
      | error flaw => simp [valid, Except.mapError] at loads
      | ok settings' =>
          rw [← Settings.eq_of_validate valid]
          simpa [valid, Except.mapError] using loads

/-- With a variable for a setting the file's settings are amended by what its text is taken for. -/
theorem loadFrom_amends (plain : s.environment = []) (loads : s.loadFrom path = .ok file) (o : Override) :
    (s.overriding o).loadFrom path =
      (file.amend o.name (Environment.resolve o.written)).mapError LoadFault.mismatch >>= fun settings =>
        settings.validate.mapError .flaw := by
  obtain ⟨p, format, d, found, gathers, reads⟩ := gather_of_loadFrom loads
  have found := (s.find_overriding o path).trans found
  have amended :
      Settings.ofMembers (Datum.record (Datum.put o.name (Environment.resolve o.written) d.members)).members =
        file.amend o.name (Environment.resolve o.written) :=
    Settings.ofMembers_put reads _ _
  simp only [loadFrom, found, gather_overriding plain gathers o, ok_bind, amended]

/-- A variable for one setting replaces that setting of a file and no other, and the settings are then checked
as if the file gave them so, if its text is taken for the value.  This is the case for every port and every way
to measure disk usage, for the numbers that fit sixty-four bits with a sign, and for the texts that spell
neither a truth value nor a number; with any other value nothing is loaded. -/
theorem loadFrom_overriding (plain : s.environment = []) (loads : s.loadFrom path = .ok file)
    (o : Override) :
    (o.Readable →
      (s.overriding o).loadFrom path = (o.apply file).validate.mapError LoadFault.flaw) ∧
    (¬ o.Readable →
      (s.overriding o).loadFrom path =
        .error (.mismatch (.wrongType (Environment.resolve o.written).shape o.expected))) := by
  rw [loadFrom_amends plain loads o]
  constructor
  · intro readable
    rw [Override.amend_of_readable readable]
    rfl
  · intro unreadable
    rw [Override.amend_of_unreadable unreadable]
    rfl

/-- A host with one settings file. -/
def sampleFile : Surroundings where
  tree := ⟨[(["c.toml"], .file (Bytes.ofText "port = 9000\n"))]⟩
  directory := ⟨"/"⟩
  environment := []

/-- The settings in that file. -/
def samplePort : Settings where
  startup := { port := 9000 }

theorem loadFrom_sampleFile : sampleFile.loadFrom "c" = .ok samplePort := by
  have loads : (sampleFile.loadFrom "c").toOption = some samplePort := by decide +kernel
  generalize sampleFile.loadFrom "c" = loaded at loads
  cases loaded with
  | error => cases loads
  | ok file => exact congrArg Except.ok (Option.some.inj loads)

theorem loadFrom_overriding_storageRoot :
    (sampleFile.overriding (.text .storageRoot "/srv/1e3")).loadFrom "c" =
        .ok { samplePort with startup.storageRoot := "/srv/1e3" } ∧
      (sampleFile.overriding (.word .sessionTtlSecs 9223372036854775807)).loadFrom "c" =
        .ok { samplePort with startup.sessionTtlSecs := 9223372036854775807 } ∧
      (sampleFile.overriding (.text .storageRoot "1e3")).loadFrom "c" =
        .error (.mismatch (.wrongType (Environment.resolve "1e3").shape "a string")) :=
  ⟨(loadFrom_overriding rfl loadFrom_sampleFile (.text .storageRoot "/srv/1e3")).1 (by decide),
    (loadFrom_overriding rfl loadFrom_sampleFile (.word .sessionTtlSecs 9223372036854775807)).1 (by decide),
    (loadFrom_overriding rfl loadFrom_sampleFile (.text .storageRoot "1e3")).2 (by decide)⟩

/-- A directory that is named by a number and a number that needs all of sixty-four bits are good settings,
but with a variable for either of them nothing is loaded. -/
theorem loadFrom_overriding_refused :
    sampleFile.environment = [] ∧ sampleFile.loadFrom "c" = .ok samplePort ∧
      ({ samplePort with startup.storageRoot := "123" } : Settings).flaw? = none ∧
      (sampleFile.overriding (.text .storageRoot "123")).loadFrom "c" =
        .error (.mismatch (.wrongType (.integer 123) "a string")) ∧
      ({ samplePort with startup.sessionTtlSecs := 9223372036854775808 } : Settings).flaw? = none ∧
      ∃ cause,
        (sampleFile.overriding (.word .sessionTtlSecs 9223372036854775808)).loadFrom "c" =
          .error (.mismatch cause) := by
  refine ⟨rfl, loadFrom_sampleFile, by decide, ?_, by decide, ?_⟩
  · have unreadable : ¬ (Override.text .storageRoot "123").Readable := by decide
    rw [loadFrom_amends rfl loadFrom_sampleFile, Override.amend_of_unreadable unreadable]
    rfl
  · have unreadable : ¬ (Override.word .sessionTtlSecs 9223372036854775808).Readable := by decide
    rw [loadFrom_amends rfl loadFrom_sampleFile, Override.amend_of_unreadable unreadable]
    exact ⟨_, rfl⟩

end Surroundings

end Strongroom
