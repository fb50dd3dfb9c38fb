import Strongroom.Proofs.Registry.SessionRows
/-!
# The rows of a user

What a registry holds after a user is entered and after a user is forgotten, row by row.  In a tidy
registry no key has two rows, and maps keep each record under its own key.
-/

namespace Strongroom.Registry

/-! ## Tidy registries -/

/-- Each record stands under its own key. -/
structure Filed (m : Maps) : Prop where
  credentials : ∀ item ∈ m.credentials, item.1 = item.2.username
  accounts : ∀ item ∈ m.accounts, item.1 = item.2.username
  workingDirectories : ∀ item ∈ m.workingDirectories, item.1 = item.2.username
  sessions : ∀ item ∈ m.sessions, item.1 = item.2.tokenHash

/-- No key has two rows. -/
structure Rows.Unique (all : Rows) : Prop where
  credentials : (all.credentials.map (·.username)).Nodup
  accounts : (all.accounts.map (·.username)).Nodup
  workingDirectories : (all.workingDirectories.map (·.username)).Nodup
  sessions : (all.sessions.map (·.tokenHash)).Nodup

/-- No user has two records of a kind, no two sessions have one hash, and each record is kept where it is
looked up. -/
structure Tidy (r : Registry) : Prop where
  filed : ∀ m, r = .maps m → Filed m
  unique : r.rows.Unique

variable {r : Registry} {user : String}

/-- Where a row stands in a table does not matter. -/
theorem filed_of_tables (t : Tables) (m : Maps) (same : tables t = .maps m) : Filed m := by
  cases same

theorem Tidy.keyed (h : r.Tidy) : r.Keyed := by
  cases r with
  | maps m => exact (h.filed m rfl).sessions
  | tables t => trivial

theorem Tidy.sound (h : r.Tidy) : r.Sound where
  sessions := by
    rw [← Multiset.coe_nodup, h.keyed.sessionKeys]
    exact h.unique.sessions
  accounts := by
    have unique := h.unique.accounts
    rw [← Multiset.coe_nodup]
    cases r with
    | maps m =>
        rw [rows, Multiset.map_coe, List.map_map] at unique
        rwa [accountKeys, List.map_congr_left (h.filed m rfl).accounts]
    | tables t => exact unique

/-! ## One table -/

section

variable {α : Type} {key : α → String} {items : RecordMap α} {row : α}

theorem RecordMap.get?_eq_none_iff (filed : ∀ item ∈ items, item.1 = key item.2) (user : String) :
    items.get? user = none ↔ ∀ row ∈ (items.map Prod.snd : Multiset α), key row ≠ user := by
  simp only [RecordMap.get?, Option.map_eq_none_iff, List.find?_eq_none, beq_iff_eq, Multiset.mem_coe,
    List.mem_map]
  constructor
  · rintro absent row ⟨item, mem, rfl⟩ same
    exact absent item mem ((filed item mem).trans same)
  · intro absent item mem same
    exact absent item.2 ⟨item, mem, rfl⟩ ((filed item mem).symm.trans same)

theorem RecordMap.coe_erase (filed : ∀ item ∈ items, item.1 = key item.2) (user : String) :
    ((items.erase user).map Prod.snd : Multiset α) =
      (items.map Prod.snd : Multiset α).filter fun row => key row ≠ user :=
  coe_map_filter Prod.snd _ fun item mem => by rw [filed item mem, bne_iff_ne]

theorem coe_filter_ne (table : List α) (user : String) :
    ((table.filter fun row => key row != user : List α) : Multiset α) =
      (table : Multiset α).filter fun row => key row ≠ user := by
  have kept : ((table.filter fun row => key row != user).map id : Multiset α) =
      (table.map id : Multiset α).filter fun row => key row ≠ user :=
    coe_map_filter id _ fun _ _ => bne_iff_ne
  simpa using kept

theorem RecordMap.filed_erase (filed : ∀ item ∈ items, item.1 = key item.2) (user : String) :
    ∀ item ∈ items.erase user, item.1 = key item.2 :=
  fun item mem => filed item (List.mem_of_mem_filter mem)

theorem RecordMap.filed_insert (filed : ∀ item ∈ items, item.1 = key item.2) (row : α) :
    ∀ item ∈ items.insert (key row) row, item.1 = key item.2 := by
  intro item mem
  rcases List.mem_cons.mp mem with rfl | mem
  · rfl
  · exact RecordMap.filed_erase filed _ item mem

theorem RecordMap.coe_insert (filed : ∀ item ∈ items, item.1 = key item.2) (row : α) :
    ((items.insert (key row) row).map Prod.snd : Multiset α) =
      row ::ₘ (items.map Prod.snd : Multiset α).filter fun old => key old ≠ key row :=
  congrArg (row ::ₘ ·) (RecordMap.coe_erase filed (key row))

theorem coe_put {table : List α} (unique : ((table : Multiset α).map key).Nodup) (row : α) :
    (put key row table : Multiset α) =
      row ::ₘ (table : Multiset α).filter fun old => key old ≠ key row :=
  (Multiset.coe_eq_coe.mpr (perm_put key unique row)).trans
    (congrArg (row ::ₘ ·) (coe_filter_ne table (key row)))

theorem filter_ne_eq_self {table : Multiset α} (absent : ∀ row ∈ table, key row ≠ user) :
    (table.filter fun row => key row ≠ user) = table :=
  Multiset.filter_eq_self.mpr absent

/-- A row may be added that takes the place of the one with its key. -/
theorem nodup_cons_filter {table : Multiset α} (unique : (table.map key).Nodup) (row : α) :
    ((row ::ₘ table.filter fun old => key old ≠ key row).map key).Nodup := by
  rw [Multiset.map_cons, Multiset.nodup_cons]
  refine ⟨fun mem => ?_, Multiset.nodup_of_le (Multiset.map_le_map (Multiset.filter_le _ _)) unique⟩
  obtain ⟨old, mem, same⟩ := Multiset.mem_map.mp mem
  exact (Multiset.mem_filter.mp mem).2 same

end

theorem Tidy.credential?_eq_none (h : r.Tidy) (user : String) :
    r.credential? user = none ↔ ∀ row ∈ r.rows.credentials, row.username ≠ user := by
  cases r with
  | maps m => exact RecordMap.get?_eq_none_iff (h.filed m rfl).credentials user
  | tables t => simp [credential?, rows]

theorem Tidy.account?_eq_none (h : r.Tidy) (user : String) :
    r.account? user = none ↔ ∀ row ∈ r.rows.accounts, row.username ≠ user := by
  cases r with
  | maps m => exact RecordMap.get?_eq_none_iff (h.filed m rfl).accounts user
  | tables t => simp [account?, rows]

/-- What is looked up is what the rows hold. -/
theorem Tidy.credential?_of_mem (h : r.Tidy) {row : Credential} (mem : row ∈ r.rows.credentials) :
    r.credential? row.username = some row := by
  have unique := h.unique.credentials
  cases r with
  | maps m =>
      have mirrors : Mirrors Credential.username m.credentials (m.credentials.map Prod.snd) :=
        ⟨(h.filed m rfl).credentials, unique, .refl _⟩
      exact (mirrors.get?_eq row.username).trans (find?_of_mem Credential.username unique mem)
  | tables t => exact find?_of_mem Credential.username unique mem

theorem Tidy.account?_of_mem (h : r.Tidy) {row : Account} (mem : row ∈ r.rows.accounts) :
    r.account? row.username = some row := by
  have unique := h.unique.accounts
  cases r with
  | maps m =>
      have mirrors : Mirrors Account.username m.accounts (m.accounts.map Prod.snd) :=
        ⟨(h.filed m rfl).accounts, unique, .refl _⟩
      exact (mirrors.get?_eq row.username).trans (find?_of_mem Account.username unique mem)
  | tables t => exact find?_of_mem Account.username unique mem

/-! ## A user who is forgotten -/

theorem Tidy.of_le (h : r.Tidy) {after : Registry} (filed : ∀ m, after = .maps m → Filed m)
    (credentials : after.rows.credentials ≤ r.rows.credentials)
    (accounts : after.rows.accounts ≤ r.rows.accounts)
    (workingDirectories : after.rows.workingDirectories ≤ r.rows.workingDirectories)
    (sessions : after.rows.sessions ≤ r.rows.sessions) : after.Tidy where
  filed := filed
  unique := {
    credentials := Multiset.nodup_of_le (Multiset.map_le_map credentials) h.unique.credentials
    accounts := Multiset.nodup_of_le (Multiset.map_le_map accounts) h.unique.accounts
    workingDirectories :=
      Multiset.nodup_of_le (Multiset.map_le_map workingDirectories) h.unique.workingDirectories
    sessions := Multiset.nodup_of_le (Multiset.map_le_map sessions) h.unique.sessions }

theorem coe_filter_le {α β : Type} (read : α → β) (keep : α → Bool) (table : List α) :
    ((table.filter keep).map read : Multiset β) ≤ (table.map read : Multiset β) :=
  Multiset.coe_le.mpr (List.filter_sublist.map read).subperm

theorem Tidy.deleteCredential (h : r.Tidy) (user : String) : (r.deleteCredential user).Tidy := by
  cases r with
  | maps m =>
      refine h.of_le ?_ (coe_filter_le ..) le_rfl le_rfl le_rfl
      rintro after ⟨⟩
      have filed := h.filed m rfl
      exact { filed with credentials := RecordMap.filed_erase filed.credentials user }
  | tables t =>
      exact h.of_le (filed_of_tables _) (Multiset.coe_le.mpr List.filter_sublist.subperm) le_rfl le_rfl le_rfl

theorem Tidy.deleteAccount (h : r.Tidy) (user : String) : (r.deleteAccount user).Tidy := by
  cases r with
  | maps m =>
      refine h.of_le ?_ le_rfl (coe_filter_le ..) le_rfl le_rfl
      rintro after ⟨⟩
      have filed := h.filed m rfl
      exact { filed with accounts := RecordMap.filed_erase filed.accounts user }
  | tables t =>
      exact h.of_le (filed_of_tables _) le_rfl (Multiset.coe_le.mpr List.filter_sublist.subperm) le_rfl le_rfl

theorem Tidy.deleteWorkingDirectory (h : r.Tidy) (user : String) :
    (r.deleteWorkingDirectory user).Tidy := by
  cases r with
  | maps m =>
      refine h.of_le ?_ le_rfl le_rfl (coe_filter_le ..) le_rfl
      rintro after ⟨⟩
      have filed := h.filed m rfl
      exact { filed with workingDirectories := RecordMap.filed_erase filed.workingDirectories user }
  | tables t =>
      exact h.of_le (filed_of_tables _) le_rfl le_rfl (Multiset.coe_le.mpr List.filter_sublist.subperm) le_rfl

theorem Tidy.deleteSession (h : r.Tidy) (hash : String) : (r.deleteSession hash).Tidy := by
  cases r with
  | maps m =>
      refine h.of_le ?_ le_rfl le_rfl le_rfl (coe_filter_le ..)
      rintro after ⟨⟩
      have filed := h.filed m rfl
      exact { filed with sessions := RecordMap.filed_erase filed.sessions hash }
  | tables t => exact h.of_le (filed_of_tables _) le_rfl le_rfl le_rfl (coe_filter_le ..)

theorem Tidy.deleteSessionsFor (h : r.Tidy) (user : String) : (r.deleteSessionsFor user).Tidy := by
  cases r with
  | maps m =>
      refine h.of_le ?_ le_rfl le_rfl le_rfl (coe_filter_le ..)
      rintro after ⟨⟩
      have filed := h.filed m rfl
      exact { filed with sessions := fun item mem => filed.sessions item (List.mem_of_mem_filter mem) }
  | tables t => exact h.of_le (filed_of_tables _) le_rfl le_rfl le_rfl (coe_filter_le ..)

/-- The rows of the other users. -/
def Rows.without (all : Rows) (user : String) : Rows where
  credentials := all.credentials.filter (·.username ≠ user)
  accounts := all.accounts.filter (·.username ≠ user)
  workingDirectories := all.workingDirectories.filter (·.username ≠ user)
  sessions := all.sessions.filter (·.username ≠ user)

/-- When the records of a user are deleted, table by table, the rows of the others stay. -/
theorem Tidy.rows_forget (h : r.Tidy) (user : String) :
    (((r.deleteSessionsFor user).deleteCredential user).deleteAccount user
      |>.deleteWorkingDirectory user).rows = r.rows.without user := by
  have sessions := rows_deleteSessionsFor r user
  cases r with
  | maps m =>
      have filed := h.filed m rfl
      exact Rows.mk.injEq .. |>.mpr ⟨RecordMap.coe_erase filed.credentials user,
        RecordMap.coe_erase filed.accounts user, RecordMap.coe_erase filed.workingDirectories user,
        sessions⟩
  | tables t =>
      exact Rows.mk.injEq .. |>.mpr ⟨coe_filter_ne _ user, coe_filter_ne _ user, coe_filter_ne _ user,
        sessions⟩

/-! ## A user who is entered -/

/-- The rows with those of a new user; a working directory takes the place of the user's former one. -/
def Rows.enter (all : Rows) (credential : Credential) (account : Account)
    (directory : WorkingDirectory) : Rows where
  credentials := credential ::ₘ all.credentials
  accounts := account ::ₘ all.accounts
  workingDirectories :=
    directory ::ₘ all.workingDirectories.filter (·.username ≠ directory.username)
  sessions := all.sessions

/-- Neither the names of a new user are taken nor, in tables, the root directory. -/
structure Vacant (r : Registry) (credential : Credential) (account : Account) : Prop where
  noCredential : r.credential? credential.username = none
  noAccount : r.account? account.username = none
  noRoot : ∀ t, r = .tables t → ∀ row ∈ t.accounts, row.rootId ≠ account.rootId

theorem Tidy.unique_enter (h : r.Tidy) {credential : Credential} {account : Account}
    (vacant : r.Vacant credential account) (directory : WorkingDirectory) :
    (r.rows.enter credential account directory).Unique := by
  have credentials := (h.credential?_eq_none _).mp vacant.noCredential
  have accounts := (h.account?_eq_none _).mp vacant.noAccount
  refine ⟨?_, ?_, nodup_cons_filter h.unique.workingDirectories directory, h.unique.sessions⟩
  · have added := nodup_cons_filter h.unique.credentials credential
    rwa [filter_ne_eq_self credentials] at added
  · have added := nodup_cons_filter h.unique.accounts account
    rwa [filter_ne_eq_self accounts] at added

/-- A new user is entered exactly if nothing that has to be free is taken, and then the rows are those of
before and three new ones. -/
theorem Tidy.createAccount_cases (h : r.Tidy) (credential : Credential) (account : Account)
    (directory : WorkingDirectory) :
    (∃ name, r.createAccount credential account directory = (.error (.duplicate name), r) ∧
      (name = credential.username ∨ name = account.username) ∧ ¬ r.Vacant credential account) ∨
    ∃ after, r.createAccount credential account directory = (.ok (), after) ∧
      r.Vacant credential account ∧ after.Tidy ∧
      after.rows = r.rows.enter credential account directory := by
  cases r with
  | maps m =>
      have filed := h.filed m rfl
      rcases Maps.createAccount_cases m credential account directory with
        ⟨refused, taken⟩ | ⟨entered, noCredential, noAccount⟩
      · refine .inl ⟨credential.username, by rw [createAccount, refused], .inl rfl, fun vacant => ?_⟩
        exact taken.elim (· vacant.noCredential) (· vacant.noAccount)
      · have vacant : (Registry.maps m).Vacant credential account :=
          ⟨noCredential, noAccount, fun _ he => by cases he⟩
        refine .inr ⟨_, by rw [createAccount, entered], vacant, ?_⟩
        have credentials := (RecordMap.get?_eq_none_iff filed.credentials _).mp noCredential
        have accounts := (RecordMap.get?_eq_none_iff filed.accounts _).mp noAccount
        have rows : (Registry.maps { m with
            credentials := m.credentials.insert credential.username credential
            accounts := m.accounts.insert account.username account
            workingDirectories := m.workingDirectories.insert directory.username directory }).rows =
              (Registry.maps m).rows.enter credential account directory := by
          refine Rows.mk.injEq .. |>.mpr ⟨?_, ?_, ?_, rfl⟩
          · exact (RecordMap.coe_insert filed.credentials credential).trans
              (congrArg _ (filter_ne_eq_self credentials))
          · exact (RecordMap.coe_insert filed.accounts account).trans
              (congrArg _ (filter_ne_eq_self accounts))
          · exact RecordMap.coe_insert filed.workingDirectories directory
        refine ⟨⟨?_, rows ▸ h.unique_enter vacant directory⟩, rows⟩
        rintro after he
        obtain rfl := Registry.maps.inj he
        exact ⟨RecordMap.filed_insert filed.credentials credential,
          RecordMap.filed_insert filed.accounts account,
          RecordMap.filed_insert filed.workingDirectories directory, filed.sessions⟩
  | tables t =>
      rcases Tables.createAccount_cases t credential account directory with
        ⟨name, refused, taken⟩ | ⟨entered, noCredential, noAccount, noRoot⟩
      · refine .inl ⟨name, by rw [createAccount, refused], taken.imp And.left And.left, fun vacant => ?_⟩
        rcases taken with ⟨-, row, mem, same⟩ | ⟨-, row, mem, same | same⟩
        · exact (h.credential?_eq_none _).mp vacant.noCredential row mem same
        · exact (h.account?_eq_none _).mp vacant.noAccount row mem same
        · exact vacant.noRoot t rfl row mem same
      · have vacant : (Registry.tables t).Vacant credential account :=
          ⟨(h.credential?_eq_none _).mpr noCredential, (h.account?_eq_none _).mpr noAccount,
            fun other he => Registry.tables.inj he ▸ noRoot⟩
        refine .inr ⟨_, by rw [createAccount, entered], vacant, ?_⟩
        have rows : (Registry.tables { t with
            credentials := t.credentials ++ [credential]
            accounts := t.accounts ++ [account]
            workingDirectories := put WorkingDirectory.username directory t.workingDirectories }).rows =
              (Registry.tables t).rows.enter credential account directory := by
          refine Rows.mk.injEq .. |>.mpr ⟨?_, ?_, ?_, rfl⟩
          · exact Multiset.coe_eq_coe.mpr (List.perm_append_singleton credential _)
          · exact Multiset.coe_eq_coe.mpr (List.perm_append_singleton account _)
          · exact coe_put h.unique.workingDirectories directory
        exact ⟨⟨filed_of_tables _, rows ▸ h.unique_enter vacant directory⟩, rows⟩

/-! ## Any calls -/

theorem Tidy.rows_putWorkingDirectory (h : r.Tidy) (directory : WorkingDirectory) :
    (r.putWorkingDirectory directory).2.rows = { r.rows with
      workingDirectories :=
        directory ::ₘ r.rows.workingDirectories.filter (·.username ≠ directory.username) } := by
  cases r with
  | maps m =>
      have filed := h.filed m rfl
      exact Rows.mk.injEq .. |>.mpr
        ⟨rfl, rfl, RecordMap.coe_insert filed.workingDirectories directory, rfl⟩
  | tables t =>
      rw [putWorkingDirectory, transaction_upsertWorkingDirectory]
      exact Rows.mk.injEq .. |>.mpr ⟨rfl, rfl, coe_put h.unique.workingDirectories directory, rfl⟩

theorem Tidy.putWorkingDirectory (h : r.Tidy) (directory : WorkingDirectory) :
    (r.putWorkingDirectory directory).2.Tidy := by
  have unique := nodup_cons_filter h.unique.workingDirectories directory
  refine ⟨?_, h.rows_putWorkingDirectory directory ▸ { h.unique with workingDirectories := unique }⟩
  rintro after he
  cases r with
  | tables t => cases he
  | maps m =>
      obtain rfl := Registry.maps.inj he
      have filed := h.filed m rfl
      exact { filed with
        workingDirectories := RecordMap.filed_insert filed.workingDirectories directory }

theorem Tidy.replaceSession (h : r.Tidy) (session : Session) : (r.replaceSession session).2.Tidy := by
  rcases replaceSession_cases h.sound.sessions session with
    ⟨failure, other, refused, -⟩ | ⟨after, entered, unique, -⟩
  · rw [refused]
    exact h
  · rw [entered]
    obtain ⟨keyed, -⟩ := h.keyed.rows_replaceSession entered
    rw [← Multiset.coe_nodup, keyed.sessionKeys] at unique
    cases r with
    | maps m =>
        obtain rfl := (Prod.mk.inj entered).2
        refine ⟨?_, { h.unique with sessions := unique }⟩
        rintro after ⟨⟩
        exact { h.filed m rfl with sessions := keyed }
    | tables t =>
        rcases Tables.replaceSession_cases t session with ⟨failure, row, refused, -⟩ | ⟨replaced, -⟩
        · rw [Registry.replaceSession, refused] at entered
          cases entered
        · rw [Registry.replaceSession, replaced] at entered
          obtain rfl := (Prod.mk.inj entered).2
          exact ⟨filed_of_tables _, { h.unique with sessions := unique }⟩

theorem Tidy.perform (h : r.Tidy) (op : Operation) : (r.perform op).2.Tidy := by
  cases op with
  | credential user => exact h
  | account user => exact h
  | accounts => exact h
  | session hash => exact h
  | workingDirectory user => exact h
  | deleteCredential user => exact h.deleteCredential user
  | deleteAccount user => exact h.deleteAccount user
  | deleteWorkingDirectory user => exact h.deleteWorkingDirectory user
  | deleteSession hash => exact h.deleteSession hash
  | deleteSessionsFor user => exact h.deleteSessionsFor user
  | putWorkingDirectory directory => exact h.putWorkingDirectory directory
  | replaceSession session => exact h.replaceSession session
  | createAccount credential account directory =>
      rcases h.createAccount_cases credential account directory with
        ⟨name, refused, -⟩ | ⟨after, entered, -, tidy, -⟩
      · simpa only [Registry.perform, refused] using h
      · simpa only [Registry.perform, entered] using tidy

/-- Whatever calls a registry takes that starts tidy, as an empty one does, it is tidy after them. -/
theorem Tidy.after (h : r.Tidy) (ops : List Operation) : (r.after ops).Tidy := by
  induction ops generalizing r with
  | nil => exact h
  | cons op ops ih => exact ih (h.perform op)

theorem tidy_empty : (maps .empty).Tidy ∧ (tables .empty).Tidy := by
  refine ⟨⟨?_, ?_⟩, filed_of_tables _, ?_⟩
  · rintro after ⟨⟩
    exact ⟨nofun, nofun, nofun, nofun⟩
  · exact ⟨.nil, .nil, .nil, .nil⟩
  · exact ⟨.nil, .nil, .nil, .nil⟩

end Strongroom.Registry
