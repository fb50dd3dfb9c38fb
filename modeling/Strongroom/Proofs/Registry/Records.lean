import Mathlib.Logic.Function.Basic
import Strongroom.Proofs.Registry.KeyedRows
import Strongroom.Registry.Basic
/-!
# What a registry answers

A registry of maps and one of tables answer the four kinds of question alike: each change does the
same to the answers of both.  The keys of sessions and of accounts are kept without repetition.
-/

namespace Strongroom.Registry

open Function (update)

/-! ## Records -/

/-- The answers to the four kinds of question. -/
structure Records where
  credential? : String → Option Credential
  account? : String → Option Account
  workingDirectory? : String → Option WorkingDirectory
  session? : String → Option Session

/-- What a registry answers. -/
def records (r : Registry) : Records :=
  ⟨r.credential?, r.account?, r.workingDirectory?, r.session?⟩

/-- The keys of the sessions. -/
def sessionKeys : Registry → List String
  | .maps m => m.sessions.map (·.1)
  | .tables t => t.sessions.map (·.tokenHash)

/-- The keys of the accounts. -/
def accountKeys : Registry → List String
  | .maps m => m.accounts.map (·.1)
  | .tables t => t.accounts.map (·.username)

/-- No session and no account stands twice. -/
structure Sound (r : Registry) : Prop where
  sessions : r.sessionKeys.Nodup
  accounts : r.accountKeys.Nodup

variable {r : Registry}

theorem Sound.of_keys (h : r.Sound) {after : Registry} (sessions : after.sessionKeys = r.sessionKeys)
    (accounts : after.accountKeys = r.accountKeys) : after.Sound :=
  ⟨sessions ▸ h.sessions, accounts ▸ h.accounts⟩

/-! ## Changes to one table -/

theorem records_deleteCredential (r : Registry) (user : String) :
    (r.deleteCredential user).records =
      { r.records with credential? := update r.records.credential? user none } := by
  cases r with
  | maps m =>
      simp only [records, deleteCredential, Records.mk.injEq]
      refine ⟨funext fun other => ?_, rfl, rfl, rfl⟩
      simp only [credential?, RecordMap.get?_erase, Function.update_apply]
  | tables t =>
      simp only [records, deleteCredential, Records.mk.injEq]
      refine ⟨funext fun other => ?_, rfl, rfl, rfl⟩
      simp only [credential?, find?_without_key, Function.update_apply]

theorem records_deleteAccount (r : Registry) (user : String) :
    (r.deleteAccount user).records =
      { r.records with account? := update r.records.account? user none } := by
  cases r with
  | maps m =>
      simp only [records, deleteAccount, Records.mk.injEq]
      refine ⟨rfl, funext fun other => ?_, rfl, rfl⟩
      simp only [account?, RecordMap.get?_erase, Function.update_apply]
  | tables t =>
      simp only [records, deleteAccount, Records.mk.injEq]
      refine ⟨rfl, funext fun other => ?_, rfl, rfl⟩
      simp only [account?, find?_without_key, Function.update_apply]

theorem records_deleteWorkingDirectory (r : Registry) (user : String) :
    (r.deleteWorkingDirectory user).records =
      { r.records with workingDirectory? := update r.records.workingDirectory? user none } := by
  cases r with
  | maps m =>
      simp only [records, deleteWorkingDirectory, Records.mk.injEq]
      refine ⟨rfl, rfl, funext fun other => ?_, rfl⟩
      simp only [workingDirectory?, RecordMap.get?_erase, Function.update_apply]
  | tables t =>
      simp only [records, deleteWorkingDirectory, Records.mk.injEq]
      refine ⟨rfl, rfl, funext fun other => ?_, rfl⟩
      simp only [workingDirectory?, find?_without_key, Function.update_apply]

theorem records_deleteSession (r : Registry) (hash : String) :
    (r.deleteSession hash).records =
      { r.records with session? := update r.records.session? hash none } := by
  cases r with
  | maps m =>
      simp only [records, deleteSession, Records.mk.injEq]
      refine ⟨rfl, rfl, rfl, funext fun other => ?_⟩
      simp only [session?, RecordMap.get?_erase, Function.update_apply]
  | tables t =>
      simp only [records, deleteSession, Records.mk.injEq]
      refine ⟨rfl, rfl, rfl, funext fun other => ?_⟩
      simp only [session?, find?_without_key SessionRow.tokenHash, Function.update_apply]
      split <;> rfl

/-- The sessions that are left are those of the other users. -/
theorem records_deleteSessionsFor (unique : r.sessionKeys.Nodup) (user : String) :
    (r.deleteSessionsFor user).records =
      { r.records with
        session? := fun hash => (r.session? hash).filter fun s => s.username != user } := by
  cases r with
  | maps m =>
      simp only [records, deleteSessionsFor, Records.mk.injEq]
      refine ⟨rfl, rfl, rfl, funext fun hash => ?_⟩
      simp only [session?, RecordMap.get?, Maps.sessionsWithout]
      rw [find?_where Prod.fst unique]
      cases m.sessions.find? fun item => item.1 == hash with
      | none => rfl
      | some item => by_cases hu : item.2.username = user <;> simp [Option.filter, hu]
  | tables t =>
      simp only [records, deleteSessionsFor, Records.mk.injEq]
      refine ⟨rfl, rfl, rfl, funext fun hash => ?_⟩
      simp only [session?]
      rw [find?_where SessionRow.tokenHash unique]
      cases t.sessions.find? fun row => row.tokenHash == hash with
      | none => rfl
      | some row => by_cases hu : row.username = user <;> simp [Option.filter, SessionRow.toSession, hu]

/-- Whether or not the user has a row, the statement is carried out. -/
theorem upsertWorkingDirectory_eq (directory : WorkingDirectory) (t : Tables) :
    Tables.upsertWorkingDirectory directory t = .ok { t with
      workingDirectories := put WorkingDirectory.username directory t.workingDirectories } := by
  unfold Tables.upsertWorkingDirectory put
  split <;> rfl

theorem transaction_upsertWorkingDirectory (directory : WorkingDirectory) (t : Tables) :
    t.transaction [Tables.upsertWorkingDirectory directory] = (.ok (), { t with
      workingDirectories := put WorkingDirectory.username directory t.workingDirectories }) :=
  Tables.transaction_of_done (by simp only [Tables.runStatements, upsertWorkingDirectory_eq])

/-- The working directory of a user can always be recorded. -/
theorem putWorkingDirectory_eq (r : Registry) (directory : WorkingDirectory) :
    ∃ after, r.putWorkingDirectory directory = (.ok (), after) ∧
      after.sessionKeys = r.sessionKeys ∧ after.accountKeys = r.accountKeys ∧
      after.records = { r.records with
        workingDirectory? :=
          update r.records.workingDirectory? directory.username (some directory) } := by
  cases r with
  | maps m =>
      refine ⟨_, rfl, rfl, rfl, ?_⟩
      simp only [records, Records.mk.injEq]
      refine ⟨rfl, rfl, funext fun other => ?_, rfl⟩
      simp only [workingDirectory?, RecordMap.get?_insert, Function.update_apply]
  | tables t =>
      refine ⟨.tables { t with
        workingDirectories := put WorkingDirectory.username directory t.workingDirectories },
        ?_, rfl, rfl, ?_⟩
      · simp only [putWorkingDirectory, transaction_upsertWorkingDirectory]
      · simp only [records, Records.mk.injEq]
        refine ⟨rfl, rfl, funext fun user => ?_, rfl⟩
        simp only [workingDirectory?, find?_put, Function.update_apply]

theorem Sound.deleteCredential (h : r.Sound) (user : String) : (r.deleteCredential user).Sound := by
  cases r <;> exact ⟨h.sessions, h.accounts⟩

theorem Sound.deleteWorkingDirectory (h : r.Sound) (user : String) :
    (r.deleteWorkingDirectory user).Sound := by
  cases r <;> exact ⟨h.sessions, h.accounts⟩

theorem Sound.deleteAccount (h : r.Sound) (user : String) : (r.deleteAccount user).Sound := by
  cases r <;> exact ⟨h.sessions, h.accounts.sublist (List.filter_sublist.map _)⟩

theorem nodup_deleteSession (unique : r.sessionKeys.Nodup) (hash : String) :
    (r.deleteSession hash).sessionKeys.Nodup := by
  cases r <;> exact unique.sublist (List.filter_sublist.map _)

theorem nodup_deleteSessionsFor (unique : r.sessionKeys.Nodup) (user : String) :
    (r.deleteSessionsFor user).sessionKeys.Nodup := by
  cases r <;> exact unique.sublist (List.filter_sublist.map _)

theorem Sound.deleteSession (h : r.Sound) (hash : String) : (r.deleteSession hash).Sound :=
  ⟨nodup_deleteSession h.sessions hash, by cases r <;> exact h.accounts⟩

theorem Sound.deleteSessionsFor (h : r.Sound) (user : String) : (r.deleteSessionsFor user).Sound :=
  ⟨nodup_deleteSessionsFor h.sessions user, by cases r <;> exact h.accounts⟩

/-! ## Compound changes -/

theorem RecordMap.nodup_insert {α : Type} {m : RecordMap α} (unique : (m.map Prod.fst).Nodup)
    (key : String) (record : α) : ((m.insert key record).map Prod.fst).Nodup := by
  refine List.nodup_cons.mpr ⟨fun hm => ?_, unique.sublist (List.filter_sublist.map _)⟩
  obtain ⟨item, hm, he⟩ := List.mem_map.mp hm
  simpa [he] using (List.mem_filter.mp hm).2

/-- No expiry is lost in a signed column. -/
theorem toSession_ofSession (session : Session) :
    (SessionRow.ofSession session).toSession = session := by
  simp [SessionRow.ofSession, SessionRow.toSession]

/-- Maps record a new user unless a credential or an account of that name is there. -/
theorem Maps.createAccount_cases (m : Maps) (credential : Credential) (account : Account)
    (directory : WorkingDirectory) :
    (m.createAccount credential account directory = (.error (.duplicate credential.username), m) ∧
      (m.credentials.get? credential.username ≠ none ∨ m.accounts.get? account.username ≠ none)) ∨
    m.createAccount credential account directory = (.ok (), { m with
        credentials := m.credentials.insert credential.username credential
        accounts := m.accounts.insert account.username account
        workingDirectories := m.workingDirectories.insert directory.username directory }) ∧
      m.credentials.get? credential.username = none ∧ m.accounts.get? account.username = none := by
  have taken : (m.credentials.contains credential.username ||
        m.accounts.contains account.username) = true ↔
      m.credentials.get? credential.username ≠ none ∨ m.accounts.get? account.username ≠ none := by
    simp [RecordMap.contains, Option.isSome_iff_ne_none]
  by_cases h : (m.credentials.contains credential.username ||
      m.accounts.contains account.username) = true
  · exact .inl ⟨by rw [Maps.createAccount, if_pos h], taken.mp h⟩
  · have vacant := mt taken.mpr h
    rw [not_or, not_not, not_not] at vacant
    exact .inr ⟨by rw [Maps.createAccount, if_neg h], vacant⟩

/-- Tables record a new user unless one of the statements meets a key that is there; the one before it
is taken back then. -/
theorem Tables.createAccount_cases (t : Tables) (credential : Credential) (account : Account)
    (directory : WorkingDirectory) :
    (∃ name, t.createAccount credential account directory = (.error (.duplicate name), t) ∧
      (name = credential.username ∧ (∃ row ∈ t.credentials, row.username = credential.username) ∨
        name = account.username ∧
          ∃ row ∈ t.accounts, row.username = account.username ∨ row.rootId = account.rootId)) ∨
    t.createAccount credential account directory = (.ok (), { t with
        credentials := t.credentials ++ [credential]
        accounts := t.accounts ++ [account]
        workingDirectories := put WorkingDirectory.username directory t.workingDirectories }) ∧
      (∀ row ∈ t.credentials, row.username ≠ credential.username) ∧
      (∀ row ∈ t.accounts, row.username ≠ account.username) ∧
      ∀ row ∈ t.accounts, row.rootId ≠ account.rootId := by
  by_cases first : ∃ row ∈ t.credentials, row.username = credential.username
  · refine .inl ⟨credential.username, ?_, .inl ⟨rfl, first⟩⟩
    have refused : Tables.insertCredential credential t = .error (.duplicate credential.username) := by
      rw [Tables.insertCredential, if_pos (by simpa using first)]
    refine Tables.transaction_of_error ?_
    simp only [Tables.runStatements, refused]
  have inserted : Tables.insertCredential credential t =
      .ok { t with credentials := t.credentials ++ [credential] } := by
    rw [Tables.insertCredential, if_neg (by simpa using first)]
  by_cases second : ∃ row ∈ t.accounts, row.username = account.username ∨ row.rootId = account.rootId
  · refine .inl ⟨account.username, ?_, .inr ⟨rfl, second⟩⟩
    have refused : Tables.insertAccount account { t with credentials := t.credentials ++ [credential] } =
        .error (.duplicate account.username) := by
      rw [Tables.insertAccount, if_pos (by simpa using second)]
    refine Tables.transaction_of_error ?_
    simp only [Tables.runStatements, inserted, refused]
  have entered : Tables.insertAccount account { t with credentials := t.credentials ++ [credential] } =
      .ok { t with
        credentials := t.credentials ++ [credential], accounts := t.accounts ++ [account] } := by
    rw [Tables.insertAccount, if_neg (by simpa using second)]
  refine .inr ⟨?_, fun row hm he => first ⟨row, hm, he⟩, fun row hm he => second ⟨row, hm, .inl he⟩,
    fun row hm he => second ⟨row, hm, .inr he⟩⟩
  exact Tables.transaction_of_done
    (by simp only [Tables.runStatements, inserted, entered, upsertWorkingDirectory_eq])

/-- A new user is refused because of a name or a root directory that is taken, and nothing is changed
then; otherwise all three records are there afterwards. -/
theorem createAccount_cases (hs : r.Sound) (credential : Credential) (account : Account)
    (directory : WorkingDirectory) :
    (∃ name, r.createAccount credential account directory = (.error (.duplicate name), r) ∧
      (name = credential.username ∨ name = account.username) ∧
      (r.credential? credential.username ≠ none ∨ r.account? account.username ≠ none ∨
        ∃ user other, r.account? user = some other ∧ other.rootId = account.rootId)) ∨
    ∃ after, r.createAccount credential account directory = (.ok (), after) ∧ after.Sound ∧
      r.credential? credential.username = none ∧ r.account? account.username = none ∧
      after.records =
        { r.records with
          credential? := update r.records.credential? credential.username (some credential)
          account? := update r.records.account? account.username (some account)
          workingDirectory? :=
            update r.records.workingDirectory? directory.username (some directory) } := by
  cases r with
  | maps m =>
      rcases Maps.createAccount_cases m credential account directory with
        ⟨he, taken⟩ | ⟨he, noCredential, noAccount⟩
      · refine .inl ⟨credential.username, by rw [createAccount, he], .inl rfl, ?_⟩
        exact taken.imp_right .inl
      · refine .inr ⟨.maps { m with
            credentials := m.credentials.insert credential.username credential
            accounts := m.accounts.insert account.username account
            workingDirectories := m.workingDirectories.insert directory.username directory },
          by rw [createAccount, he], ⟨hs.sessions, ?_⟩, noCredential, noAccount, ?_⟩
        · exact RecordMap.nodup_insert hs.accounts account.username account
        · simp only [records, Records.mk.injEq]
          refine ⟨funext fun _ => ?_, funext fun _ => ?_, funext fun _ => ?_, rfl⟩
          · simp only [credential?, RecordMap.get?_insert, Function.update_apply]
          · simp only [account?, RecordMap.get?_insert, Function.update_apply]
          · simp only [workingDirectory?, RecordMap.get?_insert, Function.update_apply]
  | tables t =>
      rcases Tables.createAccount_cases t credential account directory with
        ⟨name, he, taken⟩ | ⟨he, noCredential, noAccount, -⟩
      · refine .inl ⟨name, by rw [createAccount, he], ?_⟩
        rcases taken with ⟨rfl, row, hm, same⟩ | ⟨rfl, row, hm, same⟩
        · refine ⟨.inl rfl, .inl fun none => ?_⟩
          exact List.find?_eq_none.mp none row hm (by simpa using same)
        · refine ⟨.inr rfl, .inr ?_⟩
          have known := find?_of_mem Account.username hs.accounts hm
          rcases same with same | same
          · exact .inl fun none => by
              rw [same] at known
              exact absurd (known.symm.trans none) (by simp)
          · exact .inr ⟨row.username, row, known, same⟩
      · refine .inr ⟨.tables { t with
            credentials := t.credentials ++ [credential]
            accounts := t.accounts ++ [account]
            workingDirectories := put WorkingDirectory.username directory t.workingDirectories },
          by rw [createAccount, he], ⟨hs.sessions, ?_⟩, ?_, ?_, ?_⟩
        · exact nodup_concat Account.username hs.accounts noAccount
        · simpa [credential?, List.find?_eq_none] using noCredential
        · simpa [account?, List.find?_eq_none] using noAccount
        · simp only [records, Records.mk.injEq]
          refine ⟨funext fun user => ?_, funext fun user => ?_, funext fun user => ?_, rfl⟩
          · simp only [credential?, Function.update_apply]
            exact find?_concat Credential.username noCredential user
          · simp only [account?, Function.update_apply]
            exact find?_concat Account.username noAccount user
          · simp only [workingDirectory?, find?_put, Function.update_apply]

/-- A user who has neither a credential nor an account can be recorded with a root directory that
is no one else's. -/
theorem createAccount_of_vacant (hs : r.Sound) (credential : Credential) (account : Account)
    (directory : WorkingDirectory) (hc : r.credential? credential.username = none)
    (ha : r.account? account.username = none)
    (hi : ∀ user other, r.account? user = some other → other.rootId ≠ account.rootId) :
    ∃ after, r.createAccount credential account directory = (.ok (), after) ∧ after.Sound ∧
      after.records =
        { r.records with
          credential? := update r.records.credential? credential.username (some credential)
          account? := update r.records.account? account.username (some account)
          workingDirectory? :=
            update r.records.workingDirectory? directory.username (some directory) } := by
  rcases createAccount_cases hs credential account directory with
    ⟨-, -, -, taken⟩ | ⟨after, he, sound, -, -, answers⟩
  · rcases taken with taken | taken | ⟨user, other, known, same⟩
    · exact absurd hc taken
    · exact absurd ha taken
    · exact absurd same (hi user other known)
  · exact ⟨after, he, sound, answers⟩

/-- Tables put a session in the place of those of its user unless the session of another user has its
hash; the sessions that were removed are there again then. -/
theorem Tables.replaceSession_cases (t : Tables) (session : Session) :
    (∃ failure row, t.replaceSession session = (.error failure, t) ∧ row ∈ t.sessions ∧
      row.tokenHash = session.tokenHash ∧ row.username ≠ session.username) ∨
    t.replaceSession session = (.ok (), { t with
        sessions := (t.sessions.filter fun row => row.username != session.username) ++
          [.ofSession session] }) ∧
      ∀ row ∈ t.sessions.filter fun row => row.username != session.username,
        row.tokenHash ≠ session.tokenHash := by
  by_cases taken : ∃ row ∈ t.sessions.filter fun row => row.username != session.username,
      row.tokenHash = session.tokenHash
  · have refused : Tables.insertSession session { t with
          sessions := t.sessions.filter fun row => row.username != session.username } =
        .error (.database "UNIQUE constraint failed: sessions.token_hash") := by
      rw [Tables.insertSession, if_pos (by simpa [and_assoc] using taken)]
    obtain ⟨row, hm, he⟩ := taken
    obtain ⟨hm, hu⟩ := List.mem_filter.mp hm
    refine .inl ⟨.database "UNIQUE constraint failed: sessions.token_hash", row, ?_, hm, he,
      by simpa using hu⟩
    refine Tables.transaction_of_error ?_
    simp only [Tables.runStatements, Tables.deleteSessionsOf, refused]
  · have inserted : Tables.insertSession session { t with
          sessions := t.sessions.filter fun row => row.username != session.username } =
        .ok { t with sessions :=
          (t.sessions.filter fun row => row.username != session.username) ++ [.ofSession session] } := by
      rw [Tables.insertSession, if_neg (by simpa [and_assoc] using taken)]
    refine .inr ⟨?_, fun row hm he => taken ⟨row, hm, he⟩⟩
    exact Tables.transaction_of_done
      (by simp only [Tables.runStatements, Tables.deleteSessionsOf, inserted])

/-- A session takes the place of those of its user, unless tables refuse its key, which is then the
key of another user's session. -/
theorem replaceSession_cases (unique : r.sessionKeys.Nodup) (session : Session) :
    (∃ failure other, r.replaceSession session = (.error failure, r) ∧
      r.session? session.tokenHash = some other ∧ other.username ≠ session.username) ∨
    ∃ after, r.replaceSession session = (.ok (), after) ∧ after.sessionKeys.Nodup ∧
      after.accountKeys = r.accountKeys ∧ after.records = { r.records with
        session? := update
          (fun hash => (r.session? hash).filter fun s => s.username != session.username)
          session.tokenHash (some session) } := by
  have others := records_deleteSessionsFor unique session.username
  have left := nodup_deleteSessionsFor unique session.username
  cases r with
  | maps m =>
      refine .inr ⟨_, rfl, ?_, rfl, ?_⟩
      · exact RecordMap.nodup_insert left session.tokenHash session
      · simp only [records, Records.mk.injEq] at others ⊢
        refine ⟨rfl, rfl, rfl, funext fun hash => ?_⟩
        simp only [session?, RecordMap.get?_insert, Function.update_apply]
        congr 1
        exact congrFun others.2.2.2 hash
  | tables t =>
      rcases Tables.replaceSession_cases t session with ⟨failure, row, he, hm, same, away⟩ | ⟨he, vacant⟩
      · have found := find?_of_mem SessionRow.tokenHash unique hm
        rw [same] at found
        refine .inl ⟨failure, row.toSession, by rw [replaceSession, he], ?_, away⟩
        simp only [session?, found, Option.map_some]
      · refine .inr ⟨.tables { t with sessions :=
          (t.sessions.filter fun row => row.username != session.username) ++ [.ofSession session] },
          by rw [replaceSession, he], nodup_concat SessionRow.tokenHash left vacant, rfl, ?_⟩
        simp only [records, Records.mk.injEq] at others ⊢
        refine ⟨rfl, rfl, rfl, funext fun hash => ?_⟩
        have law := @find?_concat _ SessionRow.tokenHash _ (.ofSession session) vacant hash
        simp only [session?, law, Function.update_apply]
        rw [← session?, ← congrFun others.2.2.2 hash]
        show Option.map _ (if hash = session.tokenHash then _ else _) = _
        split
        · rw [Option.map_some, toSession_ofSession]
        · rfl

/-- Compound changes are all or nothing, whichever records are there before: one that is refused, because
something that has to be free is taken, leaves the registry as it was, and one that is carried out changes
the rows that it names and no others. -/
theorem compound_changes (hs : r.Sound) (credential : Credential) (account : Account)
    (directory : WorkingDirectory) (session : Session) :
    (∀ failure after, r.createAccount credential account directory = (.error failure, after) →
      after = r ∧ (r.credential? credential.username ≠ none ∨ r.account? account.username ≠ none ∨
        ∃ user other, r.account? user = some other ∧ other.rootId = account.rootId)) ∧
    (∀ after, r.createAccount credential account directory = (.ok (), after) → after.Sound ∧
      r.credential? credential.username = none ∧ r.account? account.username = none ∧
      after.records =
        { r.records with
          credential? := update r.credential? credential.username (some credential)
          account? := update r.account? account.username (some account)
          workingDirectory? := update r.workingDirectory? directory.username (some directory) }) ∧
    (∀ failure after, r.replaceSession session = (.error failure, after) →
      after = r ∧ ∃ other, r.session? session.tokenHash = some other ∧
        other.username ≠ session.username) ∧
    (∀ after, r.replaceSession session = (.ok (), after) → after.Sound ∧
      after.records =
        { r.records with
          session? := update
            (fun hash => (r.session? hash).filter fun old => old.username != session.username)
            session.tokenHash (some session) }) := by
  refine ⟨?_, ?_, ?_, ?_⟩
  · intro failure after h
    rcases createAccount_cases hs credential account directory with
      ⟨name, he, -, taken⟩ | ⟨other, he, -⟩
    · exact ⟨(Prod.mk.inj (he.symm.trans h)).2.symm, taken⟩
    · cases he.symm.trans h
  · intro after h
    rcases createAccount_cases hs credential account directory with
      ⟨name, he, -⟩ | ⟨other, he, sound, noCredential, noAccount, answers⟩
    · cases he.symm.trans h
    · obtain rfl := (Prod.mk.inj (he.symm.trans h)).2
      exact ⟨sound, noCredential, noAccount, answers⟩
  · intro failure after h
    rcases replaceSession_cases hs.sessions session with
      ⟨cause, old, he, found, away⟩ | ⟨other, he, -⟩
    · exact ⟨(Prod.mk.inj (he.symm.trans h)).2.symm, old, found, away⟩
    · cases he.symm.trans h
  · intro after h
    rcases replaceSession_cases hs.sessions session with
      ⟨cause, old, he, -⟩ | ⟨other, he, sessions, accounts, answers⟩
    · cases he.symm.trans h
    · obtain rfl := (Prod.mk.inj (he.symm.trans h)).2
      exact ⟨⟨sessions, accounts ▸ hs.accounts⟩, answers⟩

/-- An account without a credential, and a session of a user who has no account. -/
def sampleRemains : Registry :=
  .tables ⟨[], [⟨"ada", "r0"⟩], [], [.ofSession ⟨"h0", "bob", 5⟩, .ofSession ⟨"h1", "cleo", 6⟩]⟩

/-- Three users and a root directory that is taken; a hash that is another user's; and a session that
takes the place of an older one. -/
theorem compound_changes_remains :
    sampleRemains.createAccount ⟨"dan", "00", "ff"⟩ ⟨"eve", "r0"⟩ ⟨"ada", "/r1"⟩ =
        (.error (.duplicate "eve"), sampleRemains) ∧
      (sampleRemains.replaceSession ⟨"h1", "bob", 9⟩).2 = sampleRemains ∧
      (sampleRemains.replaceSession ⟨"h2", "bob", 9⟩).2.session? "h0" = none := by
  have sound : sampleRemains.Sound := ⟨by decide, by decide⟩
  obtain ⟨refused, -, kept, -⟩ := compound_changes sound ⟨"dan", "00", "ff"⟩ ⟨"eve", "r0"⟩
    ⟨"ada", "/r1"⟩ ⟨"h1", "bob", 9⟩
  obtain ⟨-, -, -, replaced⟩ := compound_changes sound ⟨"dan", "00", "ff"⟩ ⟨"eve", "r0"⟩
    ⟨"ada", "/r1"⟩ ⟨"h2", "bob", 9⟩
  refine ⟨Prod.ext rfl (refused (.duplicate "eve") _ (Prod.ext rfl rfl)).1, ?_, ?_⟩
  · exact (kept (.database "UNIQUE constraint failed: sessions.token_hash") _ (Prod.ext rfl rfl)).1
  · obtain ⟨-, answers⟩ := replaced _ (Prod.ext rfl rfl)
    exact (congrFun (congrArg Records.session? answers) "h0").trans (by decide)

end Strongroom.Registry
