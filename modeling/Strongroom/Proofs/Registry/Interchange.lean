import Mathlib.Data.Multiset.Basic
import Strongroom.Proofs.Registry.Records
import Strongroom.Proofs.Text.ByteOrder
/-!
# Maps and tables for one another

A registry of maps and one of tables that start empty and take the same calls give the same answers
and hold the same rows, as long as the calls keep to what is asked of a caller: the records of a new
user name one user, and neither a root directory nor a token hash is another user's.
-/

namespace Strongroom.Registry

/-! ## Calls -/

/-- A call of a registry. -/
inductive Operation
  | credential (username : String)
  | deleteCredential (username : String)
  | account (username : String)
  | accounts
  | deleteAccount (username : String)
  | createAccount (credential : Credential) (account : Account) (directory : WorkingDirectory)
  | session (tokenHash : String)
  | deleteSession (tokenHash : String)
  | deleteSessionsFor (username : String)
  | replaceSession (session : Session)
  | workingDirectory (username : String)
  | putWorkingDirectory (directory : WorkingDirectory)
  | deleteWorkingDirectory (username : String)

/-- What a call gives back. -/
inductive Answer
  | credential (found : Option Credential)
  | account (found : Option Account)
  | accounts (all : List Account)
  | session (found : Option Session)
  | workingDirectory (found : Option WorkingDirectory)
  | outcome (outcome : Except RegistryFailure Unit)

/-- The answer to a call, and the registry after it. -/
def perform (r : Registry) : Operation → Answer × Registry
  | .credential username => (.credential (r.credential? username), r)
  | .deleteCredential username => (.outcome (.ok ()), r.deleteCredential username)
  | .account username => (.account (r.account? username), r)
  | .accounts => (.accounts r.accounts, r)
  | .deleteAccount username => (.outcome (.ok ()), r.deleteAccount username)
  | .createAccount credential account directory =>
    let (outcome, after) := r.createAccount credential account directory
    (.outcome outcome, after)
  | .session tokenHash => (.session (r.session? tokenHash), r)
  | .deleteSession tokenHash => (.outcome (.ok ()), r.deleteSession tokenHash)
  | .deleteSessionsFor username => (.outcome (.ok ()), r.deleteSessionsFor username)
  | .replaceSession session =>
    let (outcome, after) := r.replaceSession session
    (.outcome outcome, after)
  | .workingDirectory username => (.workingDirectory (r.workingDirectory? username), r)
  | .putWorkingDirectory directory =>
    let (outcome, after) := r.putWorkingDirectory directory
    (.outcome outcome, after)
  | .deleteWorkingDirectory username => (.outcome (.ok ()), r.deleteWorkingDirectory username)

/-- The answers to calls, one after the other. -/
def answers : Registry → List Operation → List Answer
  | _, [] => []
  | r, op :: ops => (r.perform op).1 :: (r.perform op).2.answers ops

/-- The registry after some calls. -/
def after (r : Registry) (ops : List Operation) : Registry :=
  ops.foldl (fun r op => (r.perform op).2) r

/-- The four tables, none of them in an order. -/
structure Rows where
  credentials : Multiset Credential
  accounts : Multiset Account
  workingDirectories : Multiset WorkingDirectory
  sessions : Multiset Session

/-- What a registry holds. -/
def rows : Registry → Rows
  | .maps m => ⟨m.credentials.map (·.2), m.accounts.map (·.2), m.workingDirectories.map (·.2),
      m.sessions.map (·.2)⟩
  | .tables t => ⟨t.credentials, t.accounts, t.workingDirectories, t.sessions.map (·.toSession)⟩

/-- What is asked of a caller. -/
def Proper (r : Registry) : Operation → Prop
  | .createAccount credential account directory =>
    account.username = credential.username ∧ directory.username = credential.username ∧
      ∀ row ∈ r.rows.accounts, row.rootId = account.rootId → row.username = account.username
  | .replaceSession session =>
    ∀ row ∈ r.rows.sessions, row.tokenHash = session.tokenHash → row.username = session.username
  | _ => True

/-- Each call is proper when it is made. -/
def ProperRun : Registry → List Operation → Prop
  | _, [] => True
  | r, op :: ops => r.Proper op ∧ (r.perform op).2.ProperRun ops

/-! ## A map and a table -/

section

variable {α : Type} {key : α → String} {m : RecordMap α} {rows rows' : List α} {row : α}

/-- A map with the rows of a table: each of them stands under its key, and no key has two. -/
structure Mirrors (key : α → String) (m : RecordMap α) (rows : List α) : Prop where
  keyed : ∀ item ∈ m, item.1 = key item.2
  unique : (rows.map key).Nodup
  same : (m.map Prod.snd).Perm rows

theorem Mirrors.empty (key : α → String) : Mirrors key [] [] :=
  ⟨fun _ hm => (List.not_mem_nil hm).elim, List.nodup_nil, .nil⟩

theorem Mirrors.get?_eq (h : Mirrors key m rows) (name : String) :
    m.get? name = rows.find? fun row => key row == name := by
  have found : (m.filter fun item => item.1 == name) = m.filter fun item => key item.2 == name :=
    List.filter_congr fun item hm => by rw [h.keyed item hm]
  rw [← find?_perm key h.unique h.same, List.find?_map, RecordMap.get?, ← List.head?_filter, found,
    List.head?_filter]
  rfl

theorem Mirrors.filter (h : Mirrors key m rows) (p : α → Bool) :
    Mirrors key (m.filter fun item => p item.2) (rows.filter p) := by
  refine ⟨fun item hm => h.keyed item (List.mem_of_mem_filter hm),
    h.unique.sublist (List.filter_sublist.map key), ?_⟩
  have := h.same.filter p
  rwa [List.filter_map] at this

theorem Mirrors.erase_eq (h : Mirrors key m rows) (name : String) :
    m.erase name = m.filter fun item => key item.2 != name :=
  List.filter_congr fun item hm => by rw [h.keyed item hm]

theorem Mirrors.erase (h : Mirrors key m rows) (name : String) :
    Mirrors key (m.erase name) (rows.filter fun row => key row != name) := by
  rw [h.erase_eq]
  exact h.filter fun row => key row != name

theorem Mirrors.insert (h : Mirrors key m rows)
    (perm : rows'.Perm (row :: rows.filter fun old => key old != key row)) :
    Mirrors key (m.insert (key row) row) rows' := by
  have rest := h.erase (key row)
  refine ⟨fun item hm => ?_, ?_, ?_⟩
  · rcases List.mem_cons.mp hm with rfl | hm
    · rfl
    · exact rest.keyed item hm
  · rw [(perm.map key).nodup_iff, List.map_cons, List.nodup_cons]
    refine ⟨fun hm => ?_, rest.unique⟩
    obtain ⟨old, hm, he⟩ := List.mem_map.mp hm
    simpa [he] using (List.mem_filter.mp hm).2
  · exact (rest.same.cons row).trans perm.symm

end

/-! ## Sessions, which stand in their rows in another form -/

section

variable {m : RecordMap Session} {rows : List SessionRow}
  (h : Mirrors Session.tokenHash m (rows.map (·.toSession)))
include h

theorem Mirrors.get?_session (hash : String) :
    m.get? hash = (rows.find? fun row => row.tokenHash == hash).map (·.toSession) := by
  rw [h.get?_eq, List.find?_map]
  rfl

theorem Mirrors.filter_sessions (p : Session → Bool) :
    Mirrors Session.tokenHash (m.filter fun item => p item.2)
      ((rows.filter fun row => p row.toSession).map (·.toSession)) := by
  have := h.filter p
  rwa [List.filter_map] at this

end

/-! ## Maps and tables -/

/-- Maps and tables with the same rows. -/
inductive Paired : Registry → Registry → Prop
  | intro {m : Maps} {t : Tables} (credentials : Mirrors Credential.username m.credentials t.credentials)
      (accounts : Mirrors Account.username m.accounts t.accounts)
      (directories : Mirrors WorkingDirectory.username m.workingDirectories t.workingDirectories)
      (sessions : Mirrors Session.tokenHash m.sessions (t.sessions.map (·.toSession))) :
      Paired (.maps m) (.tables t)

variable {r r' : Registry}

theorem Paired.empty : Paired (.maps .empty) (.tables .empty) :=
  .intro (.empty _) (.empty _) (.empty _) (.empty _)

theorem Paired.rows_eq (h : Paired r r') : r.rows = r'.rows := by
  obtain ⟨credentials, accounts, directories, sessions⟩ := h
  simp only [rows, Rows.mk.injEq]
  exact ⟨Multiset.coe_eq_coe.mpr credentials.same, Multiset.coe_eq_coe.mpr accounts.same,
    Multiset.coe_eq_coe.mpr directories.same, Multiset.coe_eq_coe.mpr sessions.same⟩

theorem Paired.records_eq (h : Paired r r') : r.records = r'.records := by
  obtain ⟨credentials, accounts, directories, sessions⟩ := h
  simp only [records, Records.mk.injEq]
  exact ⟨funext credentials.get?_eq, funext accounts.get?_eq, funext directories.get?_eq,
    funext sessions.get?_session⟩

theorem Paired.accounts_eq (h : Paired r r') : r.accounts = r'.accounts := by
  obtain ⟨-, accounts, -, -⟩ := h
  exact Bytes.mergeSort_eq_of_perm Account.username accounts.unique accounts.same

theorem Paired.pairwise_accounts (h : Paired r r') :
    r.accounts.Pairwise fun a b => Bytes.ofText a.username < Bytes.ofText b.username := by
  rw [h.accounts_eq]
  obtain ⟨-, accounts, -, -⟩ := h
  exact Bytes.pairwise_mergeSort Account.username accounts.unique

/-! ## One call -/

/-- Two registries answer a call alike and are a pair afterwards. -/
structure Agree (r r' : Registry) (op : Operation) : Prop where
  answer : (r.perform op).1 = (r'.perform op).1
  paired : Paired (r.perform op).2 (r'.perform op).2

section

variable {m m' : Maps} {t t' : Tables} {outcome : Except RegistryFailure Unit}

theorem Agree.of_createAccount {credential : Credential} {account : Account}
    {directory : WorkingDirectory} (hm : m.createAccount credential account directory = (outcome, m'))
    (ht : t.createAccount credential account directory = (outcome, t'))
    (paired : Paired (.maps m') (.tables t')) :
    Agree (.maps m) (.tables t) (.createAccount credential account directory) := by
  refine ⟨?_, ?_⟩
  · simp only [perform, Registry.createAccount, hm, ht]
  · simpa only [perform, Registry.createAccount, hm, ht] using paired

theorem Agree.of_replaceSession {session : Session} (hm : m.replaceSession session = (outcome, m'))
    (ht : t.replaceSession session = (outcome, t')) (paired : Paired (.maps m') (.tables t')) :
    Agree (.maps m) (.tables t) (.replaceSession session) := by
  refine ⟨?_, ?_⟩
  · simp only [perform, Registry.replaceSession, hm, ht]
  · simpa only [perform, Registry.replaceSession, hm, ht] using paired

end

/-- A name that is taken is taken in both, and a root directory that is taken is the user's own. -/
theorem Paired.createAccount (h : Paired r r') {credential : Credential} {account : Account}
    {directory : WorkingDirectory} (proper : r.Proper (.createAccount credential account directory)) :
    Agree r r' (.createAccount credential account directory) := by
  have held := h.rows_eq
  obtain ⟨sameAccount, -, free⟩ := proper
  cases h with
  | @intro m t credentials accounts directories sessions =>
  have knownCredential := credentials.get?_eq credential.username
  have knownAccount := accounts.get?_eq account.username
  rcases Maps.createAccount_cases m credential account directory with
    ⟨hm, taken⟩ | ⟨hm, noCredential, noAccount⟩
  · rcases Tables.createAccount_cases t credential account directory with
      ⟨name, ht, named⟩ | ⟨-, noCredential, noAccount, -⟩
    · obtain rfl : name = credential.username := by
        rcases named with ⟨he, -⟩ | ⟨he, -⟩
        · exact he
        · exact he.trans sameAccount
      exact .of_createAccount hm ht (.intro credentials accounts directories sessions)
    · rw [List.find?_eq_none.mpr (by simpa using noCredential)] at knownCredential
      rw [List.find?_eq_none.mpr (by simpa using noAccount)] at knownAccount
      exact absurd taken (by simp [knownCredential, knownAccount])
  · rw [noCredential, eq_comm, List.find?_eq_none] at knownCredential
    rw [noAccount, eq_comm, List.find?_eq_none] at knownAccount
    rcases Tables.createAccount_cases t credential account directory with
      ⟨name, -, ⟨-, row, mem, same⟩ | ⟨-, row, mem, same⟩⟩ | ⟨ht, freeCredential, freeAccount, -⟩
    · exact absurd same (by simpa using knownCredential row mem)
    · have same : row.username = account.username := by
        rcases same with same | same
        · exact same
        · exact free row (held ▸ mem) same
      exact absurd same (by simpa using knownAccount row mem)
    · exact .of_createAccount hm ht (.intro (credentials.insert (perm_concat _ freeCredential))
        (accounts.insert (perm_concat _ freeAccount))
        (directories.insert (perm_put _ directories.unique directory)) sessions)

theorem Paired.replaceSession (h : Paired r r') {session : Session}
    (proper : r.Proper (.replaceSession session)) : Agree r r' (.replaceSession session) := by
  have held := h.rows_eq
  cases h with
  | @intro m t credentials accounts directories sessions =>
  rcases Tables.replaceSession_cases t session with ⟨failure, row, -, mem, same, away⟩ | ⟨ht, vacant⟩
  · have mem : row.toSession ∈ (Registry.maps m).rows.sessions :=
      held ▸ List.mem_map_of_mem (f := (·.toSession)) mem
    exact absurd (proper row.toSession mem same) away
  · have others := sessions.filter_sessions fun s => s.username != session.username
    refine .of_replaceSession rfl ht (.intro credentials accounts directories (others.insert ?_))
    rw [List.map_append, List.map_singleton, toSession_ofSession]
    refine perm_concat _ fun old hm => ?_
    obtain ⟨row, mem, rfl⟩ := List.mem_map.mp hm
    exact vacant row mem

/-- A call that is proper is answered alike by maps and tables, and they hold the same rows after it. -/
theorem Paired.perform (h : Paired r r') {op : Operation} (proper : r.Proper op) : Agree r r' op := by
  obtain ⟨knownCredential, knownAccount, knownDirectory, knownSession⟩ :=
    Records.mk.inj h.records_eq
  cases op with
  | credential username => exact ⟨congrArg Answer.credential (congrFun knownCredential username), h⟩
  | deleteCredential username =>
      obtain ⟨credentials, accounts, directories, sessions⟩ := h
      exact ⟨rfl, .intro (credentials.erase username) accounts directories sessions⟩
  | account username => exact ⟨congrArg Answer.account (congrFun knownAccount username), h⟩
  | accounts => exact ⟨congrArg Answer.accounts h.accounts_eq, h⟩
  | deleteAccount username =>
      obtain ⟨credentials, accounts, directories, sessions⟩ := h
      exact ⟨rfl, .intro credentials (accounts.erase username) directories sessions⟩
  | createAccount credential account directory => exact h.createAccount proper
  | session tokenHash => exact ⟨congrArg Answer.session (congrFun knownSession tokenHash), h⟩
  | deleteSession tokenHash =>
      obtain ⟨credentials, accounts, directories, sessions⟩ := h
      have others := sessions.filter_sessions fun s => s.tokenHash != tokenHash
      rw [← sessions.erase_eq] at others
      exact ⟨rfl, .intro credentials accounts directories others⟩
  | deleteSessionsFor username =>
      obtain ⟨credentials, accounts, directories, sessions⟩ := h
      have others := sessions.filter_sessions fun s => s.username != username
      exact ⟨rfl, .intro credentials accounts directories others⟩
  | replaceSession session => exact h.replaceSession proper
  | workingDirectory username =>
      exact ⟨congrArg Answer.workingDirectory (congrFun knownDirectory username), h⟩
  | putWorkingDirectory directory =>
      obtain ⟨credentials, accounts, directories, sessions⟩ := h
      have directories := directories.insert (perm_put _ directories.unique directory)
      refine ⟨?_, ?_⟩ <;> simp only [Registry.perform, Registry.putWorkingDirectory,
        transaction_upsertWorkingDirectory]
      exact .intro credentials accounts directories sessions
  | deleteWorkingDirectory username =>
      obtain ⟨credentials, accounts, directories, sessions⟩ := h
      exact ⟨rfl, .intro credentials accounts (directories.erase username) sessions⟩

/-! ## Any number of calls -/

theorem Paired.answers_eq (h : Paired r r') {ops : List Operation} (proper : r.ProperRun ops) :
    r.answers ops = r'.answers ops := by
  induction ops generalizing r r' with
  | nil => rfl
  | cons op ops ih =>
      have step := h.perform proper.1
      rw [answers, answers, step.answer, ih step.paired proper.2]

theorem Paired.after (h : Paired r r') {ops before : List Operation} (proper : r.ProperRun ops)
    (part : before <+: ops) : Paired (r.after before) (r'.after before) := by
  induction before generalizing r r' ops with
  | nil => exact h
  | cons op before ih =>
      obtain ⟨rest, rfl⟩ := part
      exact ih (h.perform proper.1).paired proper.2 ⟨rest, rfl⟩

theorem Paired.pairwise_answers (h : Paired r r') {ops : List Operation} (proper : r.ProperRun ops)
    {all : List Account} (hm : .accounts all ∈ r.answers ops) :
    all.Pairwise fun a b => Bytes.ofText a.username < Bytes.ofText b.username := by
  induction ops generalizing r r' with
  | nil => cases hm
  | cons op ops ih =>
      rcases List.mem_cons.mp hm with he | hm
      · cases op with
        | accounts =>
            cases he
            exact h.pairwise_accounts
        | _ => cases he
      · exact ih (h.perform proper.1).paired proper.2 hm

/-- Proper calls, however many, are answered alike by maps and by tables that start empty, and the two
hold the same rows and the same record for each key after each call.  Accounts are listed in the order of
the bytes of their usernames. -/
theorem maps_interchange_tables (ops : List Operation)
    (proper : (Registry.maps .empty).ProperRun ops) :
    (Registry.maps .empty).answers ops = (Registry.tables .empty).answers ops ∧
    (∀ before, before <+: ops →
      ((Registry.maps .empty).after before).rows = ((Registry.tables .empty).after before).rows ∧
      ((Registry.maps .empty).after before).records =
        ((Registry.tables .empty).after before).records) ∧
    ∀ all, .accounts all ∈ (Registry.tables .empty).answers ops →
      all.Pairwise fun a b => Bytes.ofText a.username < Bytes.ofText b.username := by
  have same := Paired.empty.answers_eq proper
  refine ⟨same, fun before part => ?_, fun all hm => ?_⟩
  · have paired := Paired.empty.after proper part
    exact ⟨paired.rows_eq, paired.records_eq⟩
  · exact Paired.empty.pairwise_answers proper (same ▸ hm)

/-- Two users, a name that is taken, and a session that never ends; then an account is removed while its
credential stays. -/
def sampleCalls : List Operation :=
  [.createAccount ⟨"bob", "00", "aa"⟩ ⟨"bob", "r0"⟩ ⟨"bob", "/r0"⟩,
    .createAccount ⟨"ada", "11", "bb"⟩ ⟨"ada", "r1"⟩ ⟨"ada", "/r1"⟩,
    .createAccount ⟨"bob", "22", "cc"⟩ ⟨"bob", "r0"⟩ ⟨"bob", "/r2"⟩,
    .accounts,
    .replaceSession ⟨"h", "bob", 18446744073709551615⟩,
    .session "h",
    .deleteAccount "bob",
    .createAccount ⟨"bob", "33", "dd"⟩ ⟨"bob", "r0"⟩ ⟨"bob", "/r3"⟩,
    .workingDirectory "bob"]

theorem maps_interchange_tables_sample :
    (Registry.maps .empty).ProperRun sampleCalls ∧
      (Registry.maps .empty).answers sampleCalls =
        [.outcome (.ok ()), .outcome (.ok ()), .outcome (.error (.duplicate "bob")),
          .accounts [⟨"ada", "r1"⟩, ⟨"bob", "r0"⟩], .outcome (.ok ()),
          .session (some ⟨"h", "bob", 18446744073709551615⟩), .outcome (.ok ()),
          .outcome (.error (.duplicate "bob")), .workingDirectory (some ⟨"bob", "/r0"⟩)] := by
  have proper : (Registry.maps .empty).ProperRun sampleCalls := by
    exact ⟨⟨rfl, rfl, by decide⟩, ⟨rfl, rfl, by decide⟩, ⟨rfl, rfl, by decide⟩, trivial,
      fun _ hm => (List.not_mem_nil hm).elim, trivial, trivial, ⟨rfl, rfl, by decide⟩, trivial, trivial⟩
  have sorted : Account.sort [⟨"bob", "r0"⟩, ⟨"ada", "r1"⟩] = [⟨"ada", "r1"⟩, ⟨"bob", "r0"⟩] :=
    (Bytes.mergeSort_eq_of_perm Account.username (by decide) (.swap ..)).trans
      (List.mergeSort_of_pairwise (by decide))
  refine ⟨proper, (maps_interchange_tables sampleCalls proper).1.trans ?_⟩
  rw [← sorted]
  rfl

end Strongroom.Registry
