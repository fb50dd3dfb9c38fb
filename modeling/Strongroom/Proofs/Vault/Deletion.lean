import Strongroom.Proofs.Access.NewAccounts
import Strongroom.Proofs.FileTree.Removal
import Strongroom.Proofs.Quota
import Strongroom.Proofs.Vault.Runs
/-!
# Giving up an account

Whatever is left of a user's records and of the root directory, giving up the account takes all of it away
and nothing that is another user's.  If the root directory cannot be removed, the records are gone all the
same; after a success the name can be used again.
-/

namespace Strongroom

open FileTree Strongroom.Path Registry Sessions

namespace Accounts

/-! ## The root directory -/

variable {root : Path} {t : FileTree}

theorem removeAllOf_snd : (removeAllOf root t).2 = (t.removeAll root).2 := by
  unfold removeAllOf
  split
  · rename_i missing
    rw [missing]
  · rfl

theorem removeAllOf_eq_ok :
    (removeAllOf root t).1 = .ok () ↔
      (t.removeAll root).1 = .ok () ∨ (t.removeAll root).1 = .error .noEntry := by
  unfold removeAllOf
  split
  · rename_i missing
    simp [missing]
  · rename_i other
    refine ⟨.inl, fun done => done.resolve_right fun missing => ?_⟩
    exact other _ (Prod.ext missing rfl)

theorem removeAllOf_eq_error {fault : HostFault} :
    (removeAllOf root t).1 = .error fault ↔
      (t.removeAll root).1 = .error fault ∧ fault ≠ .noEntry := by
  unfold removeAllOf
  split
  · rename_i missing
    simp only [missing, reduceCtorEq, Except.error.injEq, false_iff, not_and, not_not]
    exact Eq.symm
  · rename_i other
    refine ⟨fun refused => ⟨refused, ?_⟩, And.left⟩
    rintro rfl
    exact other _ (Prod.ext refused rfl)

end Accounts

/-! ## What is left -/

namespace Vault

/-- What stands at or below the root directory of a user. -/
def Owns (v : Vault) (user : String) (location : Location) : Prop :=
  ∃ account directory, v.registry.account? user = some account ∧
    v.tree.openDirectory v.storageRoot = .ok directory ∧ account.rootId :: directory <:+ location

/-- The host removes the root directory of an account, or it is missing. -/
def Clears (v : Vault) (account : Account) : Prop :=
  (v.tree.removeAll (v.rootPath account.rootId)).1 = .ok () ∨
    (v.tree.removeAll (v.rootPath account.rootId)).1 = .error .noEntry

/-- Another vault with nothing left of a user, and the rest as it is. -/
structure Forgets (v : Vault) (user : String) (v' : Vault) : Prop where
  tidy : v'.registry.Tidy
  rows : v'.registry.rows = v.registry.rows.without user
  tokens : ∀ token session, presented token ≠ "" →
    v.registry.session? (hashToken (presented token)) = some session → session.username = user →
    ((authorize token).runOn v').1 = .error (.authentication .invalidToken)
  gone : ∀ account, v.registry.account? user = some account → v.Clears account →
    v'.tree.locate false (v.rootPath account.rootId) = .error .noEntry ∧
      ∀ directory, v.tree.openDirectory v.storageRoot = .ok directory →
        ∀ location, isBelow (account.rootId :: directory) location = true → v'.tree.get? location = none
  elsewhere : ∀ location, ¬ v.Owns user location → v'.tree.get? location = v.tree.get? location
  others : ∀ other location, other ≠ user → v.Owns other location →
    v'.tree.get? location = v.tree.get? location
  grounded : v'.tree.Grounded
  rest : v' = { v with tree := v'.tree, registry := v'.registry }

theorem Forgets.vacant {v v' : Vault} {user : String} (h : v.Forgets user v') :
    v'.registry.credential? user = none ∧ v'.registry.account? user = none := by
  rw [h.tidy.credential?_eq_none, h.tidy.account?_eq_none, h.rows]
  exact ⟨fun row mem => (Multiset.mem_filter.mp mem).2, fun row mem => (Multiset.mem_filter.mp mem).2⟩

/-- The storage root is at a plain path, and so is the root directory of a user, which is no one else's. -/
structure Apart (v : Vault) (top : Location) (user : String) : Prop where
  storage : v.storageRoot = pathTo top
  plain : ∀ name ∈ top, IsPlain name
  root : ∀ account, v.registry.account? user = some account → IsPlain account.rootId
  alone : ∀ other mine theirs, v.registry.account? user = some mine →
    v.registry.account? other = some theirs → theirs.rootId = mine.rootId → other = user

variable {v : Vault} {top : Location} {user : String}

/-- No location is in the root directories of two users. -/
theorem Apart.not_owns (h : v.Apart top user) {other : String} {location : Location} (away : other ≠ user)
    (theirs : v.Owns other location) : ¬ v.Owns user location := by
  rintro ⟨account, directory, known, opened, within⟩
  obtain ⟨account', directory', known', opened', within'⟩ := theirs
  obtain rfl := Except.ok.inj (opened.symm.trans opened')
  have level : account.rootId :: directory = account'.rootId :: directory := by
    rcases List.suffix_or_suffix_of_suffix within within' with inside | inside
    · exact inside.eq_of_length (by simp)
    · exact (inside.eq_of_length (by simp)).symm
  exact away (h.alone other account account' known known' (List.cons.inj level).1.symm)

theorem Apart.removes (h : v.Apart top user) {account : Account}
    (known : v.registry.account? user = some account) :
    v.tree.Removes top account.rootId (v.tree.removeAll (v.rootPath account.rootId)) := by
  rw [Vault.rootPath_eq h.storage h.plain (h.root account known)]
  exact removeAll_cases (List.forall_mem_cons.mpr ⟨h.root account known, h.plain⟩) v.tree

/-- The records of the user are gone, and with them the tokens. -/
theorem authorize_forgetting (sound : v.registry.Sound) {token : String} {session : Session}
    {tree : FileTree} (given : presented token ≠ "")
    (found : v.registry.session? (hashToken (presented token)) = some session)
    (own : session.username = user) :
    ((authorize token).runOn { v with tree, registry := v.forgetting user }).1 =
      .error (.authentication .invalidToken) := by
  have gone : (v.forgetting user).session? (hashToken (presented token)) = none := by
    refine (congrFun (congrArg Records.session? (records_forgetting sound user)) _).trans ?_
    simp [found, own, Option.filter]
  rw [runOn_authorize, if_neg given]
  simp only [gone]

theorem tidy_forgetting (tidy : v.registry.Tidy) (user : String) : (v.forgetting user).Tidy :=
  (((tidy.deleteSessionsFor user).deleteCredential user).deleteAccount user).deleteWorkingDirectory user

theorem Apart.forgets (h : v.Apart top user) (tidy : v.registry.Tidy) (grounded : v.tree.Grounded) :
    v.Forgets user { v with
      tree := match v.registry.account? user with
        | none => v.tree
        | some account => (v.tree.removeAll (v.rootPath account.rootId)).2
      registry := v.forgetting user } := by
  have elsewhere (location : Location) (outside : ¬ v.Owns user location) :
      (match v.registry.account? user with
        | none => v.tree
        | some account => (v.tree.removeAll (v.rootPath account.rootId)).2).get? location =
          v.tree.get? location := by
    cases known : v.registry.account? user with
    | none => rfl
    | some account =>
        refine (h.removes known).elsewhere
          (List.forall_mem_cons.mpr ⟨h.root account known, h.plain⟩) fun directory opened within => ?_
        exact outside ⟨account, directory, known, h.storage ▸ opened, within⟩
  refine ⟨tidy_forgetting tidy user, tidy.rows_forget user, fun _ _ given found own =>
    authorize_forgetting tidy.sound given found own, fun account known clears => ?_, elsewhere,
    fun other location away theirs => elsewhere location (h.not_owns away theirs), ?_, rfl⟩
  · have gone := (h.removes known).gone
      (List.forall_mem_cons.mpr ⟨h.root account known, h.plain⟩) grounded clears
    rw [← h.storage, ← Vault.rootPath_eq h.storage h.plain (h.root account known)] at gone
    simpa only [known] using gone
  · cases known : v.registry.account? user with
    | none => exact grounded
    | some account => exact (h.removes known).grounded grounded

end Vault

namespace Accounts

variable {v : Vault} {top : Location} {token user : String}

/-- The name of a user of whom no record is left can be used again. -/
theorem signup_of_vacant (tidy : v.registry.Tidy) (grounded : v.tree.Grounded)
    (noCredential : v.registry.credential? user = none) (noAccount : v.registry.account? user = none)
    (unused : ∀ row ∈ v.registry.rows.accounts, row.rootId ≠ v.nextRootId) (password : String) :
    (∀ key, ((signup user password).runOn v).1 ≠ .error (.conflict key)) ∧
      ∀ v', (signup user password).runOn v = (.ok (), v') →
        ∃ account, v'.registry.account? user = some account ∧
          v'.tree.readDirectory (v'.rootPath account.rootId) = .ok [] := by
  cases checked : v.quota.checkAggregate v.tree (roots v) with
  | error failure =>
      have refused : (signup user password).runOn v = (.error failure, v) := by simp [signup, checked]
      rw [refused]
      refine ⟨?_, fun _ done => by cases done⟩
      rintro key ⟨⟩
      exact Quota.checkAggregate_ne_conflict _ _ _ key checked
  | ok _ =>
      have goes : (signup user password).runOn v =
          (((Credentials.createAccount user password).runOn v).1.map fun _ => (),
            ((Credentials.createAccount user password).runOn v).2) := by
        simp only [signup, Action.runOn_bind, Action.runOn_check, checked, Action.runOn_pure]
        cases (Credentials.createAccount user password).runOn v with
        | mk outcome after => cases outcome <;> rfl
      rcases Credentials.createAccount_outcome user password tidy grounded with
        ⟨failure, entropy, refused, reason⟩ | ⟨after, made, admits, enrolled⟩
      · rw [goes, refused]
        refine ⟨?_, fun _ done => by cases done⟩
        rintro key ⟨⟩
        cases reason with
        | known legal known => exact known noCredential
        | records legal free strong made taken =>
            rcases taken with known | ⟨t, tables, row, mem, same⟩
            · exact known noAccount
            · refine unused row ?_ same
              rw [tables]
              exact mem
      · rw [goes, made]
        refine ⟨fun _ failed => (by cases failed), ?_⟩
        rintro _ ⟨⟩
        obtain ⟨place, -, -, -, opened, empty⟩ := enrolled.directory
        have mem : (⟨user, v.nextRootId⟩ : Account) ∈ after.registry.rows.accounts := by
          rw [enrolled.rows]
          exact Multiset.mem_cons_self _ _
        have same : after.rootPath v.nextRootId = v.nextRoot := by
          rw [enrolled.rest]
          rfl
        refine ⟨_, enrolled.tidy.account?_of_mem mem, ?_⟩
        rw [readDirectory, same, opened]
        exact congrArg Except.ok empty

/-- Giving up an account is complete, and confined to its user, whatever is left of the user's records and
of the root directory.  All rows of the user are gone, the tokens are invalid, and the root directory is
gone if it could be removed; other rows and what stands outside of it stay as they are.  It succeeds exactly
if there was an account whose root directory could be removed or was missing, and reports otherwise that
there was none or why it could not be removed.  After a success the name is not taken, and a new account of
it has an empty root directory. -/
theorem deleteAccount_complete (apart : v.Apart top user) (tidy : v.registry.Tidy)
    (grounded : v.tree.Grounded) (authorized : ((authorize token).runOn v).1 = .ok user)
    {outcome : Except Failure Unit} {v' : Vault} (run : (deleteAccount token).runOn v = (outcome, v')) :
    v.Forgets user v' ∧
    (outcome = .ok () ↔ ∃ account, v.registry.account? user = some account ∧ v.Clears account) ∧
    (v.registry.account? user = none →
      outcome = .error (.notFound s!"could not find root for {user}") ∧ v'.tree = v.tree) ∧
    (∀ account fault, v.registry.account? user = some account →
      (v.tree.removeAll (v.rootPath account.rootId)).1 = .error fault → fault ≠ .noEntry →
      outcome = .error (.storage (.host fault)) ∧ v'.tree = v.tree) ∧
    (outcome = .ok () → ∀ w : Vault, w.registry = v'.registry → w.tree = v'.tree →
      (∀ row ∈ w.registry.rows.accounts, row.rootId ≠ w.nextRootId) → ∀ password,
      (∀ key, ((signup user password).runOn w).1 ≠ .error (.conflict key)) ∧
      ∀ w', (signup user password).runOn w = (.ok (), w') →
        ∃ account, w'.registry.account? user = some account ∧
          w'.tree.readDirectory (w'.rootPath account.rootId) = .ok []) := by
  have accepted : (authorize token).runOn v = (.ok user, v) := by
    rcases authorize_cases token v with ⟨cause, -, refused⟩ | ⟨session, -, -, refused⟩ | ⟨session, -, found⟩
    · rw [refused] at authorized
      cases authorized
    · rw [refused] at authorized
      cases authorized
    · rw [found] at authorized ⊢
      exact Except.ok.inj authorized ▸ rfl
  have forgets : v.Forgets user v' := by
    have all := apart.forgets tidy grounded
    rw [runOn_deleteAccount accepted] at run
    cases known : v.registry.account? user with
    | none =>
        simp only [known] at run all
        exact (Prod.mk.inj run).2 ▸ all
    | some account =>
        simp only [known, removeAllOf_snd] at run all
        exact (Prod.mk.inj run).2 ▸ all
  rw [runOn_deleteAccount accepted] at run
  refine ⟨forgets, ?_, fun none => ?_, fun account fault known refused other => ?_,
    fun _ w registry tree unused password => ?_⟩
  · cases known : v.registry.account? user with
    | none =>
        rw [known] at run
        obtain ⟨rfl, -⟩ := Prod.mk.inj run
        simp
    | some account =>
        rw [known] at run
        obtain ⟨rfl, -⟩ := Prod.mk.inj run
        have same : (removeAllOf (v.rootPath account.rootId) v.tree).1.mapError HostFault.toFailure =
            .ok () ↔ (removeAllOf (v.rootPath account.rootId) v.tree).1 = .ok () := by
          cases (removeAllOf (v.rootPath account.rootId) v.tree).1 <;> simp
        rw [same, removeAllOf_eq_ok]
        constructor
        · intro clears
          exact ⟨account, rfl, clears⟩
        · rintro ⟨_, ⟨⟩, clears⟩
          exact clears
  · rw [none] at run
    obtain ⟨rfl, rfl⟩ := Prod.mk.inj run
    exact ⟨rfl, rfl⟩
  · rw [known] at run
    obtain ⟨rfl, rfl⟩ := Prod.mk.inj run
    have stays := (apart.removes known).eq_of_refused refused other
    simp only [removeAllOf_eq_error.mpr ⟨refused, other⟩, removeAllOf_snd]
    exact ⟨rfl, stays⟩
  · have vacant := forgets.vacant
    rw [← registry] at vacant
    exact signup_of_vacant (registry ▸ forgets.tidy) (tree ▸ forgets.grounded) vacant.1 vacant.2 unused
      password

/-- One of two users has no credential any more, but still an account, a token and a root directory. -/
def sampleLeft : Vault :=
  { Vault.sample (.tables ⟨[⟨"bob", "00", "ff"⟩], [⟨"ada", "r0"⟩, ⟨"bob", "r1"⟩],
      [⟨"bob", "/vault/r1"⟩], [.ofSession ⟨hashToken "t", "ada", 5⟩]⟩) with
    tree := ⟨[(["vault"], .directory), (["r0", "vault"], .directory),
      (["note", "r0", "vault"], .file [1]), (["r1", "vault"], .directory)]⟩ }

/-- The user is gone with everything below the root directory, and the other one stays. -/
theorem deleteAccount_complete_left :
    sampleLeft.Apart ["vault"] "ada" ∧ sampleLeft.registry.Tidy ∧ sampleLeft.tree.Grounded ∧
      ((authorize "t").runOn sampleLeft).1 = .ok "ada" ∧
      ∃ v', (deleteAccount "t").runOn sampleLeft = (.ok (), v') ∧ sampleLeft.Forgets "ada" v' ∧
        v'.tree.get? ["note", "r0", "vault"] = none ∧ v'.tree.get? ["r1", "vault"] = some .directory := by
  have opened : sampleLeft.tree.openDirectory sampleLeft.storageRoot = .ok ["vault"] := by decide +kernel
  have apart : sampleLeft.Apart ["vault"] "ada" := by
    have ada : sampleLeft.registry.account? "ada" = some ⟨"ada", "r0"⟩ := by decide
    refine ⟨by decide, ?_, fun account known => ?_, fun other mine theirs known found same => ?_⟩
    · exact List.forall_mem_singleton.mpr ⟨by decide, by decide, by decide, by decide⟩
    · obtain rfl := Option.some.inj (ada.symm.trans known)
      exact ⟨by decide, by decide, by decide, by decide⟩
    · obtain rfl := Option.some.inj (ada.symm.trans known)
      have found : [(⟨"ada", "r0"⟩ : Account), ⟨"bob", "r1"⟩].find? (fun row => row.username == other) =
          some theirs := found
      obtain rfl : theirs.username = other := by simpa using List.find?_some found
      have mem := List.mem_of_find?_eq_some found
      simp only [List.mem_cons, List.not_mem_nil, or_false] at mem
      rcases mem with rfl | rfl
      · rfl
      · exact absurd same (by decide)
  have tidy : sampleLeft.registry.Tidy :=
    ⟨nofun, by decide, by decide, by decide, Multiset.nodup_singleton _⟩
  have grounded : sampleLeft.tree.Grounded := grounded_of_entries (by decide)
  have authorized : ((authorize "t").runOn sampleLeft).1 = .ok "ada" := by decide +kernel
  have ok : ((deleteAccount "t").runOn sampleLeft).1 = .ok () := by decide +kernel
  generalize run : (deleteAccount "t").runOn sampleLeft = result at ok
  obtain ⟨outcome, v'⟩ := result
  obtain rfl : outcome = .ok () := ok
  obtain ⟨forgets, done, -⟩ := deleteAccount_complete apart tidy grounded authorized run
  obtain ⟨account, known, clears⟩ := done.mp rfl
  obtain rfl : account = ⟨"ada", "r0"⟩ := Option.some.inj (known.symm.trans (by decide))
  have gone := (forgets.gone _ known clears).2 ["vault"] opened ["note", "r0", "vault"] (by decide)
  have stays := forgets.others "bob" ["r1", "vault"] (by decide)
    ⟨⟨"bob", "r1"⟩, ["vault"], by decide, opened, List.suffix_refl _⟩
  exact ⟨apart, tidy, grounded, authorized, v', rfl, forgets, gone, stays.trans (by decide)⟩

end Accounts

end Strongroom
