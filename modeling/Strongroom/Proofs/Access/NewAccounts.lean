import Strongroom.Proofs.FileTree.Places
import Strongroom.Proofs.Registry.UserRows
import Strongroom.Proofs.Vault.Actions
/-!
# New accounts

Whatever records and directories are left over from before, an account is made exactly if its name and its
password are within the rules, the name is free, and the root directory that is drawn for it can be made.
Then the records and the directory are there and nothing else is changed; otherwise nothing is changed at
all, and the first condition that does not hold is reported.
-/

namespace Strongroom

open FileTree Registry

/-- The name of the root directory that the next account is given. -/
def Vault.nextRootId (v : Vault) : String :=
  v.entropy.salt.2.rootId.1

/-- The place of that directory. -/
def Vault.nextRoot (v : Vault) : Path :=
  v.rootPath v.nextRootId

/-- The credential of the next account. -/
def Vault.nextCredential (v : Vault) (user password : String) : Credential :=
  ⟨user, v.entropy.salt.1, hashPassword password v.entropy.salt.1⟩

namespace Credentials

/-! ## Rules -/

/-- A username within the rules. -/
structure Legal (limits : Limits) (user : String) : Prop where
  nonempty : user ≠ ""
  short : user.utf8ByteSize ≤ limits.maxUsernameLength.toNat
  shown : ∀ c ∈ user.toList, Text.isBlank c = false ∧ Text.isControl c = false ∧ c ≠ '/'

/-- A password within the rules. -/
structure Strong (password : String) : Prop where
  digit : ∃ c ∈ password.toList, c.isDigit = true
  lower : ∃ c ∈ password.toList, c.isLower = true
  upper : ∃ c ∈ password.toList, c.isUpper = true

theorem checkUsername_cases (limits : Limits) (user : String) :
    (checkUsername limits.maxUsernameLength user = .ok () ∧ Legal limits user) ∨
      ∃ reason, checkUsername limits.maxUsernameLength user = .error (.invalidUsername reason) ∧
        ¬ Legal limits user := by
  unfold checkUsername
  by_cases empty : user = ""
  · exact .inr ⟨_, if_pos empty, fun legal => legal.nonempty empty⟩
  rw [if_neg empty]
  by_cases long : limits.maxUsernameLength.toNat < user.utf8ByteSize
  · exact .inr ⟨_, if_pos long, fun legal => absurd long (Nat.not_lt.mpr legal.short)⟩
  rw [if_neg long]
  have all : user.toList.all allowedInUsername = true ↔
      ∀ c ∈ user.toList, Text.isBlank c = false ∧ Text.isControl c = false ∧ c ≠ '/' := by
    simp [allowedInUsername, and_assoc]
  by_cases shown : user.toList.all allowedInUsername = true
  · exact .inl ⟨if_pos shown, empty, Nat.not_lt.mp long, all.mp shown⟩
  · exact .inr ⟨_, if_neg shown, fun legal => shown (all.mpr legal.shown)⟩

theorem checkPassword_cases (password : String) :
    (checkPassword password = .ok () ∧ Strong password) ∨
      ∃ reason, checkPassword password = .error (.weakPassword reason) ∧ ¬ Strong password := by
  unfold checkPassword
  cases digit : password.toList.any Char.isDigit with
  | false => exact .inr ⟨_, rfl, fun strong => by simpa [digit] using List.any_eq_true.mpr strong.digit⟩
  | true =>
      cases lower : password.toList.any Char.isLower with
      | false =>
          exact .inr ⟨_, rfl, fun strong => by simpa [lower] using List.any_eq_true.mpr strong.lower⟩
      | true =>
          cases upper : password.toList.any Char.isUpper with
          | false =>
              exact .inr ⟨_, rfl, fun strong => by simpa [upper] using List.any_eq_true.mpr strong.upper⟩
          | true =>
              exact .inl ⟨rfl, List.any_eq_true.mp digit, List.any_eq_true.mp lower,
                List.any_eq_true.mp upper⟩

/-! ## Outcomes -/

/-- What has to hold for an account to be made. -/
structure Admits (v : Vault) (user password : String) : Prop where
  legal : Legal v.quota.limits user
  noCredential : v.registry.credential? user = none
  noAccount : v.registry.account? user = none
  strong : Strong password
  directory : ∃ tree, v.tree.makeDirectory v.nextRoot = .ok tree
  noRoot : ∀ t, v.registry = .tables t → ∀ row ∈ t.accounts, row.rootId ≠ v.nextRootId

/-- Why no account is made: the first condition that does not hold. -/
inductive Refusal (v : Vault) (user password : String) : Failure → Prop
  | username (reason : String) (illegal : ¬ Legal v.quota.limits user) :
      Refusal v user password (.validation (.invalidUsername reason))
  | known (legal : Legal v.quota.limits user) (known : v.registry.credential? user ≠ none) :
      Refusal v user password (.conflict s!"username {user} already exists")
  | password (reason : String) (legal : Legal v.quota.limits user)
      (noCredential : v.registry.credential? user = none) (weak : ¬ Strong password) :
      Refusal v user password (.validation (.weakPassword reason))
  | directory (fault : HostFault) (legal : Legal v.quota.limits user)
      (noCredential : v.registry.credential? user = none) (strong : Strong password)
      (refused : v.tree.makeDirectory v.nextRoot = .error fault) :
      Refusal v user password (.storage (.host fault))
  | records {tree : FileTree} (legal : Legal v.quota.limits user)
      (noCredential : v.registry.credential? user = none) (strong : Strong password)
      (made : v.tree.makeDirectory v.nextRoot = .ok tree)
      (taken : v.registry.account? user ≠ none ∨
        ∃ t, v.registry = .tables t ∧ ∃ row ∈ t.accounts, row.rootId = v.nextRootId) :
      Refusal v user password (.conflict user)

/-- The vault with one account more: its three records, its root directory, and nothing else. -/
structure Enrolled (v : Vault) (user password : String) (v' : Vault) : Prop where
  tidy : v'.registry.Tidy
  rows : v'.registry.rows = v.registry.rows.enter (v.nextCredential user password)
    ⟨user, v.nextRootId⟩ ⟨user, v.nextRoot.text⟩
  directory : ∃ place, v.tree.place? v.nextRoot = some place ∧ v.tree.get? place = none ∧
    v.tree.Changed place (some .directory) v'.tree ∧ v'.tree.openDirectory v.nextRoot = .ok place ∧
    v'.tree.children place = []
  rest : v' = { v with tree := v'.tree, registry := v'.registry, entropy := v'.entropy }
  accepts : (verify user password).runOn v' = (.ok (), v')

theorem Refusal.not_admits {v : Vault} {user password : String} {failure : Failure}
    (h : Refusal v user password failure) : ¬ Admits v user password := by
  intro admits
  cases h with
  | username _ illegal => exact illegal admits.legal
  | known _ known => exact known admits.noCredential
  | password _ _ _ weak => exact weak admits.strong
  | directory _ _ _ _ refused =>
      obtain ⟨tree, made⟩ := admits.directory
      rw [refused] at made
      cases made
  | records _ _ _ _ taken =>
      rcases taken with known | ⟨t, tables, row, mem, same⟩
      · exact known admits.noAccount
      · exact admits.noRoot t tables row mem same

/-- A credential is accepted with the password that it was made for. -/
theorem verify_of_credential {v : Vault} {user password salt : String}
    (found : v.registry.credential? user = some ⟨user, salt, hashPassword password salt⟩) :
    (verify user password).runOn v = (.ok (), v) := by
  rw [runOn_verify, found]
  exact if_pos rfl

section

variable {v : Vault} (user password : String)

/-- An account is made with all that belongs to it, or nothing is changed and the reason is told. -/
theorem createAccount_outcome (tidy : v.registry.Tidy) (grounded : v.tree.Grounded) :
    (∃ failure entropy, (createAccount user password).runOn v = (.error failure, { v with entropy }) ∧
      Refusal v user password failure) ∨
    ∃ v', (createAccount user password).runOn v = (.ok v.nextRootId, v') ∧ Admits v user password ∧
      Enrolled v user password v' := by
  rcases checkUsername_cases v.quota.limits user with ⟨named, legal⟩ | ⟨reason, named, illegal⟩
  case inr =>
    refine .inl ⟨_, v.entropy, ?_, .username reason illegal⟩
    simp [createAccount, named]
  rcases free : v.registry.credential? user with - | credential
  case some =>
    refine .inl ⟨_, v.entropy, ?_, .known legal (by simp [free])⟩
    simp [createAccount, named, refuseTaken, free]
  rcases checkPassword_cases password with ⟨checked, strong⟩ | ⟨reason, checked, weak⟩
  case inr =>
    refine .inl ⟨_, v.entropy, ?_, .password reason legal free weak⟩
    simp [createAccount, named, refuseTaken, free, checked]
  have root (tree : FileTree) (registry : Registry) (entropy : Entropy) :
    Vault.rootPath { v with tree, registry, entropy } v.entropy.salt.2.rootId.1 = v.nextRoot := rfl
  cases made : v.tree.makeDirectory v.nextRoot with
  | error fault =>
      refine .inl ⟨_, v.entropy.salt.2.rootId.2, ?_, .directory fault legal free strong made⟩
      simp [createAccount, named, refuseTaken, free, checked, makeRoot, Action.orElseSame, root, made,
        HostFault.toFailure]
  | ok tree =>
      rcases tidy.createAccount_cases (v.nextCredential user password) ⟨user, v.nextRootId⟩
        ⟨user, v.nextRoot.text⟩ with ⟨name, refused, same, taken⟩ | ⟨after, entered, vacant, tidy', rows⟩
      · have back : tree.removeDirectory v.nextRoot = .ok v.tree :=
          removeDirectory_of_makeDirectory grounded made
        obtain rfl : name = user := same.elim id id
        refine .inl ⟨_, v.entropy.salt.2.rootId.2, ?_, .records legal free strong made ?_⟩
        · simp only [Vault.nextCredential, Vault.nextRootId] at refused
          simp [createAccount, named, refuseTaken, free, checked, makeRoot, Action.orElseSame, root, made,
            enter, refused, dropRoot, back, RegistryFailure.toFailure]
        · by_contra untaken
          push Not at untaken
          exact taken ⟨free, untaken.1, untaken.2⟩
      · have mem : v.nextCredential user password ∈ after.rows.credentials := by
          rw [rows]
          exact Multiset.mem_cons_self _ _
        have found : after.credential? user = some (v.nextCredential user password) :=
          tidy'.credential?_of_mem mem
        refine .inr ⟨{ v with tree, registry := after, entropy := v.entropy.salt.2.rootId.2 }, ?_,
          ⟨legal, free, vacant.noAccount, strong, ⟨tree, made⟩, vacant.noRoot⟩,
          ⟨tidy', rows, grounded.makeDirectory_changed made, rfl, verify_of_credential found⟩⟩
        simp only [Vault.nextCredential, Vault.nextRootId] at entered
        simp [createAccount, named, refuseTaken, free, checked, makeRoot, Action.orElseSame, root, made,
          enter, entered, Vault.nextRootId]

end

/-- Making an account is exact, and all or nothing.  From any records and on any host, it succeeds exactly
if the name and the password are within the rules, the name has neither a credential nor an account, the
root directory that is drawn can be made where nothing stands, and, in tables, no other account has its
name.  Then the three records and an empty root directory are new and the password is accepted, and the
rest is as it was.  Otherwise all records and the whole tree are as they were, and the first of the
conditions that does not hold is reported. -/
theorem createAccount_all_or_nothing (v : Vault) (tidy : v.registry.Tidy) (grounded : v.tree.Grounded)
    (user password : String) :
    ((∃ rootId, ((createAccount user password).runOn v).1 = .ok rootId) ↔ Admits v user password) ∧
    (∀ rootId v', (createAccount user password).runOn v = (.ok rootId, v') →
      rootId = v.nextRootId ∧ Enrolled v user password v') ∧
    ∀ failure v', (createAccount user password).runOn v = (.error failure, v') →
      Refusal v user password failure ∧ ∃ entropy, v' = { v with entropy } := by
  rcases createAccount_outcome user password tidy grounded with
    ⟨failure, entropy, refused, reason⟩ | ⟨after, made, admits, enrolled⟩
  · rw [refused]
    refine ⟨⟨nofun, fun admits => absurd admits reason.not_admits⟩, nofun, ?_⟩
    rintro _ _ ⟨⟩
    exact ⟨reason, entropy, rfl⟩
  · rw [made]
    refine ⟨⟨fun _ => admits, fun _ => ⟨_, rfl⟩⟩, ?_, nofun⟩
    rintro _ _ ⟨⟩
    exact ⟨rfl, enrolled⟩

/-- Of an earlier user the account is left over and not the credential. -/
def sampleOrphan : Vault :=
  .sample (.tables ⟨[], [⟨"ada", "r0"⟩], [], []⟩)

/-- The directory that was made for a user who already has an account is gone again. -/
theorem createAccount_all_or_nothing_orphan :
    sampleOrphan.registry.Tidy ∧ sampleOrphan.tree.Grounded ∧
      (∃ tree, sampleOrphan.tree.makeDirectory sampleOrphan.nextRoot = .ok tree) ∧
      ∃ v', (createAccount "ada" "Passw0rd").runOn sampleOrphan = (.error (.conflict "ada"), v') ∧
        v'.registry = sampleOrphan.registry ∧ v'.tree = sampleOrphan.tree := by
  have tidy : sampleOrphan.registry.Tidy := ⟨nofun, by decide, by decide, by decide, by decide⟩
  have grounded : sampleOrphan.tree.Grounded := grounded_of_entries (by decide)
  have makes : ∃ tree, sampleOrphan.tree.makeDirectory sampleOrphan.nextRoot = .ok tree :=
    ⟨⟨[(["r1011121314151617", "vault"], .directory), (["vault"], .directory)]⟩, by decide +kernel⟩
  obtain ⟨-, -, refusals⟩ := createAccount_all_or_nothing sampleOrphan tidy grounded "ada" "Passw0rd"
  have outcome : ((createAccount "ada" "Passw0rd").runOn sampleOrphan).1 = .error (.conflict "ada") := by
    decide +kernel
  refine ⟨tidy, grounded, makes, _, Prod.ext outcome rfl, ?_⟩
  obtain ⟨-, entropy, same⟩ := refusals _ _ (Prod.ext outcome rfl)
  rw [same]
  exact ⟨rfl, rfl⟩

end Credentials

end Strongroom
