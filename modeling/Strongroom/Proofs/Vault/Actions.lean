import Strongroom.Proofs.Bytes.Digests
import Strongroom.Proofs.Registry.Records
import Strongroom.Vault.Dispatch
/-!
# What actions do

The outcome of each step of an action and what it leaves of the vault, and from these the outcomes
of the operations on passwords, sessions and working directories.
-/

namespace Strongroom

section

variable {ε ε' α : Type} (report : ε → ε')

@[simp] theorem mapError_ok (value : α) : (Except.ok value).mapError report = .ok value := rfl

@[simp] theorem mapError_error (failure : ε) :
    (Except.error failure : Except ε α).mapError report = .error (report failure) := rfl

end

namespace Action

variable {α β : Type}

@[simp] theorem runOn_pure (x : α) (v : Vault) : (pure x : Action α).runOn v = (.ok x, v) := rfl

@[simp] theorem runOn_throw (failure : Failure) (v : Vault) :
    (throw failure : Action α).runOn v = (.error failure, v) := rfl

/-- An action goes on only if its first part did not fail. -/
@[simp] theorem runOn_bind (first : Action α) (next : α → Action β) (v : Vault) :
    (first >>= next).runOn v =
      match first.runOn v with
      | (.ok x, v) => (next x).runOn v
      | (.error failure, v) => (.error failure, v) := by
  simp only [runOn, bind, ExceptT.bind, ExceptT.mk, ExceptT.run, StateT.run, StateT.bind,
    ExceptT.bindCont]
  generalize first v = result
  obtain ⟨outcome, v⟩ := result
  cases outcome <;> rfl

@[simp] theorem runOn_map (f : α → β) (action : Action α) (v : Vault) :
    (f <$> action).runOn v = ((action.runOn v).1.map f, (action.runOn v).2) := by
  rw [map_eq_pure_bind, runOn_bind]
  obtain ⟨outcome, after⟩ := action.runOn v
  cases outcome <;> rfl

@[simp] theorem runOn_ofExcept (outcome : Except Failure α) (v : Vault) :
    (ofExcept outcome).runOn v = (outcome, v) := rfl

@[simp] theorem runOn_ask (question : Vault → α) (v : Vault) :
    (ask question).runOn v = (.ok (question v), v) := rfl

@[simp] theorem runOn_check (question : Vault → Except Failure α) (v : Vault) :
    (check question).runOn v = (question v, v) := rfl

@[simp] theorem runOn_changeRegistry (change : Registry → Registry) (v : Vault) :
    (changeRegistry change).runOn v = (.ok (), { v with registry := change v.registry }) := rfl

@[simp] theorem runOn_tryRegistry (change : Registry → Except RegistryFailure Unit × Registry)
    (v : Vault) :
    (tryRegistry change).runOn v =
      ((change v.registry).1.mapError RegistryFailure.toFailure,
        { v with registry := (change v.registry).2 }) := rfl

@[simp] theorem runOn_tryTree (report : HostFault → Failure)
    (change : FileTree → Except HostFault Unit × FileTree) (v : Vault) :
    (tryTree report change).runOn v =
      ((change v.tree).1.mapError report, { v with tree := (change v.tree).2 }) := rfl

@[simp] theorem runOn_draw (take : Entropy → α × Entropy) (v : Vault) :
    (draw take).runOn v = (.ok (take v.entropy).1, { v with entropy := (take v.entropy).2 }) := rfl

@[simp] theorem runOn_outcome (action : Action α) (v : Vault) :
    (outcome action).runOn v = (.ok (action.runOn v).1, (action.runOn v).2) := rfl

end Action

@[simp] theorem Files.runOn_onTree (effect : FileTree → Except Failure Unit × FileTree) (v : Vault) :
    (Files.onTree effect).runOn v = ((effect v.tree).1, { v with tree := (effect v.tree).2 }) := rfl

/-! ## Passwords -/

/-- The answer to a password depends on the credential of the user only. -/
theorem Credentials.runOn_verify (user password : String) (v : Vault) :
    (verify user password).runOn v =
      match v.registry.credential? user with
      | none => (.error (.notFound s!"username {user} does not exist"), v)
      | some credential =>
        if hashPassword password credential.salt = credential.hash then (.ok (), v)
        else (.error (.authentication .invalidCredentials), v) := by
  rw [verify, Action.runOn_check]
  cases v.registry.credential? user with
  | none => rfl
  | some credential =>
      have same : Bytes.isMatch (Bytes.ofText (hashPassword password credential.salt))
            (Bytes.ofText credential.hash) = true ↔
          hashPassword password credential.salt = credential.hash := by
        rw [Bytes.isMatch_iff, Bytes.ofText_injective.eq_iff]
      by_cases h : hashPassword password credential.salt = credential.hash
      · simp only [if_pos (same.mpr h), if_pos h]
      · simp only [if_neg (mt same.mp h), if_neg h]

/-! ## Working directories -/

namespace Directories

theorem runOn_set (user : String) (place : Path) (v : Vault) :
    ∃ registry, registry.sessionKeys = v.registry.sessionKeys ∧
      registry.accountKeys = v.registry.accountKeys ∧
      registry.records = { v.registry.records with
        workingDirectory? :=
          Function.update v.registry.workingDirectory? user (some ⟨user, place.text⟩) } ∧
      (Directories.set user place).runOn v = (.ok (), { v with registry }) := by
  obtain ⟨registry, hput, sessions, accounts, answers⟩ :=
    Registry.putWorkingDirectory_eq v.registry ⟨user, place.text⟩
  exact ⟨registry, sessions, accounts, answers, by simp [Directories.set, hput]⟩

theorem runOn_reset {v : Vault} {root : Path} {user : String} (hr : v.rootFor user = .ok root) :
    ∃ registry, registry.sessionKeys = v.registry.sessionKeys ∧
      registry.accountKeys = v.registry.accountKeys ∧
      registry.records = { v.registry.records with
        workingDirectory? :=
          Function.update v.registry.workingDirectory? user (some ⟨user, root.text⟩) } ∧
      (Directories.reset user).runOn v = (.ok root, { v with registry }) := by
  obtain ⟨registry, sessions, accounts, answers, hset⟩ := runOn_set user root v
  exact ⟨registry, sessions, accounts, answers, by simp [Directories.reset, hr, hset, Except.map]⟩

end Directories

/-! ## Sessions -/

/-- A token that stands for a session which has not expired. -/
structure Vault.Accepts (v : Vault) (token : String) (session : Session) : Prop where
  given : Sessions.presented token ≠ ""
  found : v.registry.session? (hashToken (Sessions.presented token)) = some session
  live : v.clock < session.expiresAt

namespace Sessions

/-- The answer to a token depends on the session of its hash and on the clock. -/
theorem runOn_authorize (token : String) (v : Vault) :
    (authorize token).runOn v =
      if presented token = "" then (.error (.authentication .missingToken), v)
      else
        match v.registry.session? (hashToken (presented token)) with
        | none => (.error (.authentication .invalidToken), v)
        | some session =>
          if session.expiresAt ≤ v.clock then
            (.error (.authentication .expired),
              { v with registry := v.registry.deleteSession (hashToken (presented token)) })
          else (.ok session.username, v) := by
  by_cases blank : presented token = ""
  · simp [authorize, blank]
  · cases found : v.registry.session? (hashToken (presented token)) with
    | none => simp [authorize, blank, found]
    | some session => by_cases late : session.expiresAt ≤ v.clock <;> simp [authorize, blank, found, late]

/-- A token is issued if its session can be recorded, and is drawn in any case. -/
theorem runOn_issue (user : String) (v : Vault) :
    (issue user).runOn v =
      match v.registry.replaceSession
          ⟨hashToken v.entropy.token.1, user, expiry v.clock v.ttlMillis⟩ with
      | (.ok (), registry) =>
        (.ok v.entropy.token.1, { v with registry, entropy := v.entropy.token.2 })
      | (.error failure, registry) =>
        (.error failure.toFailure, { v with registry, entropy := v.entropy.token.2 }) := by
  simp only [issue, Action.runOn_bind, Action.runOn_draw, Action.runOn_ask, Action.runOn_tryRegistry,
    Action.runOn_pure]
  generalize v.registry.replaceSession _ = result
  obtain ⟨outcome, registry⟩ := result
  cases outcome <;> rfl

/-- A token is refused, found to have expired, or accepted. -/
theorem authorize_cases (token : String) (v : Vault) :
    (∃ cause, cause ≠ .expired ∧ (authorize token).runOn v = (.error (.authentication cause), v)) ∨
    (∃ session, v.registry.session? (hashToken (presented token)) = some session ∧
      session.expiresAt ≤ v.clock ∧
      (authorize token).runOn v = (.error (.authentication .expired),
        { v with registry := v.registry.deleteSession (hashToken (presented token)) })) ∨
    ∃ session, v.Accepts token session ∧ (authorize token).runOn v = (.ok session.username, v) := by
  rw [runOn_authorize]
  split
  · exact .inl ⟨.missingToken, by simp, rfl⟩
  · rename_i given
    cases found : v.registry.session? (hashToken (presented token)) with
    | none => exact .inl ⟨.invalidToken, by simp, rfl⟩
    | some session =>
        by_cases late : session.expiresAt ≤ v.clock
        · exact .inr (.inl ⟨session, rfl, late, by simp [late]⟩)
        · exact .inr (.inr ⟨session, ⟨given, found, UInt64.not_le.mp late⟩, by simp [late]⟩)

end Sessions

/-! ## A small vault -/

namespace Vault

/-- What a small vault for examples is opened with. -/
def sampleFoundation (registry : Registry) : Foundation where
  settings := { startup := { storageRoot := "/vault" } }
  meter := .walk
  registry
  clock := 0
  entropy := ⟨fun n => UInt8.ofNat n, 0⟩

/-- A small vault for examples, on a host that was empty before it was opened. -/
def sample (registry : Registry) : Vault where
  quota := ⟨{}, .walk⟩
  ttlMillis := 600000
  storageRoot := ⟨"/vault"⟩
  tree := ⟨[(["vault"], .directory)]⟩
  registry
  clock := 0
  entropy := ⟨fun n => UInt8.ofNat n, 0⟩

end Vault

end Strongroom
