import Strongroom.Proofs.Vault.Callers
import Strongroom.Proofs.Vault.Changes
import Strongroom.Proofs.Vault.EveryStep
/-!
# What a request does

Every request to a settled vault does one of a few things, each with what has been checked before.
What is said of all requests is said of these cases.
-/

namespace Strongroom

open FileTree Strongroom.Path Registry Sessions
open Function (update)

/-- The token that a request carries. -/
def Request.token? : Request → Option String
  | .signup .. => none
  | .login .. => none
  | .authenticate token => some token
  | .logout token => some token
  | .delete token => some token
  | .upload token .. => some token
  | .download token _ => some token
  | .list token _ => some token
  | .mkdir token _ => some token
  | .remove token _ => some token
  | .pwd token => some token
  | .cd token _ => some token

/-- The token that a request is answered with, after the user to whom it is issued. -/
def Request.issue : Request → Response → List (String × String)
  | .login username _, .ok (.token token) => [(username, token)]
  | _, _ => []

/-- Whether a request only asks for something. -/
def Request.onlyLooks : Request → Bool
  | .download .. => true
  | .list .. => true
  | .pwd _ => true
  | _ => false

/-- Where a request that moves its user leads: a change of directory to its target, any other one to
the root. -/
def Request.goal (s : Sandbox) : Request → Path
  | .cd _ raw => s.resolve ⟨raw⟩
  | _ => s.root

namespace Vault

/-- A place below the root directory of the user of a session, in a directory. -/
structure Target (top : Location) (v : Vault) (session : Session) (account : Account)
    (name : Name) (parent : Location) : Prop where
  known : v.registry.account? session.username = some account
  inside : account.rootId :: top <:+ parent
  plain : ∀ n ∈ name :: parent, IsPlain n
  addressable : Addressable (name :: parent)
  directory : v.tree.get? parent = some .directory

/-- What a request may do to a vault with its storage root at `top`, and how it is answered. -/
inductive Does (top : Location) (v : Vault) : Request → Response → Vault → Prop
  | refused {request failure entropy} (other : failure.kind ≠ .sessionExpired) :
      Does top v request (.ofFailure failure) { v with entropy }
  | expired {request token session} (carried : request.token? = some token)
      (found : v.registry.session? (hashToken (presented token)) = some session)
      (late : session.expiresAt ≤ v.clock) :
      Does top v request (.ofFailure (.authentication .expired))
        { v with registry := v.registry.deleteSession (hashToken (presented token)) }
  | signedUp {username password salt rootId registry entropy} (plain : IsPlain rootId)
      (directory : v.tree.get? top = some .directory) (addressable : Addressable (rootId :: top))
      (free : v.tree.get? (rootId :: top) = none)
      (unknown : v.registry.credential? username = none) (sound : registry.Sound)
      (answers : registry.records = { v.registry.records with
        credential? := update v.registry.credential? username
          (some ⟨username, salt, hashPassword password salt⟩)
        account? := update v.registry.account? username (some ⟨username, rootId⟩)
        workingDirectory? := update v.registry.workingDirectory? username
          (some ⟨username, (pathTo (rootId :: top)).text⟩) }) :
      Does top v (.signup username password) (.ok .empty)
        { v with tree := v.tree.insert (rootId :: top) .directory, registry, entropy }
  | loggedIn {username password token account path registry entropy}
      (known : v.registry.account? username = some account) (sound : registry.Sound)
      (answers : registry.records = { v.registry.records with
        session? := update
          (fun hash => (v.registry.session? hash).filter fun s => s.username != username)
          (hashToken token) (some ⟨hashToken token, username, expiry v.clock v.ttlMillis⟩)
        workingDirectory? := update v.registry.workingDirectory? username
          (some ⟨username, path⟩) })
      (home : path = (pathTo (account.rootId :: top)).text) :
      Does top v (.login username password) (.ok (.token token)) { v with registry, entropy }
  | loggedOut {token session} (accepts : v.Accepts token session) :
      Does top v (.logout token) (.ok .empty)
        { v with registry := v.registry.deleteSessionsFor session.username }
  | deleted {token session account} (accepts : v.Accepts token session)
      (known : v.registry.account? session.username = some account) :
      Does top v (.delete token) (.ok .empty)
        { v with
          tree := (v.tree.clear (account.rootId :: top)).erase (account.rootId :: top)
          registry := v.forgetting session.username }
  | moved {request token session path registry reply s}
      (moves : request = .authenticate token ∨ ∃ raw, request = .cd token raw)
      (accepts : v.Accepts token session) (sound : registry.Sound)
      (answers : registry.records = { v.registry.records with
        workingDirectory? := update v.registry.workingDirectory? session.username
          (some ⟨session.username, path⟩) })
      (own : v.sandbox? session.username = some s) (lands : path = (request.goal s).text) :
      Does top v request (.ok reply) { v with registry }
  | looked {request token session reply} (carried : request.token? = some token)
      (accepts : v.Accepts token session) (looks : request.onlyLooks = true) :
      Does top v request (.ok reply) v
  | uploaded {token path body session account name parent} (accepts : v.Accepts token session)
      (target : v.Target top session account name parent)
      (checked : v.quota.checkNameAndSize v.tree (pathTo (account.rootId :: top))
        (.file (saturate body.length)) (pathTo (name :: parent)) = .ok ())
      (file : v.tree.get? (name :: parent) ≠ some .directory)
      (leads : v.leadsTo? session.username path = some (name :: parent)) :
      Does top v (.upload token path body) (.ok .empty)
        { v with tree := v.tree.insert (name :: parent) (.file body) }
  | madeDirectory {token path session account name parent} (accepts : v.Accepts token session)
      (target : v.Target top session account name parent)
      (checked : v.quota.checkNewDirectory v.tree (pathTo (account.rootId :: top))
        (pathTo (name :: parent)) = .ok ())
      (free : v.tree.get? (name :: parent) = none)
      (leads : v.leadsTo? session.username path = some (name :: parent)) :
      Does top v (.mkdir token path) (.ok .empty)
        { v with tree := v.tree.insert (name :: parent) .directory }
  | removed {token path session account name parent} (accepts : v.Accepts token session)
      (target : v.Target top session account name parent)
      (emptied : v.tree.children (name :: parent) = [] ∨
        v.tree.get? (name :: parent) ≠ some .directory)
      (leads : v.leadsTo? session.username path = some (name :: parent)) :
      Does top v (.remove token path) (.ok .empty) { v with tree := v.tree.erase (name :: parent) }

variable {top : Location} {v : Vault}

/-! ## Answers -/

theorem dispatch_of_ok {request : Request} {reply : Reply} {after : Vault}
    (h : request.perform.runOn v = (.ok reply, after)) : v.dispatch request = (.ok reply, after) := by
  rw [dispatch, h]

theorem dispatch_of_error {request : Request} {failure : Failure} {after : Vault}
    (h : request.perform.runOn v = (.error failure, after)) :
    v.dispatch request = (.ofFailure failure, after) := by
  rw [dispatch, h]

/-- A request is answered with a reply exactly if its run returns the reply. -/
theorem dispatch_eq_ok {request : Request} {reply : Reply} :
    (v.dispatch request).1 = .ok reply ↔ (request.perform.runOn v).1 = .ok reply := by
  rcases run : request.perform.runOn v with ⟨failure | other, after⟩
  · rw [dispatch_of_error run]
    simp [Response.ofFailure]
  · rw [dispatch_of_ok run]
    simp

/-- A request does what its run does. -/
theorem Does.of_ok {request : Request} (reply : Reply) {after : Vault}
    (h : request.perform.runOn v = (.ok reply, after)) (does : Does top v request (.ok reply) after) :
    Does top v request (v.dispatch request).1 (v.dispatch request).2 := by
  rw [dispatch_of_ok h]
  exact does

theorem Does.of_error {request : Request} (failure : Failure) (entropy : Entropy)
    (h : request.perform.runOn v = (.error failure, { v with entropy }))
    (other : failure.kind ≠ .sessionExpired) :
    Does top v request (v.dispatch request).1 (v.dispatch request).2 := by
  rw [dispatch_of_error h]
  exact .refused other

/-! ## Requests with a token -/

/-- A request with a token starts with the token. -/
theorem perform_eq_authorize {request : Request} {token : String}
    (carried : request.token? = some token) :
    ∃ next : String → Action Reply, request.perform = authorize token >>= next := by
  cases request with
  | signup username password => cases carried
  | login username password => cases carried
  | authenticate token =>
      obtain rfl := Option.some.inj carried
      exact ⟨_, by simp only [Request.perform, Accounts.authenticate, validate, map_bind]; rfl⟩
  | logout token =>
      obtain rfl := Option.some.inj carried
      exact ⟨_, by simp only [Request.perform, Accounts.logout, map_bind]; rfl⟩
  | delete token =>
      obtain rfl := Option.some.inj carried
      exact ⟨_, by simp only [Request.perform, Accounts.deleteAccount, map_bind]; rfl⟩
  | upload token path body =>
      obtain rfl := Option.some.inj carried
      exact ⟨_, by simp only [Request.perform, Files.upload, Files.caller, map_bind, bind_assoc]; rfl⟩
  | download token path =>
      obtain rfl := Option.some.inj carried
      exact ⟨_, by simp only [Request.perform, Files.download, Files.caller, map_bind, bind_assoc]; rfl⟩
  | list token path =>
      obtain rfl := Option.some.inj carried
      exact ⟨_, by simp only [Request.perform, Files.list, Files.caller, map_bind, bind_assoc]; rfl⟩
  | mkdir token path =>
      obtain rfl := Option.some.inj carried
      exact ⟨_, by simp only [Request.perform, Files.mkdir, Files.caller, map_bind, bind_assoc]; rfl⟩
  | remove token path =>
      obtain rfl := Option.some.inj carried
      exact ⟨_, by simp only [Request.perform, Files.remove, Files.caller, map_bind, bind_assoc]; rfl⟩
  | pwd token =>
      obtain rfl := Option.some.inj carried
      exact ⟨_, by simp only [Request.perform, Files.pwd, Files.caller, map_bind, bind_assoc]; rfl⟩
  | cd token path =>
      obtain rfl := Option.some.inj carried
      exact ⟨_, by simp only [Request.perform, Files.cd, Files.caller, map_bind, bind_assoc]; rfl⟩

/-- What is left to show of a request with a token is what it does once the token is accepted. -/
theorem Does.of_authorize {request : Request} {token : String}
    (carried : request.token? = some token)
    (does : ∀ session, v.Accepts token session →
      Does top v request (v.dispatch request).1 (v.dispatch request).2) :
    Does top v request (v.dispatch request).1 (v.dispatch request).2 := by
  obtain ⟨next, start⟩ := perform_eq_authorize carried
  rcases authorize_cases token v with ⟨cause, hc, he⟩ | ⟨session, found, late, he⟩ | ⟨session, ha, -⟩
  · refine .of_error (.authentication cause) v.entropy ?_ ?_
    · rw [start, Action.runOn_bind, he]
    · rwa [Ne, Failure.kind_eq_sessionExpired, Failure.authentication.injEq]
  · have answered : v.dispatch request = _ := dispatch_of_error (by rw [start, Action.runOn_bind, he])
    rw [answered]
    exact .expired carried found late
  · exact does session ha

/-! ## Steps that several requests take -/

theorem verify_cases (username password : String) (v : Vault) :
    (∃ failure, failure.kind ≠ .sessionExpired ∧
      (Credentials.verify username password).runOn v = (.error failure, v)) ∨
    ∃ credential, v.registry.credential? username = some credential ∧
      (Credentials.verify username password).runOn v = (.ok (), v) := by
  rw [Credentials.runOn_verify]
  cases v.registry.credential? username with
  | none => exact .inl ⟨_, by simp [Failure.kind], rfl⟩
  | some credential =>
      dsimp only
      split
      · exact .inr ⟨credential, rfl, rfl⟩
      · exact .inl ⟨_, by simp [Failure.kind], rfl⟩

/-! ## Requests about accounts -/

section

variable {token : String} {session : Session} {account : Account}

theorem does_authenticate (h : v.Settled top) (ha : v.Accepts token session) :
    Does top v (.authenticate token) (v.dispatch (.authenticate token)).1
      (v.dispatch (.authenticate token)).2 := by
  obtain ⟨account, known⟩ := h.owner ha.found
  obtain ⟨s, own, hs⟩ := h.sandbox known
  obtain ⟨registry, sessions, accounts, answers, hreset⟩ := Directories.runOn_reset (h.rootFor known)
  refine .of_ok (.username session.username) ?_
    (.moved (.inl rfl) ha (h.sound.of_keys sessions accounts) answers own (by rw [← hs.root_eq]; rfl))
  simp [Request.perform, Accounts.authenticate, validate, runOn_authorize_of_accepts ha, hreset, Except.map]

theorem does_logout (ha : v.Accepts token session) :
    Does top v (.logout token) (v.dispatch (.logout token)).1 (v.dispatch (.logout token)).2 := by
  refine .of_ok .empty ?_ (.loggedOut ha)
  simp [Request.perform, Accounts.logout, invalidate, runOn_authorize_of_accepts ha, Except.map]

theorem does_delete (h : v.Settled top) (ha : v.Accepts token session) :
    Does top v (.delete token) (v.dispatch (.delete token)).1 (v.dispatch (.delete token)).2 := by
  obtain ⟨account, known⟩ := h.owner ha.found
  have emptied : Accounts.removeAllOf (v.rootPath account.rootId) v.tree =
      (.ok (), (v.tree.clear (account.rootId :: top)).erase (account.rootId :: top)) := by
    rw [h.rootPath known, Accounts.removeAllOf, h.rooted.removeAll_eq (List.suffix_refl _)
      (h.plain_root known) (h.home _ _ known) (h.addressable _ _ known)]
  have gone := Accounts.runOn_deleteAccount (runOn_authorize_of_accepts ha)
  rw [known] at gone
  refine .of_ok .empty ?_ (.deleted ha known)
  simp [Request.perform, gone, emptied, Except.map]

/-- A user whose password is accepted is given a token, unless its session cannot be recorded. -/
theorem login_cases (h : v.Settled top) {username password : String}
    (known : v.registry.account? username = some account)
    (accepted : (Credentials.verify username password).runOn v = (.ok (), v)) :
    (∃ failure : RegistryFailure, ∃ entropy, (Accounts.login username password).runOn v =
      (.error failure.toFailure, { v with entropy })) ∨
    ∃ token registry entropy,
      Does top v (.login username password) (.ok (.token token)) { v with registry, entropy } ∧
      (Accounts.login username password).runOn v = (.ok token, { v with registry, entropy }) := by
  have issued := runOn_issue username v
  rcases replaceSession_cases h.sound.sessions
      ⟨hashToken v.entropy.token.1, username, expiry v.clock v.ttlMillis⟩ with
    ⟨failure, -, hr, -⟩ | ⟨replaced, hr, unique, keys, answers⟩
  · rw [hr] at issued
    refine .inl ⟨failure, v.entropy.token.2, ?_⟩
    simp [Accounts.login, accepted, issued]
  · rw [hr] at issued
    -- the user still has the account, so the way back to the root is open
    have accounts : replaced.account? = v.registry.account? := congrArg Records.account? answers
    have root : Vault.rootFor { v with registry := replaced, entropy := v.entropy.token.2 } username =
        .ok (pathTo (account.rootId :: top)) := by
      rw [← h.rootFor known, Vault.rootFor, Vault.rootFor, accounts]
      rfl
    obtain ⟨registry, sessions, same, after, hreset⟩ := Directories.runOn_reset root
    have sound : registry.Sound :=
      Sound.of_keys (r := replaced) ⟨unique, keys ▸ h.sound.accounts⟩ sessions same
    have directories : replaced.workingDirectory? = v.registry.workingDirectory? :=
      congrArg Records.workingDirectory? answers
    simp only [answers, directories] at after
    refine .inr ⟨v.entropy.token.1, registry, v.entropy.token.2, .loggedIn known sound after rfl, ?_⟩
    simp [Accounts.login, accepted, issued, hreset, Except.map]

theorem does_login (h : v.Settled top) (username password : String) :
    Does top v (.login username password) (v.dispatch (.login username password)).1
      (v.dispatch (.login username password)).2 := by
  rcases verify_cases username password v with ⟨failure, other, he⟩ | ⟨credential, hc, he⟩
  · refine .of_error failure v.entropy ?_ other
    simp [Request.perform, Accounts.login, he]
  · obtain ⟨account, known⟩ := h.credential hc
    rcases login_cases h known he with ⟨failure, entropy, hl⟩ | ⟨token, registry, entropy, does, hl⟩
    · refine .of_error failure.toFailure entropy ?_ failure.kind_toFailure
      simp [Request.perform, hl, Except.map]
    · refine .of_ok (.token token) ?_ does
      simp [Request.perform, hl, Except.map]

end

/-- An account is made with its records and its root directory, or with neither: once the directory
is made the records are not refused. -/
theorem createAccount_cases (h : v.Settled top) (username password : String) :
    (∃ failure entropy, failure.kind ≠ .sessionExpired ∧
      (Credentials.createAccount username password).runOn v = (.error failure, { v with entropy })) ∨
    ∃ salt rootId registry entropy, IsPlain rootId ∧ v.tree.get? top = some .directory ∧
      Addressable (rootId :: top) ∧ v.tree.get? (rootId :: top) = none ∧
      v.registry.credential? username = none ∧ registry.Sound ∧
      registry.records = { v.registry.records with
        credential? := update v.registry.credential? username
          (some ⟨username, salt, hashPassword password salt⟩)
        account? := update v.registry.account? username (some ⟨username, rootId⟩)
        workingDirectory? := update v.registry.workingDirectory? username
          (some ⟨username, (pathTo (rootId :: top)).text⟩) } ∧
      (Credentials.createAccount username password).runOn v = (.ok rootId,
        { v with tree := v.tree.insert (rootId :: top) .directory, registry, entropy }) := by
  rcases hn : Credentials.checkUsername v.quota.limits.maxUsernameLength username with cause | ⟨⟩
  · refine .inl ⟨.validation cause, v.entropy, by simp [Failure.kind], ?_⟩
    simp [Credentials.createAccount, hn]
  rcases hc : v.registry.credential? username with - | credential
  case some =>
    refine .inl ⟨.conflict s!"username {username} already exists", v.entropy, by simp [Failure.kind], ?_⟩
    simp [Credentials.createAccount, hn, Credentials.refuseTaken, hc]
  rcases hw : Credentials.checkPassword password with cause | ⟨⟩
  · refine .inl ⟨.validation cause, v.entropy, by simp [Failure.kind], ?_⟩
    simp [Credentials.createAccount, hn, Credentials.refuseTaken, hc, hw]
  have plain := v.entropy.salt.2.isPlain_rootId
  have root := rootPath_eq h.storage h.rooted.plain plain
  rw [Vault.rootPath] at root
  rcases hm : v.tree.makeDirectory (pathTo (v.entropy.salt.2.rootId.1 :: top)) with fault | tree
  · refine .inl ⟨fault.toFailure, v.entropy.salt.2.rootId.2, fault.kind_toFailure, ?_⟩
    simp [Credentials.createAccount, hn, Credentials.refuseTaken, hc, hw, Credentials.makeRoot,
      Vault.rootPath, root, Action.orElseSame, hm]
  have names : ∀ n ∈ v.entropy.salt.2.rootId.1 :: top, IsPlain n :=
    List.forall_mem_cons.mpr ⟨plain, h.rooted.plain⟩
  obtain ⟨directory, addressable, free, rfl⟩ :=
    (h.rooted.makeDirectory_eq_ok (List.suffix_refl _) names).mp hm
  -- where nothing stood there is no root directory of another user
  have own : ∀ user other, v.registry.account? user = some other →
      other.rootId ≠ v.entropy.salt.2.rootId.1 := by
    intro user other known he
    have := h.home user other known
    rw [he, free] at this
    cases this
  obtain ⟨registry, entered, sound, answers⟩ := createAccount_of_vacant h.sound
    ⟨username, v.entropy.salt.1, hashPassword password v.entropy.salt.1⟩
    ⟨username, v.entropy.salt.2.rootId.1⟩
    ⟨username, (pathTo (v.entropy.salt.2.rootId.1 :: top)).text⟩ hc
    ((h.paired username).mp hc) own
  refine .inr ⟨v.entropy.salt.1, v.entropy.salt.2.rootId.1, registry, v.entropy.salt.2.rootId.2, plain,
    directory, addressable, free, rfl, sound, answers, ?_⟩
  simp [Credentials.createAccount, hn, Credentials.refuseTaken, hc, hw, Credentials.makeRoot,
    Vault.rootPath, root, Action.orElseSame, hm, Credentials.enter, entered]

theorem does_signup (h : v.Settled top) (username password : String) :
    Does top v (.signup username password) (v.dispatch (.signup username password)).1
      (v.dispatch (.signup username password)).2 := by
  cases hq : v.quota.checkAggregate v.tree (Accounts.roots v) with
  | error failure =>
      refine .of_error failure v.entropy ?_ (Quota.kind_checkAggregate hq)
      simp [Request.perform, Accounts.signup, hq]
  | ok =>
      rcases createAccount_cases h username password with ⟨failure, entropy, other, he⟩ |
        ⟨salt, rootId, registry, entropy, plain, directory, addressable, free, unknown, sound, answers, he⟩
      · refine .of_error failure entropy ?_ other
        simp [Request.perform, Accounts.signup, hq, he, Except.map]
      · have does : Does top v (.signup username password) (.ok .empty)
            { v with tree := v.tree.insert (rootId :: top) .directory, registry, entropy } :=
          .signedUp plain directory addressable free unknown sound answers
        refine .of_ok _ ?_ does
        simp [Request.perform, Accounts.signup, hq, he, Except.map]

/-! ## Requests about files -/

section

variable {token : String} {session : Session}

/-- A path that an accepted client writes leads to the client's root directory or below it. -/
theorem exists_place (h : v.Settled top) {user : String} {account : Account}
    (known : v.registry.account? user = some account) {s : Sandbox} (own : v.sandbox? user = some s)
    (raw : String) :
    ∃ name parent, top <:+ parent ∧ (∀ n ∈ name :: parent, IsPlain n) ∧
      s.resolve ⟨raw⟩ = pathTo (name :: parent) ∧ v.leadsTo? user raw = some (name :: parent) ∧
      (name :: parent = account.rootId :: top ∨ account.rootId :: top <:+ parent) := by
  obtain ⟨location, inside, plain, place, leads⟩ := h.leadsTo known own raw
  cases location with
  | nil => cases List.suffix_nil.mp inside
  | cons name parent =>
      rcases List.suffix_cons_iff.mp inside with same | inside
      · exact ⟨name, parent, (List.cons.inj same).2 ▸ List.suffix_refl _, plain, place, leads,
          .inl same.symm⟩
      · exact ⟨name, parent, (List.suffix_cons ..).trans inside, plain, place, leads, .inr inside⟩

theorem does_upload (h : v.Settled top) (ha : v.Accepts token session) (path : String) (body : Bytes) :
    Does top v (.upload token path body) (v.dispatch (.upload token path body)).1
      (v.dispatch (.upload token path body)).2 := by
  obtain ⟨account, known⟩ := h.owner ha.found
  obtain ⟨s, own, hs⟩ := h.sandbox known
  obtain ⟨name, parent, below, plain, place, leads, spot⟩ := exists_place h known own path
  have run := Files.runOn_upload (runOn_caller ha own) path body
  rw [place, hs.root_eq] at run
  rcases hq : v.quota.checkNameAndSize v.tree (pathTo (account.rootId :: top))
    (.file (saturate body.length)) (pathTo (name :: parent)) with failure | ⟨⟩
  · refine .of_error failure v.entropy ?_ (Quota.kind_checkNameAndSize hq)
    simp [Request.perform, run, hq, Except.map]
  rcases Files.write_cases h.rooted below plain (s.display (pathTo (name :: parent))) body with
    ⟨failure, other, hw⟩ | ⟨directory, addressable, file, hw⟩
  · refine .of_error failure v.entropy ?_ other
    simp [Request.perform, run, hq, hw, Except.map]
  · have inside := spot.resolve_left fun same => file (same ▸ h.home _ _ known)
    refine .of_ok .empty ?_ (.uploaded ha ⟨known, inside, plain, addressable, directory⟩ hq file leads)
    simp [Request.perform, run, hq, hw, Except.map]

theorem does_mkdir (h : v.Settled top) (ha : v.Accepts token session) (path : String) :
    Does top v (.mkdir token path) (v.dispatch (.mkdir token path)).1
      (v.dispatch (.mkdir token path)).2 := by
  obtain ⟨account, known⟩ := h.owner ha.found
  obtain ⟨s, own, hs⟩ := h.sandbox known
  obtain ⟨name, parent, below, plain, place, leads, spot⟩ := exists_place h known own path
  have run := Files.runOn_mkdir (runOn_caller ha own) path
  rw [place, hs.root_eq] at run
  rcases hq : v.quota.checkNewDirectory v.tree (pathTo (account.rootId :: top))
    (pathTo (name :: parent)) with failure | ⟨⟩
  · refine .of_error failure v.entropy ?_ (Quota.kind_checkNewDirectory hq)
    simp [Request.perform, run, hq, Except.map]
  rcases Files.makeDirectory_cases h.rooted below plain (s.display (pathTo (name :: parent))) with
    ⟨failure, other, hw⟩ | ⟨directory, addressable, free, hw⟩
  · refine .of_error failure v.entropy ?_ other
    simp [Request.perform, run, hq, hw, Except.map]
  · have inside := spot.resolve_left fun same => by
      rw [same, h.home _ _ known] at free
      cases free
    refine .of_ok .empty ?_
      (.madeDirectory ha ⟨known, inside, plain, addressable, directory⟩ hq free leads)
    simp [Request.perform, run, hq, hw, Except.map]

theorem does_remove (h : v.Settled top) (ha : v.Accepts token session) (path : String) :
    Does top v (.remove token path) (v.dispatch (.remove token path)).1
      (v.dispatch (.remove token path)).2 := by
  obtain ⟨account, known⟩ := h.owner ha.found
  obtain ⟨s, own, hs⟩ := h.sandbox known
  obtain ⟨name, parent, below, plain, place, leads, spot⟩ := exists_place h known own path
  have within : account.rootId :: top <:+ name :: parent := by
    rcases spot with same | inside
    · exact same ▸ List.suffix_refl _
    · exact inside.trans (List.suffix_cons ..)
  have isRoot := hs.isRoot_pathTo plain within
  have run := Files.runOn_remove (runOn_caller ha own) path
  rw [place] at run
  rcases spot with same | inside
  · refine .of_error (.validation .rootRemoval) v.entropy ?_ (by simp [Failure.kind])
    simp [Request.perform, run, isRoot.mpr same, Except.map]
  have inner : ¬ s.isRoot (pathTo (name :: parent)) = true := by
    intro hr
    have long := inside.length_le
    have same := congrArg List.length (isRoot.mp hr)
    simp only [List.length_cons] at long same
    omega
  rcases Files.removeEntry_cases h.rooted below plain (s.display (pathTo (name :: parent))) with
    ⟨failure, other, hw⟩ | ⟨directory, addressable, emptied, hw⟩
  · refine .of_error failure v.entropy ?_ other
    simp [Request.perform, run, inner, hw, Except.map]
  · refine .of_ok .empty ?_ (.removed ha ⟨known, inside, plain, addressable, directory⟩ emptied leads)
    simp [Request.perform, run, inner, hw, Except.map]

theorem does_download (h : v.Settled top) (ha : v.Accepts token session) (path : String) :
    Does top v (.download token path) (v.dispatch (.download token path)).1
      (v.dispatch (.download token path)).2 := by
  obtain ⟨account, known⟩ := h.owner ha.found
  obtain ⟨s, own, -⟩ := h.sandbox known
  have run := Files.runOn_download (runOn_caller ha own) path
  rcases hr : Files.read v.tree (s.resolve ⟨path⟩) (s.display (s.resolve ⟨path⟩)) with failure | body
  · refine .of_error failure v.entropy ?_ (Files.kind_read hr)
    simp [Request.perform, run, hr, Except.map]
  · refine .of_ok (.body body) ?_ (.looked rfl ha rfl)
    simp [Request.perform, run, hr, Except.map]

theorem does_list (h : v.Settled top) (ha : v.Accepts token session) (path : String) :
    Does top v (.list token path) (v.dispatch (.list token path)).1
      (v.dispatch (.list token path)).2 := by
  obtain ⟨account, known⟩ := h.owner ha.found
  obtain ⟨s, own, -⟩ := h.sandbox known
  have run := Files.runOn_list (runOn_caller ha own) path
  rcases hl : Files.listing v.tree (s.resolve ⟨path⟩) (s.display (s.resolve ⟨path⟩)) with
    failure | lines
  · refine .of_error failure v.entropy ?_ (Files.kind_listing hl)
    simp [Request.perform, run, hl, Except.map]
  · refine .of_ok (.entries lines) ?_ (.looked rfl ha rfl)
    simp [Request.perform, run, hl, Except.map]

theorem does_pwd (h : v.Settled top) (ha : v.Accepts token session) :
    Does top v (.pwd token) (v.dispatch (.pwd token)).1 (v.dispatch (.pwd token)).2 := by
  obtain ⟨account, known⟩ := h.owner ha.found
  obtain ⟨s, own, -⟩ := h.sandbox known
  refine .of_ok (.path s.workingDirectory) ?_ (.looked rfl ha rfl)
  simp [Request.perform, Files.runOn_pwd (runOn_caller ha own), Except.map]

theorem does_cd (h : v.Settled top) (ha : v.Accepts token session) (path : String) :
    Does top v (.cd token path) (v.dispatch (.cd token path)).1 (v.dispatch (.cd token path)).2 := by
  obtain ⟨account, known⟩ := h.owner ha.found
  obtain ⟨s, own, -⟩ := h.sandbox known
  have run := Files.runOn_cd (runOn_caller ha own) path
  split at run
  · obtain ⟨registry, sessions, accounts, answers, set⟩ :=
      Directories.runOn_set session.username (s.resolve ⟨path⟩) v
    refine .of_ok .empty ?_
      (.moved (.inr ⟨path, rfl⟩) ha (h.sound.of_keys sessions accounts) answers own rfl)
    simp [Request.perform, run, set, Except.map]
  · refine .of_error (.notFound s!"{s.display (s.resolve ⟨path⟩)}: no such directory") v.entropy ?_
      (by simp [Failure.kind])
    simp [Request.perform, run, Except.map]

end

/-! ## All requests -/

/-- A request to a settled vault does one of these things. -/
theorem dispatch_does (h : v.Settled top) (request : Request) :
    Does top v request (v.dispatch request).1 (v.dispatch request).2 := by
  cases request with
  | signup username password => exact does_signup h username password
  | login username password => exact does_login h username password
  | authenticate token => exact .of_authorize rfl fun _ ha => does_authenticate h ha
  | logout token => exact .of_authorize rfl fun _ ha => does_logout ha
  | delete token => exact .of_authorize rfl fun _ ha => does_delete h ha
  | upload token path body => exact .of_authorize rfl fun _ ha => does_upload h ha path body
  | download token path => exact .of_authorize rfl fun _ ha => does_download h ha path
  | list token path => exact .of_authorize rfl fun _ ha => does_list h ha path
  | mkdir token path => exact .of_authorize rfl fun _ ha => does_mkdir h ha path
  | remove token path => exact .of_authorize rfl fun _ ha => does_remove h ha path
  | pwd token => exact .of_authorize rfl fun _ ha => does_pwd h ha
  | cd token path => exact .of_authorize rfl fun _ ha => does_cd h ha path

end Vault

end Strongroom
