import Strongroom.Proofs.Access.Directories
import Strongroom.Proofs.Access.Interleaving
import Strongroom.Proofs.FileTree.Grounded
import Strongroom.Proofs.FileTree.Opening
import Strongroom.Proofs.Vault.Actions
/-!
# Signups beside each other

Any number of calls make accounts at the same time, for the same user or for different ones, and the names
that they draw for root directories may be the same.  A user is looked up before the directory is made and
the records are entered after that, so that several calls for one user can get as far as making a directory;
only one of them enters its records, and the others remove the directory that they made and no other one.
-/

namespace Strongroom

open FileTree Strongroom.Path
open Function (update)

/-- The storage root is at `top`, and the directories in it are the root directories of the accounts, one
for each account. -/
structure Vault.Housed (top : Location) (v : Vault) : Prop where
  storage : v.storageRoot = pathTo top
  reached : v.tree.Reached top
  directory : v.tree.get? top = some .directory
  grounded : v.tree.Grounded
  sound : v.registry.Sound
  roots : ∀ name, v.tree.get? (name :: top) = some .directory ↔
    ∃ user account, v.registry.account? user = some account ∧ account.rootId = name
  alone : ∀ user other a b, v.registry.account? user = some a → v.registry.account? other = some b →
    a.rootId = b.rootId → user = other

namespace Signup

/-! ## The steps of a call -/

/-- How far a call has come: what it does next, or its outcome. -/
inductive Stage
  | looking
  | drawing
  | making (salt rootId : String)
  | entering (salt rootId : String)
  | dropping (rootId : String) (failure : Failure)
  | done (outcome : Except Failure String)
deriving DecidableEq

/-- The name is checked and looked up. -/
def look (user : String) : Action Unit := do
  let maxLength ← Action.ask (·.quota.limits.maxUsernameLength)
  Action.ofExcept ((Credentials.checkUsername maxLength user).mapError .validation)
  Credentials.refuseTaken user

/-- The password is checked, and a salt and the name of a root directory are drawn. -/
def drawNames (password : String) : Action (String × String) := do
  Action.ofExcept ((Credentials.checkPassword password).mapError .validation)
  let salt ← Action.draw Entropy.salt
  let rootId ← Action.draw Entropy.rootId
  return (salt, rootId)

/-- The root directory is made. -/
def make (rootId : String) : Action Unit := do
  Credentials.makeRoot (← Action.ask (·.rootPath rootId))

/-- The records are entered, or they are refused. -/
def enter (user password salt rootId : String) : Action (Except Failure Unit) := do
  let root ← Action.ask (·.rootPath rootId)
  Action.outcome (Credentials.enter ⟨user, salt, hashPassword password salt⟩ ⟨user, rootId⟩ root)

/-- The root directory is removed, if that can be done. -/
def drop (rootId : String) : Action (Except Failure Unit) := do
  Action.outcome (Credentials.dropRoot (← Action.ask (·.rootPath rootId)))

/-- A call that makes an account, in steps. -/
def steps (user password : String) : Procedure Stage where
  next
    | .looking => do
      look user
      return .drawing
    | .drawing => do
      let (salt, rootId) ← drawNames password
      return .making salt rootId
    | .making salt rootId => do
      make rootId
      return .entering salt rootId
    | .entering salt rootId => do
      match ← enter user password salt rootId with
      | .ok () => return .done (.ok rootId)
      | .error failure => return .dropping rootId failure
    | .dropping rootId failure => do
      let _ ← drop rootId
      return .done (.error failure)
    | .done outcome => return .done outcome
  failed failure := .done (.error failure)

section

variable (user password salt rootId : String) (v : Vault)

theorem runOn_look : (look user).runOn v =
    (match Credentials.checkUsername v.quota.limits.maxUsernameLength user with
      | .error cause => .error (.validation cause)
      | .ok () =>
        match v.registry.credential? user with
        | some _ => .error (.conflict s!"username {user} already exists")
        | none => .ok (), v) := by
  rcases hn : Credentials.checkUsername v.quota.limits.maxUsernameLength user with cause | ⟨⟩
  · simp [look, hn]
  · cases hc : v.registry.credential? user <;> simp [look, Credentials.refuseTaken, hn, hc]

theorem runOn_drawNames : (drawNames password).runOn v =
    match Credentials.checkPassword password with
    | .error cause => (.error (.validation cause), v)
    | .ok () => (.ok (v.entropy.salt.1, v.entropy.salt.2.rootId.1),
        { v with entropy := v.entropy.salt.2.rootId.2 }) := by
  rcases hw : Credentials.checkPassword password with cause | ⟨⟩
  · simp [drawNames, hw]
  · simp [drawNames, hw, Except.map]

theorem runOn_make : (make rootId).runOn v =
    match v.tree.makeDirectory (v.rootPath rootId) with
    | .error fault => (.error fault.toFailure, v)
    | .ok tree => (.ok (), { v with tree }) := by
  rcases hm : v.tree.makeDirectory (v.rootPath rootId) with fault | tree <;>
    simp [make, Credentials.makeRoot, Action.orElseSame, hm]

theorem runOn_enter : (enter user password salt rootId).runOn v =
    (.ok ((v.registry.createAccount ⟨user, salt, hashPassword password salt⟩ ⟨user, rootId⟩
        ⟨user, (v.rootPath rootId).text⟩).1.mapError RegistryFailure.toFailure),
      { v with registry := (v.registry.createAccount ⟨user, salt, hashPassword password salt⟩
        ⟨user, rootId⟩ ⟨user, (v.rootPath rootId).text⟩).2 }) := by
  simp [enter, Credentials.enter]

theorem runOn_drop : (drop rootId).runOn v =
    match v.tree.removeDirectory (v.rootPath rootId) with
    | .error fault => (.ok (.error fault.toFailure), v)
    | .ok tree => (.ok (.ok ()), { v with tree }) := by
  rcases hr : v.tree.removeDirectory (v.rootPath rootId) with fault | tree <;>
    simp [drop, Credentials.dropRoot, Action.orElseSame, hr]

end

/-- A call that has its outcome does nothing any more. -/
theorem alone_done (n : Nat) (outcome : Except Failure String) (user password : String) (v : Vault) :
    (steps user password).alone n (.done outcome) v = (.done outcome, v) := by
  induction n with
  | zero => rfl
  | succ n ih => exact ih

section

variable (user password salt rootId : String) (failure : Failure) (v : Vault) (n : Nat)

theorem alone_looking : (steps user password).alone (n + 1) .looking v =
    match (look user).runOn v with
    | (.ok (), v) => (steps user password).alone n .drawing v
    | (.error failure, v) => (.done (.error failure), v) := by
  rw [Procedure.alone, Procedure.advance]
  simp only [steps, Action.runOn_bind]
  rcases (look user).runOn v with ⟨failure | ⟨⟩, v⟩
  · exact alone_done n _ user password v
  · rfl

theorem alone_drawing : (steps user password).alone (n + 1) .drawing v =
    match (drawNames password).runOn v with
    | (.ok (salt, rootId), v) => (steps user password).alone n (.making salt rootId) v
    | (.error failure, v) => (.done (.error failure), v) := by
  rw [Procedure.alone, Procedure.advance]
  simp only [steps, Action.runOn_bind]
  rcases (drawNames password).runOn v with ⟨failure | ⟨salt, rootId⟩, v⟩
  · exact alone_done n _ user password v
  · rfl

theorem alone_making : (steps user password).alone (n + 1) (.making salt rootId) v =
    match (make rootId).runOn v with
    | (.ok (), v) => (steps user password).alone n (.entering salt rootId) v
    | (.error failure, v) => (.done (.error failure), v) := by
  rw [Procedure.alone, Procedure.advance]
  simp only [steps, Action.runOn_bind]
  rcases (make rootId).runOn v with ⟨failure | ⟨⟩, v⟩
  · exact alone_done n _ user password v
  · rfl

theorem alone_entering : (steps user password).alone (n + 1) (.entering salt rootId) v =
    match (enter user password salt rootId).runOn v with
    | (.ok (.ok ()), v) => (.done (.ok rootId), v)
    | (.ok (.error failure), v) => (steps user password).alone n (.dropping rootId failure) v
    | (.error failure, v) => (.done (.error failure), v) := by
  rw [Procedure.alone, Procedure.advance]
  simp only [steps, Action.runOn_bind]
  rcases (enter user password salt rootId).runOn v with ⟨failure | failure | ⟨⟩, v⟩
  · exact alone_done n _ user password v
  · rfl
  · exact alone_done n _ user password v

theorem alone_dropping : (steps user password).alone (n + 1) (.dropping rootId failure) v =
    (.done (.error failure), ((drop rootId).runOn v).2) := by
  rw [Procedure.alone, Procedure.advance]
  simp only [steps, Action.runOn_bind, runOn_drop]
  cases v.tree.removeDirectory (v.rootPath rootId) <;> exact alone_done n _ user password _

/-- The steps that a call takes by itself are those of making an account. -/
theorem alone_eq_createAccount :
    (steps user password).alone 5 .looking v =
      (.done ((Credentials.createAccount user password).runOn v).1,
        ((Credentials.createAccount user password).runOn v).2) := by
  rw [alone_looking, runOn_look]
  rcases hn : Credentials.checkUsername v.quota.limits.maxUsernameLength user with cause | ⟨⟩
  · simp [Credentials.createAccount, hn]
  rcases hc : v.registry.credential? user with - | credential
  case some => simp [Credentials.createAccount, hn, Credentials.refuseTaken, hc]
  simp only [alone_drawing, runOn_drawNames]
  rcases hw : Credentials.checkPassword password with cause | ⟨⟩
  · simp [Credentials.createAccount, hn, Credentials.refuseTaken, hc, hw]
  simp only [alone_making, runOn_make]
  have same (tree : FileTree) (registry : Registry) (entropy : Entropy) (name : String) :
    Vault.rootPath { v with tree, registry, entropy } name = v.rootPath name := rfl
  simp only [same]
  rcases hm : v.tree.makeDirectory (v.rootPath v.entropy.salt.2.rootId.1) with fault | tree
  · simp [Credentials.createAccount, hn, Credentials.refuseTaken, hc, hw, Credentials.makeRoot,
      Action.orElseSame, hm, same]
  simp only [alone_entering, runOn_enter, same]
  rcases he : v.registry.createAccount
    ⟨user, v.entropy.salt.1, hashPassword password v.entropy.salt.1⟩
    ⟨user, v.entropy.salt.2.rootId.1⟩
    ⟨user, (v.rootPath v.entropy.salt.2.rootId.1).text⟩ with ⟨failure | ⟨⟩, registry⟩
  · simp only [mapError_error, alone_dropping, runOn_drop, same]
    rcases hr : tree.removeDirectory (v.rootPath v.entropy.salt.2.rootId.1) with fault | left <;>
      simp [Credentials.createAccount, hn, Credentials.refuseTaken, hc, hw, Credentials.makeRoot,
        Action.orElseSame, hm, same, Credentials.enter, he, Credentials.dropRoot, hr]
  · simp [Credentials.createAccount, hn, Credentials.refuseTaken, hc, hw, Credentials.makeRoot,
      Action.orElseSame, hm, same, Credentials.enter, he]

end

/-! ## What a step can do -/

/-- The directory that a call has made and that is not yet the root directory of an account. -/
def Stage.holds? : Stage → Option Name
  | .entering _ rootId => some rootId
  | .dropping rootId _ => some rootId
  | _ => none

/-- In the storage root stands a directory of a plain name that holds nothing. -/
structure Bare (top : Location) (t : FileTree) (name : Name) : Prop where
  plain : IsPlain name
  addressable : Addressable (name :: top)
  there : t.get? (name :: top) = some .directory
  empty : t.children (name :: top) = []

/-- What a call relies on when it goes on from a stage. -/
def Ready (top : Location) (t : FileTree) (stage : Stage) : Prop :=
  (∀ salt rootId, stage = .making salt rootId → IsPlain rootId) ∧
    ∀ name, stage.holds? = some name → Bare top t name

/-- The three records of a user are new, and they are those of a call. -/
structure Enters (user password salt rootId : String) (v : Vault) (after : Registry) : Prop where
  sound : after.Sound
  noCredential : v.registry.credential? user = none
  noAccount : v.registry.account? user = none
  records : after.records =
    { v.registry.records with
      credential? := update v.registry.credential? user (some ⟨user, salt, hashPassword password salt⟩)
      account? := update v.registry.account? user (some ⟨user, rootId⟩)
      workingDirectory? :=
        update v.registry.workingDirectory? user (some ⟨user, (v.rootPath rootId).text⟩) }

/-- A step changes neither the tree nor the records, or it makes the directory that was drawn where
nothing stood, or it enters the records, or it removes the directory that the call had made. -/
inductive Moves (top : Location) (user password : String) (v : Vault) : Stage → Stage → Vault → Prop
  | quiet {stage stage' : Stage} (entropy : Entropy) (same : stage'.holds? = stage.holds?)
      (pending : ∀ rootId, stage' = .done (.ok rootId) ↔ stage = .done (.ok rootId))
      (plain : ∀ salt rootId, stage' = .making salt rootId → IsPlain rootId) :
      Moves top user password v stage stage' { v with entropy }
  | made {salt rootId : String} (plain : IsPlain rootId) (addressable : Addressable (rootId :: top))
      (free : v.tree.get? (rootId :: top) = none) :
      Moves top user password v (.making salt rootId) (.entering salt rootId)
        { v with tree := v.tree.insert (rootId :: top) .directory }
  | entered {salt rootId : String} {registry : Registry}
      (enters : Enters user password salt rootId v registry) :
      Moves top user password v (.entering salt rootId) (.done (.ok rootId)) { v with registry }
  | dropped {rootId : String} {failure : Failure} :
      Moves top user password v (.dropping rootId failure) (.done (.error failure))
        { v with tree := v.tree.erase (rootId :: top) }

section

variable {top : Location} {v : Vault} {stage : Stage}

/-- A call that fails before it has made a directory leaves everything as it was. -/
theorem Moves.fails {user password : String} {failure : Failure} (before : stage.holds? = none)
    (pending : ∀ outcome, stage ≠ .done outcome) :
    Moves top user password v stage (.done (.error failure)) v :=
  .quiet v.entropy before.symm (fun rootId => by simp [pending]) nofun

theorem moves_of_advance (user password : String) (storage : v.storageRoot = pathTo top)
    (reached : v.tree.Reached top) (directory : v.tree.get? top = some .directory)
    (sound : v.registry.Sound) (ready : Ready top v.tree stage) :
    Moves top user password v stage ((steps user password).advance stage v).1
      ((steps user password).advance stage v).2 := by
  cases stage with
  | looking =>
      have looked := runOn_look user v
      generalize (match Credentials.checkUsername _ _ with | .error _ => _ | .ok () => _ :
        Except Failure Unit) = outcome at looked
      simp only [Procedure.advance, steps, Action.runOn_bind, looked]
      cases outcome with
      | error failure => exact .fails rfl (by simp)
      | ok => exact .quiet v.entropy rfl (by simp) (by simp)
  | drawing =>
      simp only [Procedure.advance, steps, Action.runOn_bind, runOn_drawNames]
      cases Credentials.checkPassword password with
      | error cause => exact .fails rfl (by simp)
      | ok =>
          refine .quiet _ rfl (by simp) fun salt rootId he => ?_
          cases he
          exact v.entropy.salt.2.isPlain_rootId
  | making salt rootId =>
      have plain := ready.1 salt rootId rfl
      simp only [Procedure.advance, steps, Action.runOn_bind, runOn_make,
        Vault.rootPath_eq storage reached.plain plain]
      cases made : v.tree.makeDirectory (pathTo (rootId :: top)) with
      | error fault => exact .fails rfl (by simp)
      | ok tree =>
          obtain ⟨-, addressable, free, rfl⟩ := (reached.names directory plain).makeDirectory_eq_ok.mp made
          exact .made plain addressable free
  | entering salt rootId =>
      simp only [Procedure.advance, steps, Action.runOn_bind, runOn_enter]
      rcases Registry.createAccount_cases sound ⟨user, salt, hashPassword password salt⟩ ⟨user, rootId⟩
        ⟨user, (v.rootPath rootId).text⟩ with ⟨name, he, -⟩ | ⟨after, he, kept, credential, account, records⟩
      · rw [he]
        exact .quiet v.entropy rfl (by simp) (by simp)
      · rw [he]
        exact .entered ⟨kept, credential, account, records⟩
  | dropping rootId failure =>
      have bare := ready.2 rootId rfl
      have gone := ((reached.names directory bare.plain).removeDirectory_eq_ok fun _ => directory).mpr
        ⟨bare.addressable, bare.there, bare.empty, rfl⟩
      simp only [Procedure.advance, steps, Action.runOn_bind, runOn_drop,
        Vault.rootPath_eq storage reached.plain bare.plain, gone]
      exact .dropped
  | done outcome =>
      have same : (steps user password).advance (.done outcome) v = (.done outcome, v) := rfl
      rw [same]
      exact .quiet v.entropy rfl (fun _ => Iff.rfl) (by simp)

end

/-! ## Whose the directories are -/

section

variable {ι : Type} {account? : String → Option Account} {held : ι → Option Name} {owner : String ⊕ ι}
  {name : Name}

/-- A directory belongs to the user whose account it is the root directory of, or to the call that
has made it. -/
inductive Owns (account? : String → Option Account) (held : ι → Option Name) : String ⊕ ι → Name → Prop
  | account {user : String} {account : Account} :
      account? user = some account → Owns account? held (.inl user) account.rootId
  | call {i : ι} {name : Name} : held i = some name → Owns account? held (.inr i) name

theorem owns_call {i : ι} : Owns account? held (.inr i) name ↔ held i = some name := by
  constructor
  · intro owns
    cases owns with
    | call holds => exact holds
  · exact .call

theorem owns_enter {user : String} {account : Account} :
    Owns (update account? user (some account)) held owner name ↔
      owner = .inl user ∧ account.rootId = name ∨ owner ≠ .inl user ∧ Owns account? held owner name := by
  constructor
  · rintro (@⟨other, known, h⟩ | ⟨holds⟩)
    · by_cases here : other = user
      · subst here
        rw [Function.update_self] at h
        exact .inl ⟨rfl, congrArg Account.rootId (Option.some.inj h)⟩
      · rw [Function.update_of_ne here] at h
        exact .inr ⟨fun he => here (Sum.inl.inj he), .account h⟩
    · exact .inr ⟨nofun, .call holds⟩
  · rintro (⟨rfl, rfl⟩ | ⟨other, @⟨name, known, h⟩ | ⟨holds⟩⟩)
    · exact .account (Function.update_self ..)
    · exact .account (by rwa [Function.update_of_ne fun he => other (congrArg Sum.inl he)])
    · exact .call holds

theorem owns_hold [DecidableEq ι] {i : ι} {made : Option Name} :
    Owns account? (update held i made) owner name ↔
      owner = .inr i ∧ made = some name ∨ owner ≠ .inr i ∧ Owns account? held owner name := by
  constructor
  · rintro (⟨known⟩ | @⟨j, _, holds⟩)
    · exact .inr ⟨nofun, .account known⟩
    · by_cases here : j = i
      · subst here
        exact .inl ⟨rfl, by simpa using holds⟩
      · rw [Function.update_of_ne here] at holds
        exact .inr ⟨fun he => here (Sum.inr.inj he), .call holds⟩
  · rintro (⟨rfl, rfl⟩ | ⟨other, ⟨known⟩ | @⟨j, _, holds⟩⟩)
    · exact .call (by simp)
    · exact .account known
    · exact .call (by rwa [Function.update_of_ne fun he => other (congrArg Sum.inr he)])

end

/-! ## What every step keeps -/

section

variable {ι : Type} {top : Location} {s : Crowd ι Stage}

/-- Which directory each call has made. -/
def held (s : Crowd ι Stage) (i : ι) : Option Name :=
  (s.stages i).holds?

/-- The directories in the storage root are those of the accounts and those that calls have made, each
belonging to one of them, and what a call has made is still there and holds nothing. -/
structure Sheltered (top : Location) (s : Crowd ι Stage) : Prop where
  storage : s.vault.storageRoot = pathTo top
  reached : s.vault.tree.Reached top
  directory : s.vault.tree.get? top = some .directory
  grounded : s.vault.tree.Grounded
  sound : s.vault.registry.Sound
  ready : ∀ i, Ready top s.vault.tree (s.stages i)
  roots : ∀ name, s.vault.tree.get? (name :: top) = some .directory ↔
    ∃ owner, Owns s.vault.registry.account? (held s) owner name
  alone : ∀ name a b, Owns s.vault.registry.account? (held s) a name →
    Owns s.vault.registry.account? (held s) b name → a = b

namespace Sheltered

variable {i : ι} {salt rootId : String}

/-- What a call has made belongs to no one else. -/
theorem own (h : Sheltered top s) (holds : held s i = some rootId) {owner : String ⊕ ι}
    (owns : Owns s.vault.registry.account? (held s) owner rootId) : owner = .inr i :=
  h.alone rootId owner (.inr i) owns (.call holds)

/-- When no call holds a directory any more, each directory belongs to an account. -/
theorem housed (h : Sheltered top s) (idle : ∀ i, held s i = none) : s.vault.Housed top := by
  refine ⟨h.storage, h.reached, h.directory, h.grounded, h.sound, fun name => (h.roots name).trans ?_,
    fun user other a b ha hb same => ?_⟩
  · constructor
    · rintro ⟨owner, known | @⟨i, _, holds⟩⟩
      · exact ⟨_, _, known, rfl⟩
      · rw [idle i] at holds
        cases holds
    · rintro ⟨user, account, known, rfl⟩
      exact ⟨.inl user, .account known⟩
  · exact Sum.inl.inj (h.alone a.rootId (.inl user) (.inl other) (.account ha) (same ▸ .account hb))

/-- The records of a new user can be entered, since no account has the directory that the call has made. -/
theorem enters (h : Sheltered top s) (entering : s.stages i = .entering salt rootId) {user : String}
    (noCredential : s.vault.registry.credential? user = none)
    (noAccount : s.vault.registry.account? user = none) (password : String) :
    ((steps user password).advance (s.stages i) s.vault).1 = .done (.ok rootId) := by
  have vacant (name : String) (account : Account) (known : s.vault.registry.account? name = some account) :
      account.rootId ≠ rootId := by
    rintro rfl
    have holds : held s i = some account.rootId := by
      rw [held, entering]
      rfl
    cases h.own holds (.account known)
  obtain ⟨after, he, -⟩ := Registry.createAccount_of_vacant h.sound
    ⟨user, salt, hashPassword password salt⟩ ⟨user, rootId⟩ ⟨user, (s.vault.rootPath rootId).text⟩
    noCredential noAccount vacant
  rw [entering]
  simp only [Procedure.advance, steps, Action.runOn_bind, runOn_enter, he]
  rfl

variable [DecidableEq ι]

theorem held_update (v : Vault) (i : ι) (stage : Stage) :
    held ⟨v, update s.stages i stage⟩ = update (held s) i stage.holds? := by
  funext j
  by_cases here : j = i
  · subst here
    simp [held]
  · simp [held, Function.update_of_ne here]

/-- The stages of the other calls are as they were. -/
theorem ready_update {t : FileTree} {stage : Stage} (here : Ready top t stage)
    (others : ∀ j, j ≠ i → Ready top t (s.stages j)) (j : ι) : Ready top t (update s.stages i stage j) := by
  by_cases same : j = i
  · subst same
    rwa [Function.update_self]
  · rw [Function.update_of_ne same]
    exact others j same

theorem quiet (h : Sheltered top s) {stage : Stage} (same : stage.holds? = (s.stages i).holds?)
    (plain : ∀ salt rootId, stage = .making salt rootId → IsPlain rootId) (entropy : Entropy) :
    Sheltered top ⟨{ s.vault with entropy }, update s.stages i stage⟩ := by
  have kept : held ⟨{ s.vault with entropy }, update s.stages i stage⟩ = held s := by
    rw [held_update, same]
    exact Function.update_eq_self i (held s)
  refine ⟨h.storage, h.reached, h.directory, h.grounded, h.sound, ?_, ?_, ?_⟩
  · exact ready_update ⟨plain, fun name holds => (h.ready i).2 name (same ▸ holds)⟩ fun j _ => h.ready j
  · rw [kept]
    exact h.roots
  · rw [kept]
    exact h.alone

theorem made (h : Sheltered top s) (before : held s i = none) (plain : IsPlain rootId)
    (addressable : Addressable (rootId :: top)) (free : s.vault.tree.get? (rootId :: top) = none) :
    Sheltered top ⟨{ s.vault with tree := s.vault.tree.insert (rootId :: top) .directory },
      update s.stages i (.entering salt rootId)⟩ := by
  have here : rootId :: top ≠ [] := List.cons_ne_nil _ _
  have above {l : Location} (hl : l <:+ top) :
      (s.vault.tree.insert (rootId :: top) .directory).get? l = s.vault.tree.get? l :=
    get?_insert_of_ne here (ne_of_suffix hl)
  have beside {name : Name} (other : name ≠ rootId) :
      (s.vault.tree.insert (rootId :: top) .directory).get? (name :: top) =
        s.vault.tree.get? (name :: top) :=
    get?_insert_of_ne here fun he => other (List.cons.inj he).1
  have bare {name : Name} (hc : s.vault.tree.children (name :: top) = []) :
      (s.vault.tree.insert (rootId :: top) .directory).children (name :: top) = [] :=
    children_insert_of_ne (ne_of_suffix (List.suffix_refl _)) hc
  have vacant (owner : String ⊕ ι) : ¬ Owns s.vault.registry.account? (held s) owner rootId := fun owns => by
    have := (h.roots rootId).mpr ⟨owner, owns⟩
    rw [free] at this
    cases this
  refine ⟨h.storage, h.reached.of_same fun l hl => above hl, (above (List.suffix_refl _)).trans h.directory,
    h.grounded.insert h.directory (.inl rfl), h.sound, ?_, fun name => ?_, fun name a b => ?_⟩
  · refine ready_update ⟨nofun, fun name holds => ?_⟩ fun j _ => ⟨(h.ready j).1, fun name holds => ?_⟩
    · obtain rfl := Option.some.inj holds
      exact ⟨plain, addressable, get?_insert_self here, bare (h.grounded _ (by simp [free]))⟩
    · have old := (h.ready j).2 name holds
      have other : name ≠ rootId := by
        rintro rfl
        exact vacant _ (.call holds)
      exact ⟨old.plain, old.addressable, (beside other).trans old.there, bare old.empty⟩
  · simp only [held_update, owns_hold, Stage.holds?, Option.some.injEq]
    by_cases same : rootId = name
    · subst same
      exact ⟨fun _ => ⟨.inr i, .inl ⟨rfl, rfl⟩⟩, fun _ => get?_insert_self here⟩
    · rw [beside (Ne.symm same), h.roots name]
      refine exists_congr fun owner => ?_
      simp only [same, and_false, false_or, iff_and_self]
      rintro owns rfl
      rw [owns_call, before] at owns
      cases owns
  · simp only [held_update, owns_hold, Stage.holds?, Option.some.injEq]
    rintro (⟨rfl, rfl⟩ | ⟨-, ha⟩) (⟨rfl, same⟩ | ⟨-, hb⟩)
    · rfl
    · exact absurd hb (vacant b)
    · exact absurd (same ▸ ha) (vacant a)
    · exact h.alone name a b ha hb

/-- The directory passes from the call to the user. -/
theorem entered (h : Sheltered top s) (holds : held s i = some rootId) {user password : String}
    {registry : Registry} (enters : Enters user password salt rootId s.vault registry) :
    Sheltered top ⟨{ s.vault with registry }, update s.stages i (.done (.ok rootId))⟩ := by
  have accounts : registry.account? = update s.vault.registry.account? user (some ⟨user, rootId⟩) :=
    congrArg Registry.Records.account? enters.records
  have new (name : Name) : ¬ Owns s.vault.registry.account? (held s) (.inl user) name := fun owns => by
    cases owns with
    | account known =>
        rw [enters.noAccount] at known
        cases known
  refine ⟨h.storage, h.reached, h.directory, h.grounded, enters.sound, ?_, fun name => ?_,
    fun name a b => ?_⟩
  · exact ready_update ⟨nofun, nofun⟩ fun j _ => h.ready j
  · simp only [h.roots name, accounts, held_update, owns_enter, owns_hold, Stage.holds?, reduceCtorEq,
      and_false, false_or]
    constructor
    · rintro ⟨owner, owns⟩
      by_cases call : owner = .inr i
      · subst call
        have same : rootId = name := Option.some.inj (holds.symm.trans (owns_call.mp owns))
        exact ⟨.inl user, nofun, .inl ⟨rfl, same⟩⟩
      · refine ⟨owner, call, .inr ⟨?_, owns⟩⟩
        rintro rfl
        exact new name owns
    · rintro ⟨owner, -, ⟨-, rfl⟩ | ⟨-, owns⟩⟩
      · exact ⟨.inr i, .call holds⟩
      · exact ⟨owner, owns⟩
  · simp only [accounts, held_update, owns_enter, owns_hold, Stage.holds?, reduceCtorEq, and_false,
      false_or]
    rintro ⟨away, ⟨rfl, rfl⟩ | ⟨-, ha⟩⟩ ⟨away', ⟨rfl, same⟩ | ⟨-, hb⟩⟩
    · rfl
    · exact absurd (h.own holds hb) away'
    · exact absurd (h.own holds (same ▸ ha)) away
    · exact h.alone name a b ha hb

theorem dropped (h : Sheltered top s) (holds : held s i = some rootId) {failure : Failure} :
    Sheltered top ⟨{ s.vault with tree := s.vault.tree.erase (rootId :: top) },
      update s.stages i (.done (.error failure))⟩ := by
  have bare := (h.ready i).2 rootId holds
  have here : rootId :: top ≠ [] := List.cons_ne_nil _ _
  have above {l : Location} (hl : l <:+ top) :
      (s.vault.tree.erase (rootId :: top)).get? l = s.vault.tree.get? l :=
    get?_erase_of_ne here (ne_of_suffix hl)
  have beside {name : Name} (other : name ≠ rootId) :
      (s.vault.tree.erase (rootId :: top)).get? (name :: top) = s.vault.tree.get? (name :: top) :=
    get?_erase_of_ne here fun he => other (List.cons.inj he).1
  refine ⟨h.storage, h.reached.of_same fun l hl => above hl, (above (List.suffix_refl _)).trans h.directory,
    h.grounded.erase bare.empty, h.sound, ?_, fun name => ?_, fun name a b => ?_⟩
  · refine ready_update ⟨nofun, nofun⟩ fun j away => ⟨(h.ready j).1, fun name kept => ?_⟩
    have old := (h.ready j).2 name kept
    have other : name ≠ rootId := by
      rintro rfl
      exact away (Sum.inr.inj (h.own holds (.call kept)))
    exact ⟨old.plain, old.addressable, (beside other).trans old.there,
      List.sublist_nil.mp (old.empty ▸ children_erase_sublist)⟩
  · simp only [held_update, owns_hold, Stage.holds?, reduceCtorEq, and_false, false_or]
    by_cases same : name = rootId
    · subst same
      rw [get?_erase _ here, if_pos rfl]
      refine ⟨nofun, ?_⟩
      rintro ⟨owner, away, owns⟩
      exact absurd (h.own holds owns) away
    · rw [beside same, h.roots name]
      refine exists_congr fun owner => ?_
      simp only [iff_and_self]
      rintro owns rfl
      exact same (Option.some.inj ((owns_call.mp owns).symm.trans holds))
  · simp only [held_update, owns_hold, Stage.holds?, reduceCtorEq, and_false, false_or]
    rintro ⟨-, ha⟩ ⟨-, hb⟩
    exact h.alone name a b ha hb

theorem moves (h : Sheltered top s) {user password : String} {stage : Stage} {v : Vault}
    (m : Moves top user password s.vault (s.stages i) stage v) :
    Sheltered top ⟨v, update s.stages i stage⟩ := by
  generalize from_ : s.stages i = old at m
  cases m with
  | quiet entropy same pending plain => exact h.quiet (from_ ▸ same) plain entropy
  | made plain addressable free => exact h.made (by rw [held, from_]; rfl) plain addressable free
  | entered enters => exact h.entered (by rw [held, from_]; rfl) enters
  | dropped => exact h.dropped (by rw [held, from_]; rfl)

end Sheltered

/-! ## Whose the records are -/

/-- Which root directory a call has got for its user. -/
def won (s : Crowd ι Stage) (i : ι) (rootId : String) : Prop :=
  s.stages i = .done (.ok rootId)

/-- The records of a user are those that a call with this password has entered. -/
structure Holds (v : Vault) (user password rootId : String) : Prop where
  credential : ∃ salt, v.registry.credential? user = some ⟨user, salt, hashPassword password salt⟩
  account : v.registry.account? user = some ⟨user, rootId⟩
  workingDirectory : v.registry.workingDirectory? user = some ⟨user, (v.rootPath rootId).text⟩

/-- A user has the same records before and after, or none before and after. -/
structure Untouched (before after : Vault) (user : String) : Prop where
  credential : after.registry.credential? user = before.registry.credential? user
  account : after.registry.account? user = before.registry.account? user
  workingDirectory : after.registry.workingDirectory? user = before.registry.workingDirectory? user

variable {before : Vault} {user password : ι → String}

/-- A user for whom a call has succeeded was new and has the records of that call, and no other call
has succeeded for that user.  The other users' records are as they were before all calls. -/
structure Recorded (before : Vault) (user password : ι → String) (s : Crowd ι Stage) : Prop where
  new : ∀ i rootId, won s i rootId →
    before.registry.credential? (user i) = none ∧ before.registry.account? (user i) = none
  holds : ∀ i rootId, won s i rootId → Holds s.vault (user i) (password i) rootId
  once : ∀ i j a b, won s i a → won s j b → user i = user j → i = j
  others : ∀ name, (∀ i rootId, won s i rootId → user i ≠ name) → Untouched before s.vault name

namespace Recorded

variable {i : ι} {salt rootId : String}

/-- Steps of calls that do not succeed leave the successes as they are. -/
theorem unmoved (h : Recorded before user password s) {after : Crowd ι Stage}
    (same : ∀ i rootId, won after i rootId ↔ won s i rootId)
    (registry : after.vault.registry = s.vault.registry)
    (storage : after.vault.storageRoot = s.vault.storageRoot) : Recorded before user password after := by
  have kept {name word rootId : String} (h : Holds s.vault name word rootId) :
      Holds after.vault name word rootId := by
    obtain ⟨credential, account, workingDirectory⟩ := h
    exact ⟨registry ▸ credential, registry ▸ account, by
      rw [registry, workingDirectory, Vault.rootPath, Vault.rootPath, storage]⟩
  refine ⟨fun i rootId w => h.new i rootId ((same i rootId).mp w),
    fun i rootId w => kept (h.holds i rootId ((same i rootId).mp w)),
    fun i j a b wa wb => h.once i j a b ((same i a).mp wa) ((same j b).mp wb), fun name away => ?_⟩
  obtain ⟨credential, account, workingDirectory⟩ := h.others name fun i rootId w =>
    away i rootId ((same i rootId).mpr w)
  exact ⟨registry ▸ credential, registry ▸ account, registry ▸ workingDirectory⟩

/-- The directories that are new are those of the calls that have succeeded. -/
theorem directory_iff (h : Recorded before user password s) (housed : before.Housed top)
    (again : s.vault.Housed top) {name : Name} :
    s.vault.tree.get? (name :: top) = some .directory ↔
      before.tree.get? (name :: top) = some .directory ∨ ∃ i, won s i name := by
  rw [again.roots, housed.roots]
  constructor
  · rintro ⟨known, account, ha, rfl⟩
    by_cases winner : ∃ i rootId, won s i rootId ∧ user i = known
    · obtain ⟨i, rootId, w, rfl⟩ := winner
      rw [(h.holds i rootId w).account] at ha
      obtain rfl := Option.some.inj ha
      exact .inr ⟨i, w⟩
    · have same := (h.others known fun i rootId w he => winner ⟨i, rootId, w, he⟩).account
      exact .inl ⟨known, account, same ▸ ha, rfl⟩
  · rintro (⟨known, account, ha, rfl⟩ | ⟨i, w⟩)
    · have same := (h.others known fun i rootId w he => by
        rw [← he, (h.new i rootId w).2] at ha
        cases ha).account
      exact ⟨known, account, same.trans ha, rfl⟩
    · exact ⟨user i, _, (h.holds i name w).account, rfl⟩

variable [DecidableEq ι]

theorem won_update {v : Vault} {stage : Stage} {j : ι} :
    won ⟨v, update s.stages i stage⟩ j rootId ↔
      j = i ∧ stage = .done (.ok rootId) ∨ j ≠ i ∧ won s j rootId := by
  by_cases here : j = i
  · subst here
    simp [won]
  · simp [won, here]

/-- A step of a call that has the same success before and after it. -/
theorem still (h : Recorded before user password s) {stage : Stage} {v : Vault}
    (pending : ∀ rootId, stage = .done (.ok rootId) ↔ s.stages i = .done (.ok rootId))
    (registry : v.registry = s.vault.registry) (storage : v.storageRoot = s.vault.storageRoot) :
    Recorded before user password ⟨v, update s.stages i stage⟩ := by
  refine h.unmoved (fun j rootId => ?_) registry storage
  rw [won_update]
  by_cases here : j = i
  · subst here
    simp [won, pending]
  · simp [here]

theorem entered (h : Recorded before user password s) (stage : s.stages i = .entering salt rootId)
    {registry : Registry} (enters : Enters (user i) (password i) salt rootId s.vault registry) :
    Recorded before user password ⟨{ s.vault with registry }, update s.stages i (.done (.ok rootId))⟩ := by
  have records := enters.records
  simp only [Registry.records, Registry.Records.mk.injEq] at records
  obtain ⟨credentials, accounts, directories, -⟩ := records
  have another (j : ι) (b : String) (w : won s j b) : user j ≠ user i := fun he => by
    obtain ⟨salt, known⟩ := (h.holds j b w).credential
    rw [he, enters.noCredential] at known
    cases known
  have untouched := h.others (user i) another
  refine ⟨fun j b w => ?_, fun j b w => ?_, fun j k a b wj wk he => ?_, fun name away => ?_⟩
  · rcases won_update.mp w with ⟨rfl, -⟩ | ⟨-, w⟩
    · exact ⟨untouched.credential ▸ enters.noCredential, untouched.account ▸ enters.noAccount⟩
    · exact h.new j b w
  · rcases won_update.mp w with ⟨rfl, he⟩ | ⟨-, w⟩
    · cases he
      exact ⟨⟨salt, by rw [credentials, Function.update_self]⟩, by rw [accounts, Function.update_self],
        by rw [directories, Function.update_self]; rfl⟩
    · obtain ⟨⟨salt, credential⟩, account, workingDirectory⟩ := h.holds j b w
      have other := another j b w
      exact ⟨⟨salt, by rw [credentials, Function.update_of_ne other, credential]⟩,
        by rw [accounts, Function.update_of_ne other, account],
        by rw [directories, Function.update_of_ne other, workingDirectory]; rfl⟩
  · rcases won_update.mp wj with ⟨hj, -⟩ | ⟨-, wj⟩ <;> rcases won_update.mp wk with ⟨hk, -⟩ | ⟨-, wk⟩
    · rw [hj, hk]
    · exact absurd (hj ▸ he.symm) (another k b wk)
    · exact absurd (hk ▸ he) (another j a wj)
    · exact h.once j k a b wj wk he
  · have other : name ≠ user i := (away i rootId (won_update.mpr (.inl ⟨rfl, rfl⟩))).symm
    obtain ⟨credential, account, workingDirectory⟩ := h.others name fun j b w => by
      refine away j b (won_update.mpr (.inr ⟨?_, w⟩))
      rintro rfl
      rw [won, stage] at w
      cases w
    exact ⟨by rw [credentials, Function.update_of_ne other, credential],
      by rw [accounts, Function.update_of_ne other, account],
      by rw [directories, Function.update_of_ne other, workingDirectory]⟩

theorem moves (h : Recorded before user password s) {stage : Stage} {v : Vault}
    (m : Moves top (user i) (password i) s.vault (s.stages i) stage v) :
    Recorded before user password ⟨v, update s.stages i stage⟩ := by
  generalize from_ : s.stages i = old at m
  cases m with
  | quiet entropy same pending plain => exact h.still (from_ ▸ pending) rfl rfl
  | made plain addressable free => exact h.still (by simp [from_]) rfl rfl
  | entered enters => exact h.entered from_ enters
  | dropped => exact h.still (by simp [from_]) rfl rfl

end Recorded

end

/-! ## The race -/

section

variable {ι : Type} {top : Location} {v : Vault}

/-- Calls that make accounts for these users with these passwords. -/
def calls (user password : ι → String) (i : ι) : Procedure Stage :=
  steps (user i) (password i)

/-- A vault before any of the calls has taken a step. -/
def start (v : Vault) : Crowd ι Stage :=
  ⟨v, fun _ => .looking⟩

theorem sheltered_start (h : v.Housed top) : Sheltered top (start v : Crowd ι Stage) := by
  have owns (owner : String ⊕ ι) (name : Name) :
      Owns v.registry.account? (held (start v)) owner name →
        ∃ user account, owner = .inl user ∧ v.registry.account? user = some account ∧
          account.rootId = name := by
    rintro (known | holds)
    · exact ⟨_, _, rfl, known, rfl⟩
    · cases holds
  refine ⟨h.storage, h.reached, h.directory, h.grounded, h.sound, fun i => ⟨nofun, nofun⟩,
    fun name => (h.roots name).trans ?_, fun name a b ha hb => ?_⟩
  · constructor
    · rintro ⟨user, account, known, rfl⟩
      exact ⟨.inl user, .account known⟩
    · rintro ⟨owner, ho⟩
      obtain ⟨user, account, -, known, same⟩ := owns owner name ho
      exact ⟨user, account, known, same⟩
  · obtain ⟨user, account, rfl, known, same⟩ := owns a name ha
    obtain ⟨other, account', rfl, known', same'⟩ := owns b name hb
    rw [h.alone user other _ _ known known' (same.trans same'.symm)]

theorem recorded_start (user password : ι → String) : Recorded v user password (start v) :=
  ⟨nofun, nofun, nofun, fun _ _ => ⟨rfl, rfl, rfl⟩⟩

variable [DecidableEq ι]

/-- At every moment both hold. -/
theorem kept_after (h : v.Housed top) (user password : ι → String) (turns : List (Turn ι)) :
    Sheltered top ((start v).after (calls user password) turns) ∧
      Recorded v user password ((start v).after (calls user password) turns) := by
  refine Crowd.after_induction (P := fun s => Sheltered top s ∧ Recorded v user password s)
    ⟨sheltered_start h, recorded_start user password⟩ turns (fun s i kept => ?_) fun s now kept => ?_
  · obtain ⟨sheltered, recorded⟩ := kept
    have moves := moves_of_advance (user i) (password i) sheltered.storage sheltered.reached
      sheltered.directory sheltered.sound (sheltered.ready i)
    exact ⟨sheltered.moves moves, recorded.moves moves⟩
  · obtain ⟨sheltered, recorded⟩ := kept
    exact ⟨⟨sheltered.storage, sheltered.reached, sheltered.directory, sheltered.grounded, sheltered.sound,
      sheltered.ready, sheltered.roots, sheltered.alone⟩, recorded.unmoved (fun _ _ => Iff.rfl) rfl rfl⟩

/-- Signups may come between each other in any way.  At every moment the root directory of each account is
there, at most one call has succeeded for each user, and a call that comes to enter its records while the
user has none succeeds.  When all calls have their outcome, the directories in the storage root are those of
the accounts again, one for each; the users for whom a call has succeeded have the records of that call, and
the others have what they had; and the directories are those that were there before and those of the calls
that have succeeded. -/
theorem signups_in_any_order (housed : v.Housed top) (user password : ι → String) (turns : List (Turn ι)) :
    let s := (start v).after (calls user password) turns
    (∀ name account, s.vault.registry.account? name = some account →
      s.vault.tree.get? (account.rootId :: top) = some .directory) ∧
    (∀ i j a b, s.stages i = .done (.ok a) → s.stages j = .done (.ok b) → user i = user j → i = j) ∧
    (∀ i salt rootId, s.stages i = .entering salt rootId → s.vault.registry.credential? (user i) = none →
      s.vault.registry.account? (user i) = none →
      (s.turn (calls user password) (.step i)).stages i = .done (.ok rootId)) ∧
    ((∀ i, ∃ outcome, s.stages i = .done outcome) →
      s.vault.Housed top ∧
      (∀ i rootId, s.stages i = .done (.ok rootId) → Holds s.vault (user i) (password i) rootId) ∧
      (∀ name, (∀ i rootId, s.stages i = .done (.ok rootId) → user i ≠ name) →
        Untouched v s.vault name) ∧
      ∀ name, s.vault.tree.get? (name :: top) = some .directory ↔
        v.tree.get? (name :: top) = some .directory ∨ ∃ i, s.stages i = .done (.ok name)) := by
  intro s
  obtain ⟨sheltered, recorded⟩ := kept_after housed user password turns
  refine ⟨fun name account known => (sheltered.roots _).mpr ⟨.inl name, .account known⟩, recorded.once,
    fun i salt rootId entering noCredential noAccount => ?_, fun finished => ?_⟩
  · rw [Crowd.stages_turn]
    exact sheltered.enters entering noCredential noAccount (password i)
  have idle (i : ι) : held s i = none := by
    obtain ⟨outcome, he⟩ := finished i
    rw [held, he]
    rfl
  have again := sheltered.housed idle
  exact ⟨again, recorded.holds, recorded.others, fun name => recorded.directory_iff housed again⟩

end

theorem housed_sample : (Vault.sample (.tables .empty)).Housed ["vault"] := by
  have nothing (name : Name) : (Vault.sample (.tables .empty)).tree.get? (name :: ["vault"]) = none := by
    simp [Vault.sample, FileTree.get?]
  refine ⟨by decide, ⟨fun name hn => ?_, fun above ha hne => ?_⟩, by decide, fun location other => ?_, ?_,
    fun name => ?_, fun user other a b known => by cases known⟩
  · obtain rfl := List.mem_singleton.mp hn
    exact ⟨by decide, by decide, by decide, by decide⟩
  · rcases List.suffix_cons_iff.mp ha with he | ha
    · exact absurd he hne
    · rw [List.suffix_nil.mp ha]
      rfl
  · rw [List.eq_nil_iff_forall_not_mem]
    rintro ⟨name, entry⟩ hm
    have := mem_children.mp hm
    simp only [Vault.sample, List.mem_singleton, Prod.mk.injEq, List.cons.injEq] at this
    exact other (this.1.2 ▸ rfl)
  · exact ⟨List.nodup_nil, List.nodup_nil⟩
  · rw [nothing]
    constructor
    · intro there
      cases there
    · rintro ⟨user, account, known, -⟩
      cases known

def samplePassword : Bool → String
  | true => "Passw0rd"
  | false => "Passw1rd"

/-- Two calls for one user, both of which look the user up before either of them enters its records. -/
def sampleCrowd : Crowd Bool Stage :=
  (start (.sample (.tables .empty))).after (calls (fun _ => "ada") samplePassword)
    [.step false, .step true, .step true, .step false, .clock 5, .step false, .step true, .step true,
      .step false, .step false]

/-- One call succeeds, and the other one removes the directory that it made. -/
theorem signups_in_any_order_twins :
    (Vault.sample (.tables .empty)).Housed ["vault"] ∧ (∀ i, ∃ outcome, sampleCrowd.stages i = .done outcome) ∧
      sampleCrowd.stages false = .done (.error (.conflict "ada")) ∧ sampleCrowd.vault.Housed ["vault"] ∧
      Holds sampleCrowd.vault "ada" "Passw0rd" "r1011121314151617" := by
  have won : sampleCrowd.stages true = .done (.ok "r1011121314151617") := by decide +kernel
  have lost : sampleCrowd.stages false = .done (.error (.conflict "ada")) := by decide +kernel
  have finished (i : Bool) : ∃ outcome, sampleCrowd.stages i = .done outcome := by
    cases i
    · exact ⟨_, lost⟩
    · exact ⟨_, won⟩
  have law := (signups_in_any_order housed_sample (fun _ => "ada") samplePassword _).2.2.2 finished
  exact ⟨housed_sample, finished, lost, law.1, law.2.1 true _ won⟩

end Signup

end Strongroom
