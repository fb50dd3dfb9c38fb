import Strongroom.Proofs.FileTree.Distinct
import Strongroom.Proofs.Vault.Runs
/-!
# Records and directories in step

The records of a vault and the directories in its storage root speak of the same users: whoever has
one kind of record has the others, and a root directory stands for each account and for nothing else.
Working directories lie at or below the root directories of their users.
-/

namespace Strongroom

open FileTree Strongroom.Path Registry Sessions
open Function (update update_apply update_of_ne)

namespace Vault

/-- The entries below the storage root are found under paths that the host takes, those directly in
it are the root directories of accounts, and every account comes with a working directory at or below
its root directory. -/
structure InStep (top : Location) (v : Vault) : Prop where
  distinct : v.tree.Distinct top
  addressable : ∀ location, isBelow top location = true → v.tree.get? location ≠ none →
    Addressable location
  roots : ∀ name, v.tree.get? (name :: top) ≠ none →
    ∃ user account, v.registry.account? user = some account ∧ account.rootId = name
  directories : ∀ user, v.registry.workingDirectory? user = none ↔ v.registry.account? user = none
  within : ∀ user account directory, v.registry.account? user = some account →
    v.registry.workingDirectory? user = some directory →
    ∃ location, account.rootId :: top <:+ location ∧ (∀ n ∈ location, IsPlain n) ∧
      directory.path = (pathTo location).text

variable {top : Location} {v v' : Vault} {user : String}

namespace InStep

/-! ## Changes -/

/-- Sessions and credentials have no part in it. -/
theorem withRegistry (h : v.InStep top) {registry : Registry} {entropy : Entropy}
    (accounts : registry.account? = v.registry.account?)
    (directories : registry.workingDirectory? = v.registry.workingDirectory?) :
    InStep top { v with registry, entropy } where
  distinct := h.distinct
  addressable := h.addressable
  roots := by
    simp only [accounts]
    exact h.roots
  directories := by
    simp only [accounts, directories]
    exact h.directories
  within := by
    simp only [accounts, directories]
    exact h.within

/-- A user may be moved to any place at or below the user's root directory. -/
theorem moved (h : v.InStep top) {registry : Registry} {entropy : Entropy} {account : Account}
    (known : v.registry.account? user = some account) {location : Location}
    (inside : account.rootId :: top <:+ location) (plain : ∀ n ∈ location, IsPlain n)
    (accounts : registry.account? = v.registry.account?)
    (directories : registry.workingDirectory? =
      update v.registry.workingDirectory? user (some ⟨user, (pathTo location).text⟩)) :
    InStep top { v with registry, entropy } where
  distinct := h.distinct
  addressable := h.addressable
  roots := by
    simp only [accounts]
    exact h.roots
  directories := fun other => by
    simp only [accounts, directories, update_apply]
    split
    · rename_i same
      simp [same, known]
    · exact h.directories other
  within := fun other b directory found recorded => by
    simp only [accounts, directories, update_apply] at found recorded
    split at recorded
    · rename_i same
      subst same
      obtain rfl := Option.some.inj recorded
      obtain rfl := Option.some.inj (found.symm.trans known)
      exact ⟨location, inside, plain, rfl⟩
    · exact h.within other b directory found recorded

/-- A new account comes with its root directory and a working directory there. -/
theorem signedUp (h : v.InStep top) (settled : v.Settled top) {rootId : String}
    {registry : Registry} {entropy : Entropy} (plain : IsPlain rootId)
    (addressable : Addressable (rootId :: top))
    (accounts : registry.account? = update v.registry.account? user (some ⟨user, rootId⟩))
    (directories : registry.workingDirectory? =
      update v.registry.workingDirectory? user (some ⟨user, (pathTo (rootId :: top)).text⟩))
    (unknown : v.registry.account? user = none) :
    InStep top { v with tree := v.tree.insert (rootId :: top) .directory, registry, entropy } where
  distinct := h.distinct.insert _ _
  addressable := fun location hb found => by
    by_cases here : location = rootId :: top
    · exact here ▸ addressable
    · simp only [get?_insert_of_ne (List.cons_ne_nil rootId top) here] at found
      exact h.addressable location hb found
  roots := fun name found => by
    simp only [accounts]
    by_cases here : name = rootId
    · exact ⟨user, _, Function.update_self .., here.symm⟩
    · simp only [get?_insert_of_ne (List.cons_ne_nil rootId top)
        (fun same => here (List.cons.inj same).1)] at found
      obtain ⟨other, account, known, he⟩ := h.roots name found
      have hne : other ≠ user := fun same => by
        rw [same, unknown] at known
        cases known
      exact ⟨other, account, (update_of_ne hne ..).trans known, he⟩
  directories := fun other => by
    simp only [accounts, directories, update_apply]
    split
    · simp
    · exact h.directories other
  within := fun other b directory found recorded => by
    simp only [accounts, directories, update_apply] at found recorded
    split at recorded
    · rename_i same
      rw [if_pos same] at found
      obtain rfl := Option.some.inj found
      obtain rfl := Option.some.inj recorded
      refine ⟨rootId :: top, List.suffix_refl _, fun n hn => ?_, rfl⟩
      rcases List.mem_cons.mp hn with rfl | hn
      · exact plain
      · exact settled.rooted.plain n hn
    · rename_i other_
      rw [if_neg other_] at found
      exact h.within other b directory found recorded

/-- With an account go its records and its root directory. -/
theorem deleted (h : v.InStep top) (settled : v.Settled top) {account : Account}
    (known : v.registry.account? user = some account) :
    InStep top
      { v with
        tree := (v.tree.clear (account.rootId :: top)).erase (account.rootId :: top)
        registry := v.forgetting user } := by
  have answers := records_forgetting settled.sound user
  have accounts : (v.forgetting user).account? = update v.registry.account? user none :=
    congrArg Records.account? answers
  have directories : (v.forgetting user).workingDirectory? =
      update v.registry.workingDirectory? user none := congrArg Records.workingDirectory? answers
  -- what is left was there before, and the accounts of all others are
  have kept : ∀ location,
      ((v.tree.clear (account.rootId :: top)).erase (account.rootId :: top)).get? location ≠ none →
      location ≠ account.rootId :: top ∧ v.tree.get? location ≠ none := by
    intro location found
    rw [get?_erase _ (List.cons_ne_nil _ _), get?_clear] at found
    split at found
    · exact absurd rfl found
    · rename_i away
      split at found
      · exact absurd rfl found
      · exact ⟨away, found⟩
  refine ⟨(h.distinct.clear _).erase _, fun location hb found => ?_, fun name found => ?_,
    fun other => ?_, fun other b directory found recorded => ?_⟩
  · exact h.addressable location hb (kept location found).2
  · obtain ⟨away, found⟩ := kept _ found
    obtain ⟨other, b, hb, rfl⟩ := h.roots name found
    have hne : other ≠ user := fun same => by
      subst same
      obtain rfl := Option.some.inj (hb.symm.trans known)
      exact away rfl
    exact ⟨other, b, by rw [accounts, update_of_ne hne, hb], rfl⟩
  · simp only [accounts, directories, update_apply]
    split
    · simp
    · exact h.directories other
  · simp only [accounts, directories, update_apply] at found recorded
    split at recorded
    · cases recorded
    · rename_i hne
      rw [if_neg hne] at found
      exact h.within other b directory found recorded

/-- What is put below a root directory is no root directory. -/
theorem inserted (h : v.InStep top) {session : Session} {account : Account} {name : Name}
    {parent : Location} {entry : Entry} (target : v.Target top session account name parent) :
    InStep top { v with tree := v.tree.insert (name :: parent) entry } where
  distinct := h.distinct.insert _ _
  addressable := fun location hb found => by
    by_cases here : location = name :: parent
    · exact here ▸ target.addressable
    · simp only [get?_insert_of_ne (List.cons_ne_nil name parent) here] at found
      exact h.addressable location hb found
  roots := fun rootId found => by
    simp only [get?_insert_of_ne (List.cons_ne_nil name parent) (target.root_ne rootId)] at found
    exact h.roots rootId found
  directories := h.directories
  within := h.within

theorem erased (h : v.InStep top) {session : Session} {account : Account} {name : Name}
    {parent : Location} (target : v.Target top session account name parent) :
    InStep top { v with tree := v.tree.erase (name :: parent) } where
  distinct := h.distinct.erase _
  addressable := fun location hb found => by
    simp only [get?_erase v.tree (List.cons_ne_nil name parent)] at found
    split at found
    · exact absurd rfl found
    · exact h.addressable location hb found
  roots := fun rootId found => by
    simp only [get?_erase_of_ne (List.cons_ne_nil name parent) (target.root_ne rootId)] at found
    exact h.roots rootId found
  directories := h.directories
  within := h.within

end InStep

/-! ## Requests -/

/-- Where a request takes its user is at or below the user's root directory. -/
theorem Settled.goal (h : v.Settled top) {account : Account}
    (known : v.registry.account? user = some account) {s : Sandbox} (own : v.sandbox? user = some s)
    (request : Request) :
    ∃ location, account.rootId :: top <:+ location ∧ (∀ n ∈ location, IsPlain n) ∧
      request.goal s = pathTo location := by
  obtain ⟨s', own', hs⟩ := h.sandbox known
  obtain rfl := Option.some.inj (own.symm.trans own')
  cases request with
  | cd token raw => exact hs.resolve (h.plain_root known) ⟨raw⟩
  | _ => exact ⟨_, List.suffix_refl _, h.plain_root known, hs.root_eq⟩

/-- Whatever a request does, records and directories stay in step. -/
theorem Does.inStep {request : Request} {response : Response} (settled : v.Settled top)
    (h : v.InStep top) (does : Does top v request response v') : v'.InStep top := by
  cases does with
  | refused => exact h.withRegistry rfl rfl
  | expired =>
      have answers := records_deleteSession v.registry
      exact h.withRegistry (congrArg Records.account? (answers _))
        (congrArg Records.workingDirectory? (answers _))
  | signedUp plain directory addressable free unknown sound answers =>
      exact h.signedUp settled plain addressable (congrArg Records.account? answers)
        (congrArg Records.workingDirectory? answers) ((settled.paired _).mp unknown)
  | loggedIn known sound answers home =>
      subst home
      exact h.moved known (List.suffix_refl _) (settled.plain_root known)
        (congrArg Records.account? answers) (congrArg Records.workingDirectory? answers)
  | loggedOut =>
      have answers := records_deleteSessionsFor settled.sound.sessions
      exact h.withRegistry (congrArg Records.account? (answers _))
        (congrArg Records.workingDirectory? (answers _))
  | deleted accepts known => exact h.deleted settled known
  | @moved request token session path registry reply s moves accepts sound answers own lands =>
      obtain ⟨account, known⟩ := settled.owner accepts.found
      obtain ⟨location, inside, plain, he⟩ := settled.goal known own request
      rw [he] at lands
      subst lands
      exact h.moved known inside plain (congrArg Records.account? answers)
        (congrArg Records.workingDirectory? answers)
  | looked => exact h
  | uploaded accepts target => exact h.inserted target
  | madeDirectory accepts target => exact h.inserted target
  | removed accepts target => exact h.erased target

theorem Opened.inStep (h : v.Opened) : v.InStep v.base := by
  have noAccount (user : String) : v.registry.account? user = none := by
    rcases h.unknown with he | he <;> rw [he] <;> rfl
  have noDirectory (user : String) : v.registry.workingDirectory? user = none := by
    rcases h.unknown with he | he <;> rw [he] <;> rfl
  have nothing : ∀ location, isBelow v.base location = true → v.tree.get? location = none :=
    fun location hb => get?_of_below_eq_nil h.empty hb
  refine ⟨.of_below_eq_nil h.empty, fun location hb found => absurd (nothing location hb) found,
    fun name found => absurd (nothing _ (isBelow_cons.mpr (List.suffix_refl _))) found, ?_, ?_⟩
  · simp [noAccount, noDirectory]
  · simp [noAccount]

theorem InStep.after (settled : v.Settled top) (h : v.InStep top) (events : List Event) :
    (v.after events).InStep top := by
  induction events generalizing v with
  | nil => exact h
  | cons event rest ih =>
      apply ih (settled.step event)
      cases event with
      | request request => exact (dispatch_does settled request).inStep settled h
      | clock now => exact { h with }

theorem Settled.base_eq (h : v.Settled top) : v.base = top := by
  rw [base, h.storage, location_pathTo h.rooted.plain]

/-- Records and root directories stay in step: after any run the same users have a credential, an
account and a working directory; the entries directly in the storage root are the root directories of
the accounts, each with one of its own; every session is of a user with an account; and every working
directory is written without `.` and `..` and lies at or below its user's root directory. -/
theorem records_in_step {v₀ : Vault} (opened : v₀.Opened) (events : List Event) :
    let v := v₀.after events
    (∀ user, (v.registry.credential? user = none ↔ v.registry.account? user = none) ∧
      (v.registry.workingDirectory? user = none ↔ v.registry.account? user = none)) ∧
    (∀ name entry, (name, entry) ∈ v.tree.children v.base ↔ entry = .directory ∧
      ∃ user account, v.registry.account? user = some account ∧ account.rootId = name) ∧
    (∀ user other a b, v.registry.account? user = some a → v.registry.account? other = some b →
      a.rootId = b.rootId → user = other) ∧
    (∀ hash session, v.registry.session? hash = some session →
      v.registry.account? session.username ≠ none) ∧
    (∀ user directory, v.registry.workingDirectory? user = some directory →
      ∃ root, v.rootFor user = .ok root ∧ Path.startsWith ⟨directory.path⟩ root = true ∧
        ∀ piece ∈ Path.pieces ⟨directory.path⟩, piece ≠ "." ∧ piece ≠ "..") := by
  intro v
  have settled : v.Settled v₀.base := opened.settled.after events
  have inStep : v.InStep v₀.base := opened.inStep.after opened.settled events
  refine ⟨fun user => ⟨settled.paired user, inStep.directories user⟩, fun name entry => ?_,
    settled.alone, settled.owned, fun user directory recorded => ?_⟩
  · rw [settled.base_eq, inStep.distinct.mem_children (List.suffix_refl _)]
    constructor
    · intro found
      obtain ⟨user, account, known, rfl⟩ := inStep.roots name (by simp [found])
      have home := settled.home user account known
      exact ⟨Option.some.inj (found.symm.trans home), user, account, known, rfl⟩
    · rintro ⟨rfl, user, account, known, rfl⟩
      exact settled.home user account known
  · have registered : v.registry.account? user ≠ none := fun unknown => by
      rw [(inStep.directories user).mpr unknown] at recorded
      cases recorded
    obtain ⟨account, known⟩ := Option.ne_none_iff_exists'.mp registered
    obtain ⟨location, inside, plain, he⟩ := inStep.within user account directory known recorded
    have names : ∀ n ∈ location.reverse, IsPlain n := fun n hn => plain n (List.mem_reverse.mp hn)
    have top : ∀ n ∈ (account.rootId :: v₀.base).reverse, IsPlain n := fun n hn =>
      settled.plain_root known n (List.mem_reverse.mp hn)
    refine ⟨_, settled.rootFor known, ?_, fun piece mem => ?_⟩
    · rw [he, pathTo_eq, pathTo_eq]
      exact (startsWith_absolute names top).mpr (List.reverse_prefix.mpr inside)
    · rw [he, pathTo_eq, pieces_absolute fun n hn => (names n hn).no_slash] at mem
      rcases List.mem_cons.mp mem with rfl | mem
      · decide
      · split at mem
        · obtain rfl := List.mem_singleton.mp mem
          decide
        · exact ⟨(names piece mem).ne_here, (names piece mem).ne_up⟩

/-- A user who has changed to a directory that is removed afterwards. -/
theorem records_in_step_removed :
    let v := (sample (.tables .empty)).after sampleRemoval
    v.registry.workingDirectory? "ada" = some ⟨"ada", "/vault/r1011121314151617/docs"⟩ ∧
      (∃ root, v.rootFor "ada" = .ok root ∧
        Path.startsWith ⟨"/vault/r1011121314151617/docs"⟩ root = true) ∧
      ∀ name entry, (name, entry) ∈ v.tree.children v.base ↔ entry = .directory ∧
        ∃ user account, v.registry.account? user = some account ∧ account.rootId = name := by
  have recorded : ((sample (.tables .empty)).after sampleRemoval).registry.workingDirectory? "ada" =
      some ⟨"ada", "/vault/r1011121314151617/docs"⟩ := by decide +kernel
  obtain ⟨-, roots, -, -, within⟩ := records_in_step (sample_opened (.inr rfl)) sampleRemoval
  obtain ⟨root, known, inside, -⟩ := within "ada" _ recorded
  exact ⟨recorded, ⟨root, known, inside⟩, roots⟩

end Vault

end Strongroom
