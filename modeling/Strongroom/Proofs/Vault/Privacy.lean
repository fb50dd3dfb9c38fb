import Strongroom.Proofs.Vault.Agreement
import Strongroom.Proofs.Vault.InStep
import Strongroom.Proofs.Vault.Integrity
/-!
# What users learn about each other

Two vaults that differ in what other users have and store answer a user alike, and stay alike to that
user.  There is one leak: a request to make the root directory itself is checked against the
directories beside it, which are the root directories of the other users.
-/

namespace Strongroom

open FileTree Strongroom.Path Registry Sessions
open Function (update update_apply)

namespace Registry.Records

/-- Two states of the records that say the same of one user. -/
structure AlikeFor (user : String) (r r' : Records) : Prop where
  credential : r'.credential? user = r.credential? user
  account : r'.account? user = r.account? user
  workingDirectory : r'.workingDirectory? user = r.workingDirectory? user
  session : ∀ hash session, session.username = user →
    (r'.session? hash = some session ↔ r.session? hash = some session)

namespace AlikeFor

variable {user : String} {r r' : Records}

theorem moved (h : AlikeFor user r r') (directory : Option WorkingDirectory) :
    AlikeFor user { r with workingDirectory? := update r.workingDirectory? user directory }
      { r' with workingDirectory? := update r'.workingDirectory? user directory } :=
  { h with workingDirectory := by simp only [Function.update_self] }

theorem withdrawn (h : AlikeFor user r r') :
    AlikeFor user
      { r with session? := fun hash => (r.session? hash).filter fun s => s.username != user }
      { r' with session? := fun hash => (r'.session? hash).filter fun s => s.username != user } := by
  refine { h with session := fun hash session own => ?_ }
  simp [Option.filter_eq_some_iff, own]

theorem forgotten (h : AlikeFor user r r') (hash : String) :
    AlikeFor user { r with session? := update r.session? hash none }
      { r' with session? := update r'.session? hash none } := by
  refine { h with session := fun other session own => ?_ }
  simp only [update_apply]
  split
  · exact Iff.rfl
  · exact h.session other session own

end AlikeFor

end Registry.Records

namespace Vault

/-- Two vaults that are set up alike, at the same time, with the same records of a user and the same
at and below that user's root directory. -/
structure Alike (user : String) (v v' : Vault) : Prop where
  quota : v'.quota = v.quota
  ttlMillis : v'.ttlMillis = v.ttlMillis
  storageRoot : v'.storageRoot = v.storageRoot
  clock : v'.clock = v.clock
  records : v.registry.records.AlikeFor user v'.registry.records
  host : ∀ location, v.Holds user location → v'.tree.get? location = v.tree.get? location

/-- Whether a token stands for no one but a user. -/
def Lends (v : Vault) (user token : String) : Prop :=
  ∀ session, v.registry.session? (hashToken (presented token)) = some session →
    session.username = user

/-- Whether the storage root holds as many directories as any directory may. -/
def crowded (v : Vault) : Bool :=
  v.quota.limits.maxSubdirectories.toNat ≤
    (v.tree.children v.base).countP fun child => child.2 == .directory

variable {top : Location} {v v' : Vault} {user token : String} {session : Session} {account : Account}

namespace Alike

/-! ## What is the same -/

theorem rootFor (h : Alike user v v') : v'.rootFor user = v.rootFor user := by
  have account : v'.registry.account? user = v.registry.account? user := h.records.account
  simp only [Vault.rootFor, rootPath, account, h.storageRoot]

theorem sandbox? (h : Alike user v v') : v'.sandbox? user = v.sandbox? user := by
  have directory : v'.registry.workingDirectory? user = v.registry.workingDirectory? user :=
    h.records.workingDirectory
  simp only [Vault.sandbox?, h.rootFor, currentFor, directory]

theorem session_eq (h : Alike user v v') (own : v.Lends user token) (own' : v'.Lends user token) :
    v'.registry.session? (hashToken (presented token)) =
      v.registry.session? (hashToken (presented token)) := by
  cases found : v.registry.session? (hashToken (presented token)) with
  | some session => exact (h.records.session _ _ (own session found)).mpr found
  | none =>
      cases found' : v'.registry.session? (hashToken (presented token)) with
      | none => rfl
      | some session =>
          have := (h.records.session _ _ (own' session found')).mp found'
          rw [show v.registry.records.session? = v.registry.session? from rfl, found] at this
          cases this

theorem accepts (h : Alike user v v') (accepts : v.Accepts token session)
    (own : session.username = user) : v'.Accepts token session :=
  ⟨accepts.given, (h.records.session _ _ own).mpr accepts.found, h.clock ▸ accepts.live⟩

/-- The trees of both vaults agree at and below the user's root directory. -/
theorem agree (h : Alike user v v') (settled : v.Settled top) (settled' : v'.Settled top)
    (inStep : v.InStep top) (inStep' : v'.InStep top)
    (known : v.registry.account? user = some account) :
    Agree (account.rootId :: top) v.tree v'.tree := by
  have known' : v'.registry.account? user = some account := h.records.account.trans known
  have above : top <:+ account.rootId :: top := List.suffix_cons ..
  have plain := settled.plain_root known
  refine ⟨settled.rooted.of_directory above plain (settled.home _ _ known),
    settled'.rooted.of_directory above plain (settled'.home _ _ known'),
    inStep.distinct.of_suffix above, inStep'.distinct.of_suffix above, fun location inside => ?_⟩
  exact h.host location (settled.holds_iff.mpr ⟨account, known, inside⟩)

/-! ## What stays the same -/

theorem withRegistry (h : Alike user v v') {registry registry' : Registry}
    (records : registry.records.AlikeFor user registry'.records)
    (account : registry.account? user = v.registry.account? user) :
    Alike user { v with registry } { v' with registry := registry' } := by
  refine { h with records, host := fun location held => h.host location ?_ }
  simpa only [Holds, Vault.rootFor, rootPath, account] using held

theorem withTree (h : Alike user v v') (settled : v.Settled top)
    (known : v.registry.account? user = some account) {tree tree' : FileTree}
    (same : ∀ location, account.rootId :: top <:+ location → tree'.get? location = tree.get? location) :
    Alike user { v with tree } { v' with tree := tree' } := by
  refine { h with host := fun location held => same location ?_ }
  obtain ⟨other, known', inside⟩ := settled.holds_iff.mp held
  obtain rfl := Option.some.inj (known.symm.trans known')
  exact inside

end Alike

/-- Two outcomes of one request that a user cannot tell apart. -/
structure SameRun {α : Type} (user : String) (r r' : Except Failure α × Vault) : Prop where
  answer : r'.1 = r.1
  alike : Alike user r.2 r'.2

theorem SameRun.map {α β : Type} {f : α → β} {action : Action α}
    (h : SameRun user (action.runOn v) (action.runOn v')) :
    SameRun user ((f <$> action).runOn v) ((f <$> action).runOn v') := by
  rw [Action.runOn_map, Action.runOn_map]
  exact ⟨congrArg (Except.map f) h.answer, h.alike⟩

theorem dispatch_snd (v : Vault) (request : Request) :
    (v.dispatch request).2 = (request.perform.runOn v).2 := by
  rcases run : request.perform.runOn v with ⟨failure | reply, after⟩
  · rw [dispatch_of_error run]
  · rw [dispatch_of_ok run]

/-- The answer to a request is what its run returns. -/
theorem dispatch_fst_congr {request : Request}
    (h : (request.perform.runOn v').1 = (request.perform.runOn v).1) :
    (v'.dispatch request).1 = (v.dispatch request).1 := by
  rcases run : request.perform.runOn v with ⟨failure | reply, after⟩ <;>
    rcases run' : request.perform.runOn v' with ⟨failure' | reply', after'⟩ <;>
    rw [run, run'] at h <;> cases h
  · rw [dispatch_of_error run, dispatch_of_error run']
  · rw [dispatch_of_ok run, dispatch_of_ok run']

theorem SameRun.dispatch {request : Request}
    (h : SameRun user (request.perform.runOn v) (request.perform.runOn v')) :
    Alike user (v.dispatch request).2 (v'.dispatch request).2 ∧
      (v'.dispatch request).1 = (v.dispatch request).1 := by
  rw [dispatch_snd, dispatch_snd]
  exact ⟨h.alike, dispatch_fst_congr h.answer⟩

/-- The siblings of a root directory are the root directories of all users. -/
theorem Settled.checkSiblings_root (h : v.Settled top)
    (known : v.registry.account? user = some account) :
    v.quota.checkSiblings v.tree (pathTo (account.rootId :: top)) = .ok (!v.crowded) := by
  have short := (h.addressable user account known).parent
  have listed : v.tree.readDirectory (pathTo top) = .ok (v.tree.children top) :=
    (h.rooted.readDirectory_eq_ok (List.suffix_refl _) h.rooted.plain).mpr
      ⟨rfl, h.rooted.directory, short⟩
  rw [Quota.checkSiblings, Files.parent?_pathTo (h.plain_root known)]
  simp only [Quota.countSubdirectories, listed, crowded, h.base_eq, ← decide_not, Nat.not_le]
  rfl

/-! ## Requests -/

/-- Two vaults in the course of runs that a user cannot tell apart. -/
structure Beside (top : Location) (user : String) (v v' : Vault) : Prop where
  alike : Alike user v v'
  settled : v.Settled top
  settled' : v'.Settled top
  inStep : v.InStep top
  inStep' : v'.InStep top
  near : v.quota.meter.Local

namespace Beside

/-- An accepted user has the same sandbox in both vaults, and finds the same there. -/
theorem caller (c : Beside top session.username v v') (accepts : v.Accepts token session) :
    ∃ account s, v.registry.account? session.username = some account ∧
      v.sandbox? session.username = some s ∧ s.IsAt (account.rootId :: top) ∧
      (Files.caller token).runOn v = (.ok ⟨session.username, s⟩, v) ∧
      (Files.caller token).runOn v' = (.ok ⟨session.username, s⟩, v') ∧
      Agree (account.rootId :: top) v.tree v'.tree := by
  obtain ⟨account, known⟩ := c.settled.owner accepts.found
  obtain ⟨s, own, hs⟩ := c.settled.sandbox known
  exact ⟨account, s, known, own, hs, runOn_caller accepts own,
    runOn_caller (c.alike.accepts accepts rfl) (c.alike.sandbox?.trans own),
    c.alike.agree c.settled c.settled' c.inStep c.inStep' known⟩

theorem upload (c : Beside top session.username v v') (accepts : v.Accepts token session)
    (path : String) (body : Bytes) :
    SameRun session.username ((Files.upload token path body).runOn v)
      ((Files.upload token path body).runOn v') := by
  obtain ⟨account, s, known, own, hs, run, run', agree⟩ := c.caller accepts
  obtain ⟨name, parent, below, plain, place, -, spot⟩ := exists_place c.settled known own path
  have checked : v'.quota.checkNameAndSize v'.tree (pathTo (account.rootId :: top))
      (.file (saturate body.length)) (pathTo (name :: parent)) =
      v.quota.checkNameAndSize v.tree (pathTo (account.rootId :: top))
        (.file (saturate body.length)) (pathTo (name :: parent)) := by
    rw [c.alike.quota]
    exact Quota.checkNameAndSize_agree agree (c.settled.plain_root known) c.near _ _
  rw [Files.runOn_upload run, Files.runOn_upload run', place, hs.root_eq, checked]
  generalize v.quota.checkNameAndSize _ _ _ _ = outcome
  cases outcome with
  | error failure => exact ⟨rfl, c.alike⟩
  | ok =>
      -- the parent of the root directory is not the user's: only what stands at the root is
      rcases spot with same | inside
      · have home := c.settled.home _ _ known
        have home' := agree.same _ (List.suffix_refl _) ▸ home
        have short := c.settled.addressable _ _ known
        rw [← same] at home home' short
        dsimp only
        rw [Files.write_directory c.settled.rooted below plain home short,
          Files.write_directory c.settled'.rooted below plain home' short]
        exact ⟨rfl, c.alike⟩
      · have effect := Files.write_agree agree inside plain (s.display (pathTo (name :: parent))) body
        exact ⟨effect.outcome, c.alike.withTree c.settled known effect.same⟩

theorem download (c : Beside top session.username v v') (accepts : v.Accepts token session)
    (path : String) :
    SameRun session.username ((Files.download token path).runOn v)
      ((Files.download token path).runOn v') := by
  obtain ⟨account, s, known, own, hs, run, run', agree⟩ := c.caller accepts
  obtain ⟨location, inside, plain, place⟩ := hs.resolve (c.settled.plain_root known) ⟨path⟩
  rw [Files.runOn_download run, Files.runOn_download run', place]
  exact ⟨Files.read_agree agree inside plain _, c.alike⟩

theorem list (c : Beside top session.username v v') (accepts : v.Accepts token session)
    (path : String) :
    SameRun session.username ((Files.list token path).runOn v) ((Files.list token path).runOn v') := by
  obtain ⟨account, s, known, own, hs, run, run', agree⟩ := c.caller accepts
  obtain ⟨location, inside, plain, place⟩ := hs.resolve (c.settled.plain_root known) ⟨path⟩
  rw [Files.runOn_list run, Files.runOn_list run', place]
  exact ⟨Files.listing_agree agree inside plain _, c.alike⟩

theorem remove (c : Beside top session.username v v') (accepts : v.Accepts token session)
    (path : String) :
    SameRun session.username ((Files.remove token path).runOn v)
      ((Files.remove token path).runOn v') := by
  obtain ⟨account, s, known, own, hs, run, run', agree⟩ := c.caller accepts
  obtain ⟨name, parent, below, plain, place, -, spot⟩ := exists_place c.settled known own path
  rw [Files.runOn_remove run, Files.runOn_remove run', place]
  rcases spot with same | inside
  · have isRoot : s.isRoot (pathTo (name :: parent)) = true :=
      (hs.isRoot_pathTo plain (same ▸ List.suffix_refl _)).mpr same
    rw [if_pos isRoot, if_pos isRoot]
    exact ⟨rfl, c.alike⟩
  · split
    · exact ⟨rfl, c.alike⟩
    · have effect := Files.removeEntry_agree agree inside plain (s.display (pathTo (name :: parent)))
      exact ⟨effect.outcome, c.alike.withTree c.settled known effect.same⟩

theorem pwd (c : Beside top session.username v v') (accepts : v.Accepts token session) :
    SameRun session.username ((Files.pwd token).runOn v) ((Files.pwd token).runOn v') := by
  obtain ⟨account, s, known, own, hs, run, run', agree⟩ := c.caller accepts
  rw [Files.runOn_pwd run, Files.runOn_pwd run']
  exact ⟨rfl, c.alike⟩

theorem set (c : Beside top user v v') (place : Path) :
    SameRun user ((Directories.set user place).runOn v) ((Directories.set user place).runOn v') := by
  obtain ⟨registry, -, -, answers, run⟩ := Directories.runOn_set user place v
  obtain ⟨registry', -, -, answers', run'⟩ := Directories.runOn_set user place v'
  rw [run, run']
  refine ⟨rfl, c.alike.withRegistry ?_ (congrFun (congrArg Records.account? answers) user)⟩
  rw [answers, answers']
  exact c.alike.records.moved _

theorem cd (c : Beside top session.username v v') (accepts : v.Accepts token session)
    (path : String) :
    SameRun session.username ((Files.cd token path).runOn v) ((Files.cd token path).runOn v') := by
  obtain ⟨account, s, known, own, hs, run, run', agree⟩ := c.caller accepts
  obtain ⟨location, inside, plain, place⟩ := hs.resolve (c.settled.plain_root known) ⟨path⟩
  rw [Files.runOn_cd run, Files.runOn_cd run', place, agree.isDirectory inside plain]
  split
  · exact c.set _
  · exact ⟨rfl, c.alike⟩

theorem authenticate (c : Beside top session.username v v') (accepts : v.Accepts token session) :
    SameRun session.username ((Accounts.authenticate token).runOn v)
      ((Accounts.authenticate token).runOn v') := by
  obtain ⟨account, known⟩ := c.settled.owner accepts.found
  have root := c.settled.rootFor known
  obtain ⟨registry, -, -, answers, run⟩ := Directories.runOn_reset root
  obtain ⟨registry', -, -, answers', run'⟩ := Directories.runOn_reset (c.alike.rootFor.trans root)
  simp only [Accounts.authenticate, validate, Action.runOn_bind, run, run', Action.runOn_pure,
    runOn_authorize_of_accepts accepts, runOn_authorize_of_accepts (c.alike.accepts accepts rfl)]
  refine ⟨rfl, c.alike.withRegistry ?_ (congrFun (congrArg Records.account? answers) _)⟩
  rw [answers, answers']
  exact c.alike.records.moved _

theorem logout (c : Beside top session.username v v') (accepts : v.Accepts token session) :
    SameRun session.username ((Accounts.logout token).runOn v) ((Accounts.logout token).runOn v') := by
  have answers := records_deleteSessionsFor c.settled.sound.sessions session.username
  have answers' := records_deleteSessionsFor c.settled'.sound.sessions session.username
  simp only [Accounts.logout, invalidate, Action.runOn_bind, Action.runOn_changeRegistry,
    runOn_authorize_of_accepts accepts, runOn_authorize_of_accepts (c.alike.accepts accepts rfl)]
  refine ⟨rfl, c.alike.withRegistry ?_ (congrFun (congrArg Records.account? answers) _)⟩
  rw [answers, answers']
  exact c.alike.records.withdrawn

/-- A directory that is to be made at the root directory itself is never made: what may differ is the
reason that is given. -/
theorem mkdir (c : Beside top session.username v v') (accepts : v.Accepts token session)
    (path : String) :
    Alike session.username ((Files.mkdir token path).runOn v).2 ((Files.mkdir token path).runOn v').2 ∧
    ((∀ root, v.rootFor session.username = .ok root →
        v.leadsTo? session.username path = some root.location → v'.crowded = v.crowded) →
      ((Files.mkdir token path).runOn v').1 = ((Files.mkdir token path).runOn v).1) := by
  obtain ⟨account, s, known, own, hs, run, run', agree⟩ := c.caller accepts
  obtain ⟨name, parent, below, plain, place, leads, spot⟩ := exists_place c.settled known own path
  have root := c.settled.plain_root known
  have checked (siblings : v.quota.checkSiblings v'.tree (pathTo (name :: parent)) =
      v.quota.checkSiblings v.tree (pathTo (name :: parent))) :
      v'.quota.checkNewDirectory v'.tree (pathTo (account.rootId :: top)) (pathTo (name :: parent)) =
      v.quota.checkNewDirectory v.tree (pathTo (account.rootId :: top)) (pathTo (name :: parent)) := by
    rw [c.alike.quota]
    exact Quota.checkNewDirectory_agree agree root c.near _ siblings
  rw [Files.runOn_mkdir run, Files.runOn_mkdir run', place, hs.root_eq]
  rcases spot with same | inside
  · have home := c.settled.home _ _ known
    have home' := agree.same _ (List.suffix_refl _) ▸ home
    have short := c.settled.addressable _ _ known
    have known' : v'.registry.account? session.username = some account :=
      c.alike.records.account.trans known
    rw [← same] at home home' short
    rw [Files.makeDirectory_directory c.settled.rooted below plain home short,
      Files.makeDirectory_directory c.settled'.rooted below plain home' short]
    -- neither vault changes, but the check may be passed in one of them only
    constructor
    · generalize v.quota.checkNewDirectory _ _ _ = outcome
      generalize v'.quota.checkNewDirectory _ _ _ = outcome'
      cases outcome <;> cases outcome' <;> exact c.alike
    · intro room
      have room := room _ (c.settled.rootFor known) (by rw [leads, same, location_pathTo root])
      rw [checked ?_]
      · generalize v.quota.checkNewDirectory _ _ _ = outcome
        cases outcome <;> rfl
      · have siblings' := c.settled'.checkSiblings_root known'
        rw [c.alike.quota] at siblings'
        rw [same, c.settled.checkSiblings_root known, siblings', room]
  · have effect := Files.makeDirectory_agree agree inside plain (s.display (pathTo (name :: parent)))
    rw [checked (Quota.checkSiblings_agree agree inside plain)]
    generalize v.quota.checkNewDirectory _ _ _ = outcome
    cases outcome with
    | error failure => exact ⟨c.alike, fun _ => rfl⟩
    | ok => exact ⟨c.alike.withTree c.settled known effect.same, fun _ => effect.outcome⟩

end Beside

/-- A token that stands for no one else is refused by both vaults, or accepted by both. -/
theorem Alike.authorize_cases (h : Alike user v v') (lends : v.Lends user token)
    (lends' : v'.Lends user token) :
    (∃ failure w w', (authorize token).runOn v = (.error failure, w) ∧
      (authorize token).runOn v' = (.error failure, w') ∧ Alike user w w') ∨
    ∃ session, v.Accepts token session ∧ session.username = user := by
  have same := h.session_eq lends lends'
  rw [runOn_authorize, runOn_authorize, same]
  by_cases blank : presented token = ""
  · exact .inl ⟨_, v, v', if_pos blank, if_pos blank, h⟩
  · rw [if_neg blank, if_neg blank]
    cases found : v.registry.session? (hashToken (presented token)) with
    | none => exact .inl ⟨_, v, v', rfl, rfl, h⟩
    | some session =>
        by_cases late : session.expiresAt ≤ v.clock
        · refine .inl ⟨_, _, _, if_pos late, if_pos (h.clock ▸ late), h.withRegistry ?_ ?_⟩
          · rw [records_deleteSession, records_deleteSession]
            exact h.records.forgotten _
          · exact congrFun (congrArg Records.account? (records_deleteSession v.registry _)) user
        · exact .inr ⟨session, ⟨blank, found, UInt64.not_le.mp late⟩, lends session found⟩

/-- Whatever someone else does, a vault stays alike to a user. -/
theorem Alike.of_spares {request : Request} {response : Response} {other : String}
    (h : v.Settled top) (does : Does top v request response v') (spares : Spares other v v')
    (hne : user ≠ other) : Alike user v v' := by
  obtain ⟨quota, ttlMillis, storageRoot, clock⟩ := does.decided
  have records : v.registry.records.AlikeFor user v'.registry.records :=
    ⟨spares.records.credential user hne, spares.records.account user hne,
      spares.records.workingDirectory user hne,
      fun hash session own => spares.records.session hash session (own ▸ hne)⟩
  refine ⟨quota, ttlMillis, storageRoot, clock, records, fun location held => ?_⟩
  obtain ⟨account, known, inside⟩ := h.holds_iff.mp held
  have held' : v'.Holds user location :=
    (does.settled h).holds_iff.mpr ⟨account, records.account.trans known, inside⟩
  exact spares.host location (h.not_holds hne held) ((does.settled h).not_holds hne held')

/-- Nobody notices that someone else signs up. -/
theorem Settled.alike_signup (h : v.Settled top) {other : String} (hne : user ≠ other)
    (password : String) : Alike user v (v.dispatch (.signup other password)).2 := by
  have does := dispatch_does h (.signup other password)
  refine .of_spares h does (does.spares h ?_ ?_ ?_) hne
  · rintro name ⟨⟩
    rfl
  · rintro token session ⟨⟩
  · intro name token session mem
    cases mem

/-- Two vaults in the course of runs that a user cannot tell apart answer the user alike. -/
theorem Beside.dispatch (c : Beside top user v v') {request : Request}
    (carried : request.token? = some token) (stays : request ≠ .delete token)
    (lends : v.Lends user token) (lends' : v'.Lends user token) :
    Alike user (v.dispatch request).2 (v'.dispatch request).2 ∧
    ((∀ path root, request = .mkdir token path → v.rootFor user = .ok root →
        v.leadsTo? user path = some root.location → v'.crowded = v.crowded) →
      (v'.dispatch request).1 = (v.dispatch request).1) := by
  obtain ⟨next, start⟩ := perform_eq_authorize carried
  rcases c.alike.authorize_cases lends lends' with
    ⟨failure, w, w', run, run', alike⟩ | ⟨session, accepts, own⟩
  · have refused : SameRun user (request.perform.runOn v) (request.perform.runOn v') := by
      rw [start, Action.runOn_bind, Action.runOn_bind, run, run']
      exact ⟨rfl, alike⟩
    exact ⟨refused.dispatch.1, fun _ => refused.dispatch.2⟩
  · subst own
    have same (h : SameRun session.username (request.perform.runOn v) (request.perform.runOn v')) :
        Alike session.username (v.dispatch request).2 (v'.dispatch request).2 ∧
        ((∀ path root, request = .mkdir token path → v.rootFor session.username = .ok root →
            v.leadsTo? session.username path = some root.location → v'.crowded = v.crowded) →
          (v'.dispatch request).1 = (v.dispatch request).1) :=
      ⟨h.dispatch.1, fun _ => h.dispatch.2⟩
    cases request with
    | signup => cases carried
    | login => cases carried
    | delete => exact absurd (congrArg Request.delete (Option.some.inj carried)) stays
    | authenticate =>
        obtain rfl := Option.some.inj carried
        exact same (c.authenticate accepts).map
    | logout =>
        obtain rfl := Option.some.inj carried
        exact same (c.logout accepts).map
    | upload _ path body =>
        obtain rfl := Option.some.inj carried
        exact same (c.upload accepts path body).map
    | download _ path =>
        obtain rfl := Option.some.inj carried
        exact same (c.download accepts path).map
    | list _ path =>
        obtain rfl := Option.some.inj carried
        exact same (c.list accepts path).map
    | remove _ path =>
        obtain rfl := Option.some.inj carried
        exact same (c.remove accepts path).map
    | pwd =>
        obtain rfl := Option.some.inj carried
        exact same (c.pwd accepts).map
    | cd _ path =>
        obtain rfl := Option.some.inj carried
        exact same (c.cd accepts path).map
    | mkdir _ path =>
        obtain rfl := Option.some.inj carried
        obtain ⟨alike, answer⟩ := c.mkdir accepts path
        constructor
        · rw [dispatch_snd, dispatch_snd, Request.perform, Action.runOn_map, Action.runOn_map]
          dsimp only
          exact alike
        · intro room
          apply dispatch_fst_congr
          rw [Request.perform, Action.runOn_map, Action.runOn_map,
            answer fun root known leads => room path root rfl known leads]

/-- Users learn nothing about each other but one thing: if after any two runs two vaults have the same
records of a user and the same files of that user, and no one else is behind the user's token, then a
request with that token leaves them alike to the user, and is answered alike, unless it is to make the
root directory itself where one of the storage roots has room for another directory and the other has
none. -/
theorem dispatch_private {v₀ v₀' : Vault} (opened : v₀.Opened) (opened' : v₀'.Opened)
    (events events' : List Event) {user token : String}
    (alike : Alike user (v₀.after events) (v₀'.after events')) (near : v₀.quota.meter.Local)
    {request : Request} (carried : request.token? = some token) (stays : request ≠ .delete token)
    (lends : (v₀.after events).Lends user token) (lends' : (v₀'.after events').Lends user token) :
    let v := v₀.after events
    let v' := v₀'.after events'
    Alike user (v.dispatch request).2 (v'.dispatch request).2 ∧
    ((∀ path root, request = .mkdir token path → v.rootFor user = .ok root →
        v.leadsTo? user path = some root.location → v'.crowded = v.crowded) →
      (v'.dispatch request).1 = (v.dispatch request).1) := by
  intro v v'
  have settled : v.Settled v₀.base := opened.settled.after events
  have settled' : v'.Settled v₀'.base := opened'.settled.after events'
  have inStep' : v'.InStep v₀'.base := opened'.inStep.after opened'.settled events'
  have place : v₀'.base = v₀.base := by
    rw [← settled.base_eq, ← settled'.base_eq, base, base, alike.storageRoot]
  rw [place] at settled' inStep'
  have near : v.quota.meter.Local := by rwa [quota_after opened.settled events]
  have beside : Beside v₀.base user v v' :=
    ⟨alike, settled, settled', opened.inStep.after opened.settled events, inStep', near⟩
  exact beside.dispatch carried stays lends lends'

/-- A small vault in which no directory may hold more than two. -/
def narrow : Vault :=
  { sample (.maps .empty) with quota := ⟨{ maxSubdirectories := 2 }, .walk⟩ }

theorem narrow_opened : narrow.Opened :=
  ⟨⟨.empty, { sampleFoundation (.maps .empty) with
      settings := { startup := { storageRoot := "/vault" }, limits := { maxSubdirectories := 2 } } },
    rfl⟩, .inl rfl, by decide⟩

theorem narrow_alike : Alike "ada" (narrow.after sampleLogin)
    (narrow.after (sampleLogin ++ [.request (.signup "bob" "Passw0rd")])) := by
  rw [after_append]
  exact (narrow_opened.settled.after sampleLogin).alike_signup (by decide) "Passw0rd"

theorem narrow_lends : (narrow.after sampleLogin).Lends "ada" sampleToken ∧
    (narrow.after (sampleLogin ++ [.request (.signup "bob" "Passw0rd")])).Lends "ada" sampleToken := by
  have own : ((narrow.after sampleLogin).registry.session?
        (hashToken (presented sampleToken))).map (·.username) = some "ada" ∧
      ((narrow.after (sampleLogin ++ [.request (.signup "bob" "Passw0rd")])).registry.session?
        (hashToken (presented sampleToken))).map (·.username) = some "ada" := by decide +kernel
  exact ⟨fun session found => by simpa [found] using own.1, fun session found => by
    simpa [found] using own.2⟩

/-- A directory in the user's own root directory is made whether or not anyone else has signed up. -/
theorem dispatch_private_mkdir :
    let v := narrow.after sampleLogin
    let v' := narrow.after (sampleLogin ++ [.request (.signup "bob" "Passw0rd")])
    v.crowded = false ∧ v'.crowded = true ∧
      (v.dispatch (.mkdir sampleToken "docs")).1 = .ok .empty ∧
      (v'.dispatch (.mkdir sampleToken "docs")).1 = .ok .empty := by
  have facts : (narrow.after sampleLogin).crowded = false ∧
      (narrow.after (sampleLogin ++ [.request (.signup "bob" "Passw0rd")])).crowded = true ∧
      ((narrow.after sampleLogin).dispatch (.mkdir sampleToken "docs")).1 = .ok .empty ∧
      (narrow.after sampleLogin).leadsTo? "ada" "docs" = some ["docs", "r1011121314151617", "vault"] ∧
      ((narrow.after sampleLogin).rootFor "ada").toOption.map Path.location =
        some ["r1011121314151617", "vault"] := by decide +kernel
  obtain ⟨room, none, made, leads, root⟩ := facts
  have carried : (Request.mkdir sampleToken "docs").token? = some sampleToken := rfl
  have same := (dispatch_private narrow_opened narrow_opened sampleLogin _ narrow_alike
    Meter.walk_local carried (by simp) narrow_lends.1 narrow_lends.2).2
  refine ⟨room, none, made, (same fun path place asked known inside => ?_).trans made⟩
  obtain ⟨-, rfl⟩ := Request.mkdir.inj asked
  rw [known] at root
  have here : place.location = ["r1011121314151617", "vault"] := Option.some.inj root
  rw [here] at inside
  exact absurd (leads.symm.trans inside) (by decide)

/-- The leak: whether others have signed up shows in the reason for which the root directory itself
is not made. -/
theorem mkdir_root_tells :
    let v := narrow.after sampleLogin
    let v' := narrow.after (sampleLogin ++ [.request (.signup "bob" "Passw0rd")])
    narrow.Opened ∧ Alike "ada" v v' ∧ narrow.quota.meter.Local ∧ v.Lends "ada" sampleToken ∧
      v'.Lends "ada" sampleToken ∧
      (v.dispatch (.mkdir sampleToken "/")).1 = .error .conflict "conflict: /: already exists" ∧
      (v'.dispatch (.mkdir sampleToken "/")).1 =
        .error .validation "too many sub-directories in this directory, at most 2 allowed" := by
  have told : ((narrow.after sampleLogin).dispatch (.mkdir sampleToken "/")).1 =
        .error .conflict "conflict: /: already exists" ∧
      ((narrow.after (sampleLogin ++ [.request (.signup "bob" "Passw0rd")])).dispatch
        (.mkdir sampleToken "/")).1 =
        .error .validation "too many sub-directories in this directory, at most 2 allowed" := by
    decide +kernel
  exact ⟨narrow_opened, narrow_alike, Meter.walk_local, narrow_lends.1, narrow_lends.2, told⟩

end Vault

end Strongroom
