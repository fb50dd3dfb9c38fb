import Strongroom.Proofs.FileTree.Opening
import Strongroom.Proofs.Vault.Requests
/-!
# Runs of a vault

A vault that has just been opened over an empty storage root is settled, every request leaves it
settled, and so it is settled after any sequence of requests and changes of the clock.
-/

namespace Strongroom

open FileTree Strongroom.Path Registry Sessions
open Function (update update_apply update_of_ne)

namespace Vault

variable {top : Location} {v v' : Vault}

/-! ## One request -/

theorem Target.length_lt {session : Session} {account : Account} {name : Name} {parent : Location}
    (h : v.Target top session account name parent) : top.length + 1 < (name :: parent).length := by
  have := h.inside.length_le
  simp only [List.length_cons] at this ⊢
  omega

theorem Target.root_ne {session : Session} {account : Account} {name : Name} {parent : Location}
    (h : v.Target top session account name parent) (rootId : Name) :
    rootId :: top ≠ name :: parent := by
  intro he
  have long := h.length_lt
  rw [← he] at long
  simp at long

theorem Target.isBelow {session : Session} {account : Account} {name : Name} {parent : Location}
    (h : v.Target top session account name parent) : isBelow top (name :: parent) = true :=
  isBelow_cons.mpr ((List.suffix_cons ..).trans h.inside)

/-- The answers of what is left when a user is forgotten. -/
theorem records_forgetting (hs : v.registry.Sound) (user : String) :
    (v.forgetting user).records =
      ⟨update v.registry.credential? user none, update v.registry.account? user none,
        update v.registry.workingDirectory? user none,
        fun hash => (v.registry.session? hash).filter fun s => s.username != user⟩ := by
  rw [forgetting, records_deleteWorkingDirectory, records_deleteAccount, records_deleteCredential,
    records_deleteSessionsFor hs.sessions]
  rfl

theorem sound_forgetting (hs : v.registry.Sound) (user : String) : (v.forgetting user).Sound :=
  (((hs.deleteSessionsFor user).deleteCredential user).deleteAccount user).deleteWorkingDirectory user

theorem Settled.signedUp (h : v.Settled top) {username rootId : String} {credential : Credential}
    {directory : WorkingDirectory} {registry : Registry} {entropy : Entropy} (plain : IsPlain rootId)
    (addressable : Addressable (rootId :: top)) (free : v.tree.get? (rootId :: top) = none)
    (sound : registry.Sound)
    (answers : registry.records = { v.registry.records with
      credential? := update v.registry.credential? username (some credential)
      account? := update v.registry.account? username (some ⟨username, rootId⟩)
      workingDirectory? := update v.registry.workingDirectory? username (some directory) }) :
    Settled top
      { v with tree := v.tree.insert (rootId :: top) .directory, registry, entropy } := by
  have credentials : registry.credential? = update v.registry.credential? username
      (some credential) := congrArg Records.credential? answers
  have accounts : registry.account? = update v.registry.account? username
      (some ⟨username, rootId⟩) := congrArg Records.account? answers
  have sessions : registry.session? = v.registry.session? := congrArg Records.session? answers
  -- an account is the new one or one of those before, which lie elsewhere
  have split : ∀ user account, registry.account? user = some account →
      user = username ∧ account.rootId = rootId ∨
        user ≠ username ∧ v.registry.account? user = some account ∧ account.rootId ≠ rootId := by
    intro user account known
    rw [accounts, update_apply] at known
    split at known
    · rename_i same
      exact .inl ⟨same, (Option.some.inj known) ▸ rfl⟩
    · rename_i other
      refine .inr ⟨other, known, fun he => ?_⟩
      have := h.home user account known
      rw [he, free] at this
      cases this
  refine ⟨h.storage, ?_, sound, ?_, ?_, ?_, ?_, ?_, ?_⟩
  · exact h.rooted.insert (isBelow_cons.mpr (List.suffix_refl _)) h.rooted.directory (by simp) (.inl rfl)
  · intro user
    rw [credentials, accounts, update_apply, update_apply]
    split
    · simp
    · exact h.paired user
  · intro hash session found
    rw [sessions] at found
    rw [accounts, update_apply]
    split
    · simp
    · exact h.owned hash session found
  · intro user account known
    rcases split user account known with ⟨-, he⟩ | ⟨-, known, -⟩
    · exact he ▸ plain
    · exact h.plain user account known
  · intro user account known
    rcases split user account known with ⟨-, he⟩ | ⟨-, known, hne⟩
    · rw [he, get?_insert_self (List.cons_ne_nil _ _)]
    · rw [get?_insert_of_ne (List.cons_ne_nil _ _) (by simp [hne])]
      exact h.home user account known
  · intro user account known
    rcases split user account known with ⟨-, he⟩ | ⟨-, known, -⟩
    · exact he ▸ addressable
    · exact h.addressable user account known
  · intro user other a b ha hb he
    rcases split user a ha with ⟨rfl, hra⟩ | ⟨-, ha, hra⟩
    · rcases split other b hb with ⟨rfl, -⟩ | ⟨-, -, hrb⟩
      · rfl
      · exact absurd (he.symm.trans hra) hrb
    · rcases split other b hb with ⟨-, hrb⟩ | ⟨-, hb, -⟩
      · exact absurd (he.trans hrb) hra
      · exact h.alone user other a b ha hb he

theorem Settled.deleted (h : v.Settled top) {user : String} {account : Account}
    (known : v.registry.account? user = some account) :
    Settled top
      { v with
        tree := (v.tree.clear (account.rootId :: top)).erase (account.rootId :: top)
        registry := v.forgetting user } := by
  have answers := records_forgetting h.sound user
  have credentials : (v.forgetting user).credential? = update v.registry.credential? user none :=
    congrArg Records.credential? answers
  have accounts : (v.forgetting user).account? = update v.registry.account? user none :=
    congrArg Records.account? answers
  have sessions : (v.forgetting user).session? =
      fun hash => (v.registry.session? hash).filter fun s => s.username != user :=
    congrArg Records.session? answers
  have left : ∀ other account, (v.forgetting user).account? other = some account →
      other ≠ user ∧ v.registry.account? other = some account := by
    intro other account found
    rw [accounts, update_apply] at found
    split at found
    · cases found
    · rename_i hne
      exact ⟨hne, found⟩
  refine ⟨h.storage, ?_, sound_forgetting h.sound user, ?_, ?_, ?_, ?_, ?_, ?_⟩
  · have below : isBelow top (account.rootId :: top) = true := isBelow_cons.mpr (List.suffix_refl _)
    exact (h.rooted.clear (List.suffix_cons ..)).erase below (.inl children_clear)
  · intro other
    rw [credentials, accounts, update_apply, update_apply]
    split
    · simp
    · exact h.paired other
  · intro hash session found
    simp only [sessions, Option.filter_eq_some_iff, bne_iff_ne] at found
    rw [accounts, update_of_ne found.2]
    exact h.owned hash session found.1
  · intro other b found
    exact h.plain other b (left other b found).2
  · intro other b found
    obtain ⟨hne, found⟩ := left other b found
    have away : b.rootId :: top ≠ account.rootId :: top := fun he =>
      hne (h.alone other user b account found known (List.cons.inj he).1)
    have outside : ¬ FileTree.isBelow (account.rootId :: top) (b.rootId :: top) = true := fun hb =>
      h.not_suffix found known hne (List.suffix_refl _) (isBelow_iff.mp hb).1
    rw [get?_erase_of_ne (List.cons_ne_nil _ _) away, get?_clear, if_neg outside]
    exact h.home other b found
  · intro other b found
    exact h.addressable other b (left other b found).2
  · intro other another a b ha hb
    exact h.alone other another a b (left other a ha).2 (left another b hb).2

/-- A session is new only if its token has just been issued, to a user with an account. -/
theorem Does.session_cases {request : Request} {response : Response} (h : v.Settled top)
    (does : Does top v request response v') {hash : String} {session : Session}
    (found : v'.registry.session? hash = some session) :
    v.registry.session? hash = some session ∨
      v.registry.account? session.username ≠ none ∧
        ∃ token, (session.username, token) ∈ request.issue response ∧ hashToken token = hash := by
  cases does with
  | refused => exact .inl found
  | @expired _ token old carried known late =>
      have sessions : (v.registry.deleteSession (hashToken (presented token))).session? =
          update v.registry.session? (hashToken (presented token)) none :=
        congrArg Records.session? (records_deleteSession v.registry _)
      rw [sessions, update_apply] at found
      split at found
      · cases found
      · exact .inl found
  | signedUp plain directory addressable free unknown sound answers =>
      have sessions : _ = v.registry.session? := congrArg Records.session? answers
      exact .inl (sessions ▸ found)
  | @loggedIn username password token account path registry entropy known sound answers =>
      have sessions : registry.session? = update
          (fun hash => (v.registry.session? hash).filter fun s => s.username != username)
          (hashToken token) (some ⟨hashToken token, username, expiry v.clock v.ttlMillis⟩) :=
        congrArg Records.session? answers
      rw [sessions, update_apply] at found
      split at found
      · rename_i here
        obtain rfl := Option.some.inj found
        exact .inr ⟨by simp [known], token, List.mem_singleton_self _, here.symm⟩
      · exact .inl (Option.filter_eq_some_iff.mp found).1
  | @loggedOut token old accepts =>
      have sessions : (v.registry.deleteSessionsFor old.username).session? =
          fun hash => (v.registry.session? hash).filter fun s => s.username != old.username :=
        congrArg Records.session? (records_deleteSessionsFor h.sound.sessions old.username)
      rw [sessions] at found
      exact .inl (Option.filter_eq_some_iff.mp found).1
  | @deleted token old account accepts known =>
      have sessions : (v.forgetting old.username).session? =
          fun hash => (v.registry.session? hash).filter fun s => s.username != old.username :=
        congrArg Records.session? (records_forgetting h.sound old.username)
      rw [sessions] at found
      exact .inl (Option.filter_eq_some_iff.mp found).1
  | moved moves accepts sound answers =>
      have sessions : _ = v.registry.session? := congrArg Records.session? answers
      exact .inl (sessions ▸ found)
  | looked => exact .inl found
  | uploaded => exact .inl found
  | madeDirectory => exact .inl found
  | removed => exact .inl found

/-- Accounts change only as users sign up and are deleted. -/
theorem Does.accounts {request : Request} {response : Response} (h : v.Settled top)
    (does : Does top v request response v')
    (old : ∀ username password, request ≠ .signup username password)
    (stays : ∀ token, request ≠ .delete token) : v'.registry.account? = v.registry.account? := by
  cases does with
  | refused => rfl
  | expired => exact congrArg Records.account? (records_deleteSession v.registry _)
  | signedUp => exact absurd rfl (old _ _)
  | loggedIn known sound answers => exact congrArg Records.account? answers
  | loggedOut => exact congrArg Records.account? (records_deleteSessionsFor h.sound.sessions _)
  | deleted => exact absurd rfl (stays _)
  | moved moves accepts sound answers => exact congrArg Records.account? answers
  | looked => rfl
  | uploaded => rfl
  | madeDirectory => rfl
  | removed => rfl

/-- Whatever a request does, the vault is settled afterwards. -/
theorem Does.settled {request : Request} {response : Response} (h : v.Settled top)
    (does : Does top v request response v') : v'.Settled top := by
  have owned : ∀ hash session, v'.registry.session? hash = some session →
      v.registry.account? session.username ≠ none := by
    intro hash session found
    rcases does.session_cases h found with old | ⟨known, -⟩
    · exact h.owned hash session old
    · exact known
  cases does with
  | refused => exact h.withRegistry h.sound rfl rfl owned
  | @expired _ token session carried found late =>
      have answers := records_deleteSession v.registry (hashToken (presented token))
      exact h.withRegistry (h.sound.deleteSession _) (congrArg Records.credential? answers)
        (congrArg Records.account? answers) owned
  | signedUp plain directory addressable free unknown sound answers =>
      exact h.signedUp plain addressable free sound answers
  | loggedIn known sound answers =>
      exact h.withRegistry sound (congrArg Records.credential? answers)
        (congrArg Records.account? answers) owned
  | @loggedOut token session accepts =>
      have answers := records_deleteSessionsFor h.sound.sessions session.username
      exact h.withRegistry (h.sound.deleteSessionsFor _) (congrArg Records.credential? answers)
        (congrArg Records.account? answers) owned
  | deleted accepts known => exact h.deleted known
  | moved moves accepts sound answers =>
      exact h.withRegistry sound (congrArg Records.credential? answers)
        (congrArg Records.account? answers) owned
  | looked => exact h
  | uploaded accepts target checked file =>
      apply h.withTree (h.rooted.insert target.isBelow target.directory (by simp) (.inr file))
      intro user account known
      rw [get?_insert_of_ne (List.cons_ne_nil _ _) (target.root_ne _)]
      exact h.home user account known
  | madeDirectory accepts target checked free =>
      apply h.withTree (h.rooted.insert target.isBelow target.directory (by simp) (.inl rfl))
      intro user account known
      rw [get?_insert_of_ne (List.cons_ne_nil _ _) (target.root_ne _)]
      exact h.home user account known
  | removed accepts target emptied =>
      apply h.withTree (h.rooted.erase target.isBelow emptied)
      intro user account known
      rw [get?_erase_of_ne (List.cons_ne_nil _ _) (target.root_ne _)]
      exact h.home user account known

/-- No request changes what the operator has decided, or the clock. -/
theorem Does.decided {request : Request} {response : Response}
    (does : Does top v request response v') :
    v'.quota = v.quota ∧ v'.ttlMillis = v.ttlMillis ∧ v'.storageRoot = v.storageRoot ∧
      v'.clock = v.clock := by
  cases does <;> exact ⟨rfl, rfl, rfl, rfl⟩

/-! ## Openings -/

/-- The location of the storage root. -/
def base (v : Vault) : Location := v.storageRoot.location

/-- A vault that was just opened, with no records and with nothing below its storage root. -/
structure Opened (v : Vault) : Prop where
  opening : ∃ tree f, openOn tree f = .ok v
  unknown : v.registry = .maps .empty ∨ v.registry = .tables .empty
  empty : v.tree.below v.base = []

/-- Opening a vault makes its storage root a directory that is reached without links. -/
theorem openOn_storage {tree : FileTree} {f : Foundation} (h : openOn tree f = .ok v) :
    ∃ location, v.storageRoot = pathTo location ∧ v.tree.Reached location ∧
      v.tree.get? location = some .directory := by
  simp only [openOn] at h
  split at h
  · cases h
  · rename_i tree made
    split at h
    · cases h
    · rename_i storageRoot canonical
      obtain rfl := Except.ok.inj h
      simp only [canonicalPath, bind_eq_ok] at canonical
      obtain ⟨⟨location, entry⟩, located, canonical⟩ := canonical
      obtain rfl := Except.ok.inj canonical
      obtain rfl := locate_of_makeDirectories made located
      rw [locate, bind_eq_ok] at located
      obtain ⟨⟨⟩, -, walked⟩ := located
      obtain ⟨reached, directory⟩ := reached_of_walk (.root tree) (plainly_through _) walked
      exact ⟨location, rfl, reached, directory⟩

theorem Opened.settled (h : v.Opened) : v.Settled v.base := by
  obtain ⟨⟨tree, f, opened⟩, unknown, empty⟩ := h
  obtain ⟨location, storage, reached, directory⟩ := openOn_storage opened
  have base : v.base = location := by rw [Vault.base, storage, location_pathTo reached.plain]
  rw [base] at empty ⊢
  have rooted : v.tree.Rooted location := by
    refine ⟨reached.plain, fun above ha => ?_, by simp [empty], by simp [empty]⟩
    by_cases he : above = location
    · rw [he, directory]
    · exact reached.directory above ha he
  have noAccount (user : String) : v.registry.account? user = none := by
    rcases unknown with h | h <;> rw [h] <;> rfl
  have noSession (hash : String) : v.registry.session? hash = none := by
    rcases unknown with h | h <;> rw [h] <;> rfl
  have noCredential (user : String) : v.registry.credential? user = none := by
    rcases unknown with h | h <;> rw [h] <;> rfl
  have sound : v.registry.Sound := by
    rcases unknown with h | h <;> rw [h] <;> exact ⟨List.nodup_nil, List.nodup_nil⟩
  exact {
    storage, rooted, sound
    paired := by simp [noCredential, noAccount]
    owned := by simp [noSession]
    plain := by simp [noAccount]
    home := by simp [noAccount]
    addressable := by simp [noAccount]
    alone := by simp [noAccount] }

/-! ## Runs -/

/-- What happens to a vault: a request is answered, or the clock is set. -/
inductive Event
  | request (request : Request)
  | clock (now : UInt64)

/-- What an event leaves of a vault. -/
def step (v : Vault) : Event → Vault
  | .request request => (v.dispatch request).2
  | .clock now => { v with clock := now }

/-- What a sequence of events leaves of a vault. -/
def after (v : Vault) (events : List Event) : Vault :=
  events.foldl step v

theorem after_append (v : Vault) (before later : List Event) :
    v.after (before ++ later) = (v.after before).after later :=
  List.foldl_append ..

theorem Settled.step (h : v.Settled top) (event : Event) : (v.step event).Settled top := by
  cases event with
  | request request => exact (dispatch_does h request).settled h
  | clock now => exact { h with }

theorem Settled.after (h : v.Settled top) (events : List Event) : (v.after events).Settled top := by
  induction events generalizing v with
  | nil => exact h
  | cons event rest ih => exact ih (h.step event)

theorem quota_step (h : v.Settled top) (event : Event) : (v.step event).quota = v.quota := by
  cases event with
  | request request => exact (dispatch_does h request).decided.1
  | clock now => rfl

theorem quota_after (h : v.Settled top) (events : List Event) : (v.after events).quota = v.quota := by
  induction events generalizing v with
  | nil => rfl
  | cons event rest ih => exact (ih (h.step event)).trans (quota_step h event)

theorem sample_opened {registry : Registry}
    (unknown : registry = .maps .empty ∨ registry = .tables .empty) : (sample registry).Opened := by
  rcases unknown with rfl | rfl
  · exact ⟨⟨.empty, sampleFoundation (.maps .empty), rfl⟩, .inl rfl, by decide⟩
  · exact ⟨⟨.empty, sampleFoundation (.tables .empty), rfl⟩, .inr rfl, by decide⟩

/-- The first user of a small vault signs up and logs in. -/
def sampleLogin : List Event :=
  [.request (.signup "ada" "Passw0rd"), .request (.login "ada" "Passw0rd")]

/-- The token that the first user of a small vault is given. -/
def sampleToken : String :=
  "18191a1b1c1d1e1f202122232425262728292a2b2c2d2e2f3031323334353637"

/-- The first user of a small vault makes a directory, changes to it and removes it. -/
def sampleRemoval : List Event :=
  sampleLogin ++ [.request (.mkdir sampleToken "docs"), .request (.cd sampleToken "docs"),
    .request (.remove sampleToken "/docs")]

end Vault

end Strongroom
