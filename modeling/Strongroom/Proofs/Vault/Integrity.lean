import Mathlib.Data.List.Nodup
import Strongroom.Proofs.Access.SessionHistory
import Strongroom.Proofs.Vault.Runs
/-!
# Users apart

What a user requests, with whatever paths, changes no record and no file of another user, and
nothing on the host outside of the user's own root directory.
-/

namespace Strongroom

open FileTree Strongroom.Path Registry Sessions
open Function (update update_apply update_of_ne)

/-- The user that a request names, if it names one. -/
def Request.name? : Request → Option String
  | .signup username _ => some username
  | .login username _ => some username
  | _ => none

/-- With these tokens issued, a request is made by a user if it carries a token of the user, or if
it names the user to sign up or to log in. -/
def Request.IsBy (issued : List (String × String)) (user : String) (request : Request) : Prop :=
  request.name? = some user ∨
    ∃ token, request.token? = some token ∧ (user, presented token) ∈ issued

namespace Registry.Records

/-- Between two states of the records nothing has changed but what is of this user. -/
structure Spares (user : String) (r r' : Records) : Prop where
  credential : ∀ other, other ≠ user → r'.credential? other = r.credential? other
  account : ∀ other, other ≠ user → r'.account? other = r.account? other
  workingDirectory : ∀ other, other ≠ user →
    r'.workingDirectory? other = r.workingDirectory? other
  session : ∀ hash session, session.username ≠ user →
    (r'.session? hash = some session ↔ r.session? hash = some session)

namespace Spares

variable {user : String} {r r' r'' : Records}

theorem refl (user : String) (r : Records) : r.Spares user r :=
  ⟨fun _ _ => rfl, fun _ _ => rfl, fun _ _ => rfl, fun _ _ _ => Iff.rfl⟩

theorem trans (h : r.Spares user r') (h' : r'.Spares user r'') : r.Spares user r'' where
  credential := fun other hne => (h'.credential other hne).trans (h.credential other hne)
  account := fun other hne => (h'.account other hne).trans (h.account other hne)
  workingDirectory := fun other hne =>
    (h'.workingDirectory other hne).trans (h.workingDirectory other hne)
  session := fun hash s hne => (h'.session hash s hne).trans (h.session hash s hne)

theorem moved (directory : Option WorkingDirectory) :
    r.Spares user { r with workingDirectory? := update r.workingDirectory? user directory } :=
  { refl user r with workingDirectory := fun _ hne => update_of_ne hne .. }

theorem entered (credential : Option Credential) (account : Option Account)
    (directory : Option WorkingDirectory) :
    r.Spares user { r with
      credential? := update r.credential? user credential
      account? := update r.account? user account
      workingDirectory? := update r.workingDirectory? user directory } :=
  { refl user r with
    credential := fun _ hne => update_of_ne hne ..
    account := fun _ hne => update_of_ne hne ..
    workingDirectory := fun _ hne => update_of_ne hne .. }

theorem withdrawn :
    r.Spares user { r with
      session? := fun hash => (r.session? hash).filter fun s => s.username != user } := by
  refine { refl user r with session := fun hash s hne => ?_ }
  rw [Option.filter_eq_some_iff, bne_iff_ne]
  exact and_iff_left hne

/-- A session may be put or taken away where there is none of another user. -/
theorem replaced {hash : String} {session : Option Session}
    (old : ∀ s, r.session? hash = some s → s.username = user)
    (new : ∀ s, session = some s → s.username = user) :
    r.Spares user { r with session? := update r.session? hash session } := by
  refine { refl user r with session := fun key s hne => ?_ }
  simp only [update_apply]
  split
  · rename_i here
    subst here
    exact ⟨fun hs => absurd (new s hs) hne, fun hs => absurd (old s hs) hne⟩
  · exact Iff.rfl

end Spares

end Registry.Records

namespace Vault

/-- Whether a location is the root directory of a user or lies below it. -/
def Holds (v : Vault) (user : String) (location : Location) : Prop :=
  ∃ root, v.rootFor user = .ok root ∧ root.location <:+ location

/-- Between two vaults nothing has changed but what is of this user. -/
structure Spares (user : String) (v v' : Vault) : Prop where
  records : v.registry.records.Spares user v'.registry.records
  host : ∀ location, ¬ v.Holds user location → ¬ v'.Holds user location →
    v'.tree.get? location = v.tree.get? location

/-- The tokens that an event issues. -/
def Event.issues (v : Vault) : Event → List (String × String)
  | .request asked => asked.issue (v.dispatch asked).1
  | .clock _ => []

/-- The tokens that are issued in the course of some events, each after its user. -/
def issued (v : Vault) : List Event → List (String × String)
  | [] => []
  | event :: rest => event.issues v ++ issued (v.step event) rest

/-- Every session is of a token that was issued to its user. -/
def Traced (issued : List (String × String)) (v : Vault) : Prop :=
  ∀ hash session, v.registry.session? hash = some session →
    ∃ token, (session.username, token) ∈ issued ∧ hashToken token = hash

variable {top : Location} {v v' : Vault} {user other : String} {request : Request}
  {response : Response}

/-! ## Where a user is -/

theorem Settled.of_rootFor (h : v.Settled top) {root : Path} (known : v.rootFor user = .ok root) :
    ∃ account, v.registry.account? user = some account ∧
      root.location = account.rootId :: top := by
  cases ha : v.registry.account? user with
  | none => simp [Vault.rootFor, ha] at known
  | some account =>
      rw [h.rootFor ha] at known
      obtain rfl := Except.ok.inj known
      exact ⟨account, rfl, location_pathTo (h.plain_root ha)⟩

theorem Settled.holds_iff (h : v.Settled top) {location : Location} :
    v.Holds user location ↔
      ∃ account, v.registry.account? user = some account ∧ account.rootId :: top <:+ location := by
  constructor
  · rintro ⟨root, known, inside⟩
    obtain ⟨account, ha, he⟩ := h.of_rootFor known
    exact ⟨account, ha, he ▸ inside⟩
  · rintro ⟨account, ha, inside⟩
    refine ⟨_, h.rootFor ha, ?_⟩
    rwa [location_pathTo (h.plain_root ha)]

theorem Settled.directory_of_rootFor (h : v.Settled top) {root : Path}
    (known : v.rootFor user = .ok root) : v.tree.get? root.location = some .directory := by
  obtain ⟨account, ha, he⟩ := h.of_rootFor known
  rw [he, h.home user account ha]

/-- No location is of two users. -/
theorem Settled.not_holds (h : v.Settled top) (hne : other ≠ user) {location : Location}
    (held : v.Holds other location) : ¬ v.Holds user location := by
  obtain ⟨b, hb, inside⟩ := h.holds_iff.mp held
  intro held'
  obtain ⟨a, ha, inside'⟩ := h.holds_iff.mp held'
  exact h.not_suffix hb ha hne inside inside'

theorem Target.holds (h : v.Settled top) {session : Session} {account : Account} {name : Name}
    {parent : Location} (target : v.Target top session account name parent) :
    v.Holds session.username (name :: parent) :=
  h.holds_iff.mpr ⟨account, target.known, target.inside.trans (List.suffix_cons ..)⟩

/-! ## Requests -/

/-- What is done at one place of a user changes nothing elsewhere. -/
theorem Spares.ofTree {tree : FileTree} {location : Location} (held : v.Holds user location)
    (same : ∀ l, l ≠ location → tree.get? l = v.tree.get? l) : Spares user v { v with tree } where
  records := .refl user _
  host := fun l away _ => same l fun he => away (he ▸ held)

theorem Spares.ofRegistry {registry : Registry} {entropy : Entropy}
    (records : v.registry.records.Spares user registry.records) :
    Spares user v { v with registry, entropy } :=
  ⟨records, fun _ _ _ => rfl⟩

theorem Settled.spares_signedUp (h : v.Settled top) {rootId : String} {credential : Credential}
    {directory : WorkingDirectory} {registry : Registry} {entropy : Entropy} (plain : IsPlain rootId)
    (addressable : Addressable (rootId :: top)) (free : v.tree.get? (rootId :: top) = none)
    (sound : registry.Sound)
    (answers : registry.records = { v.registry.records with
      credential? := update v.registry.credential? user (some credential)
      account? := update v.registry.account? user (some ⟨user, rootId⟩)
      workingDirectory? := update v.registry.workingDirectory? user (some directory) }) :
    Spares user v
      { v with tree := v.tree.insert (rootId :: top) .directory, registry, entropy } where
  records := answers ▸ .entered _ _ _
  host := fun location _ away => by
    have accounts : registry.account? = update v.registry.account? user (some ⟨user, rootId⟩) :=
      congrArg Records.account? answers
    have known : registry.account? user = some ⟨user, rootId⟩ := by
      rw [accounts, update_apply, if_pos rfl]
    refine get?_insert_of_ne (List.cons_ne_nil _ _) fun he => away ?_
    exact (h.signedUp plain addressable free sound answers).holds_iff.mpr
      ⟨⟨user, rootId⟩, known, he ▸ List.suffix_refl _⟩

theorem Settled.spares_deleted (h : v.Settled top) {account : Account}
    (known : v.registry.account? user = some account) :
    Spares user v
      { v with
        tree := (v.tree.clear (account.rootId :: top)).erase (account.rootId :: top)
        registry := v.forgetting user } where
  records := records_forgetting h.sound user ▸ Records.Spares.withdrawn.trans (.entered none none none)
  host := fun location away _ => by
    have outside : ¬ account.rootId :: top <:+ location := fun inside =>
      away (h.holds_iff.mpr ⟨account, known, inside⟩)
    have elsewhere : location ≠ account.rootId :: top := fun he => outside (he ▸ List.suffix_refl _)
    rw [get?_erase_of_ne (List.cons_ne_nil _ _) elsewhere, get?_clear, if_neg]
    exact fun below => outside (isBelow_iff.mp below).1

/-- A request changes only what is of one user, if it names no other user, carries no token whose
session is of another, and issues no token that stands for another. -/
theorem Does.spares (h : v.Settled top) (does : Does top v request response v')
    (names : ∀ name, request.name? = some name → name = user)
    (speaks : ∀ token session, request.token? = some token →
      v.registry.session? (hashToken (presented token)) = some session → session.username = user)
    (fresh : ∀ name token session, (name, token) ∈ request.issue response →
      v.registry.session? (hashToken token) = some session → session.username = user) :
    Spares user v v' := by
  cases does with
  | refused => exact .ofRegistry (.refl user _)
  | @expired _ token session carried found late =>
      have answers := records_deleteSession v.registry (hashToken (presented token))
      exact .ofRegistry (answers ▸ .replaced (fun s hs => speaks token s carried hs) (by simp))
  | @signedUp username password salt rootId registry entropy plain directory addressable free unknown
      sound answers =>
      obtain rfl := names username rfl
      exact h.spares_signedUp plain addressable free sound answers
  | @loggedIn username password token account path registry entropy known sound answers =>
      obtain rfl := names username rfl
      have old : ∀ s, (v.registry.session? (hashToken token)).filter (fun s => s.username != username) =
          some s → s.username = username := fun s hs =>
        fresh username token s (List.mem_singleton_self _) (Option.filter_eq_some_iff.mp hs).1
      refine .ofRegistry (answers ▸ ?_)
      exact (Records.Spares.withdrawn.trans (.replaced old (by rintro _ ⟨⟩; rfl))).trans (.moved _)
  | @loggedOut token session accepts =>
      obtain rfl := speaks token session rfl accepts.found
      have answers := records_deleteSessionsFor h.sound.sessions session.username
      exact .ofRegistry (answers ▸ .withdrawn)
  | @deleted token session account accepts known =>
      obtain rfl := speaks token session rfl accepts.found
      exact h.spares_deleted known
  | @moved _ token session path registry reply s moves accepts sound answers =>
      have carried : request.token? = some token := by
        rcases moves with rfl | ⟨raw, rfl⟩ <;> rfl
      obtain rfl := speaks token session carried accepts.found
      exact .ofRegistry (answers ▸ .moved _)
  | looked => exact .ofRegistry (.refl user _)
  | @uploaded token path body session account name parent accepts target checked file =>
      obtain rfl := speaks token session rfl accepts.found
      exact .ofTree (target.holds h) fun l => get?_insert_of_ne (List.cons_ne_nil _ _)
  | @madeDirectory token path session account name parent accepts target checked free =>
      obtain rfl := speaks token session rfl accepts.found
      exact .ofTree (target.holds h) fun l => get?_insert_of_ne (List.cons_ne_nil _ _)
  | @removed token path session account name parent accepts target emptied =>
      obtain rfl := speaks token session rfl accepts.found
      exact .ofTree (target.holds h) fun l => get?_erase_of_ne (List.cons_ne_nil _ _)

/-- The root directory of every user stays where it is, if nobody signs up or is deleted. -/
theorem Does.rootFor (h : v.Settled top) (does : Does top v request response v')
    (old : ∀ username password, request ≠ .signup username password)
    (stays : ∀ token, request ≠ .delete token) (user : String) : v'.rootFor user = v.rootFor user := by
  have place : v'.storageRoot = v.storageRoot := does.decided.2.2.1
  simp only [Vault.rootFor, Vault.rootPath, does.accounts h old stays, place]

/-! ## Tokens -/

theorem issued_append (v : Vault) (before later : List Event) :
    issued v (before ++ later) = issued v before ++ issued (v.after before) later := by
  induction before generalizing v with
  | nil => rfl
  | cons event rest ih =>
      rw [List.cons_append, issued, issued, ih, List.append_assoc, after, after, List.foldl_cons]

/-- A session whose token was not just issued was there before. -/
theorem Does.traced (h : v.Settled top) {tokens : List (String × String)} (traced : Traced tokens v)
    (does : Does top v request response v') : Traced (tokens ++ request.issue response) v' := by
  intro hash session found
  rcases does.session_cases h found with old | ⟨-, token, mem, he⟩
  · obtain ⟨token, mem, he⟩ := traced hash session old
    exact ⟨token, List.mem_append_left _ mem, he⟩
  · exact ⟨token, List.mem_append_right _ mem, he⟩

theorem Traced.after (h : v.Settled top) {tokens : List (String × String)} (traced : Traced tokens v)
    (events : List Event) : Traced (tokens ++ issued v events) (v.after events) := by
  induction events generalizing v tokens with
  | nil =>
      rw [issued, List.append_nil]
      exact traced
  | cons event rest ih =>
      rw [issued, ← List.append_assoc]
      apply ih (h.step event)
      cases event with
      | request asked => exact (dispatch_does h asked).traced h traced
      | clock now =>
          rw [Event.issues, List.append_nil]
          exact traced

theorem Opened.traced (h : v.Opened) (events : List Event) :
    Traced (issued v events) (v.after events) := by
  have none : Traced [] v := fun hash session found => by
    rcases h.unknown with he | he <;> rw [he] at found <;> cases found
  exact none.after h.settled events

/-- If no token is issued twice and no two have the same hash, the session at the hash of a token
is of the user to whom it was issued. -/
theorem Traced.username_eq {tokens more : List (String × String)} (traced : Traced tokens v)
    (distinct : ((tokens ++ more).map Prod.snd).Nodup)
    (free : CollisionFree ((tokens ++ more).map Prod.snd)) {token : String} {session : Session}
    (mem : (user, token) ∈ tokens ++ more)
    (found : v.registry.session? (hashToken token) = some session) : session.username = user := by
  obtain ⟨original, issued, he⟩ := traced _ _ found
  have issued : (session.username, original) ∈ tokens ++ more := List.mem_append_left _ issued
  have same : original = token := free _ (List.mem_map_of_mem issued) _ (List.mem_map_of_mem mem) he
  exact (Prod.mk.inj (List.inj_on_of_nodup_map distinct issued mem same)).1

/-! ## Any request of a user -/

theorem Request.token?_of_name? {name : String} (named : request.name? = some name) :
    request.token? = none := by
  cases request with
  | signup => rfl
  | login => rfl
  | _ => cases named

theorem Request.name?_of_issue {name token : String} (mem : (name, token) ∈ request.issue response) :
    request.name? = some name := by
  unfold Request.issue at mem
  split at mem
  · obtain ⟨rfl, -⟩ := Prod.mk.inj (List.mem_singleton.mp mem)
    rfl
  · cases mem

/-- Users do not affect each other: if no token is issued twice and no two have the same hash, then
after any run a request by a user, with any paths and bodies, leaves the records of all other users,
what is at and below their root directories, and all of the host outside of the user's own root
directory as they were.  That root directory itself comes and goes only as the user signs up or is
deleted. -/
theorem dispatch_spares {v₀ : Vault} (opened : v₀.Opened) (events : List Event) (request : Request)
    (user : String) (own : request.IsBy (v₀.issued events) user)
    (distinct : ((v₀.issued (events ++ [.request request])).map Prod.snd).Nodup)
    (free : CollisionFree ((v₀.issued (events ++ [.request request])).map Prod.snd)) :
    let v := v₀.after events
    let v' := (v.dispatch request).2
    Spares user v v' ∧
    (∀ other location, other ≠ user → v.Holds other location →
      v'.tree.get? location = v.tree.get? location) ∧
    ((∀ password, request ≠ .signup user password) → (∀ token, request ≠ .delete token) →
      ∀ root, v.rootFor user = .ok root → v'.rootFor user = .ok root ∧
        v'.tree.get? root.location = v.tree.get? root.location) := by
  intro v v'
  have settled : v.Settled v₀.base := opened.settled.after events
  have does : Does v₀.base v request (v.dispatch request).1 v' := dispatch_does settled request
  have settled' : v'.Settled v₀.base := does.settled settled
  have traced := opened.traced events
  rw [issued_append, issued, issued, List.append_nil] at distinct free
  have names : ∀ name, request.name? = some name → name = user := by
    intro name named
    rcases own with same | ⟨token, carried, -⟩
    · exact Option.some.inj (named.symm.trans same)
    · rw [Request.token?_of_name? named] at carried
      cases carried
  have spares : Spares user v v' := by
    refine does.spares settled names ?_ ?_
    · intro token session carried found
      rcases own with named | ⟨token', carried', mem⟩
      · rw [Request.token?_of_name? named] at carried
        cases carried
      · obtain rfl := Option.some.inj (carried.symm.trans carried')
        exact traced.username_eq distinct free (List.mem_append_left _ mem) found
    · intro name token session mem found
      obtain rfl := names name (Request.name?_of_issue mem)
      exact traced.username_eq distinct free (List.mem_append_right _ mem) found
  refine ⟨spares, fun other location hne held => ?_, fun old stays root known => ?_⟩
  · -- what is of another user afterwards is what was of that user before
    have held' : v'.Holds other location := by
      obtain ⟨account, known, inside⟩ := settled.holds_iff.mp held
      exact settled'.holds_iff.mpr ⟨account, (spares.records.account other hne).trans known, inside⟩
    exact spares.host location (settled.not_holds hne held) (settled'.not_holds hne held')
  · have same : v'.rootFor user = v.rootFor user :=
      does.rootFor settled (fun name password he => old password (by
        obtain rfl := names name (he ▸ rfl)
        exact he)) stays user
    rw [known] at same
    exact ⟨same, (settled'.directory_of_rootFor same).trans (settled.directory_of_rootFor known).symm⟩

/-- A path that climbs above the root directory, and names that of another user, leads below the
user's own. -/
theorem dispatch_spares_upload :
    let bob := "303132333435363738393a3b3c3d3e3f404142434445464748494a4b4c4d4e4f"
    let events : List Event := [.request (.signup "ada" "Passw0rd"), .request (.signup "bob" "Passw0rd"),
      .request (.login "bob" "Passw0rd")]
    let v := (sample (.maps .empty)).after events
    let v' := (v.dispatch (.upload bob "/../r1011121314151617/../note" [4])).2
    Spares "bob" v v' ∧ v.Holds "ada" ["note", "r1011121314151617", "vault"] ∧
      v'.tree.get? ["note", "r1011121314151617", "vault"] = none ∧
      v'.tree.get? ["note", "r28292a2b2c2d2e2f", "vault"] = some (.file [4]) := by
  intro bob events v v'
  have facts : ("bob", presented bob) ∈ (sample (.maps .empty)).issued events ∧
      ((sample (.maps .empty)).issued (events ++
        [.request (.upload bob "/../r1011121314151617/../note" [4])])).map Prod.snd = [bob] ∧
      v.registry.account? "ada" = some ⟨"ada", "r1011121314151617"⟩ ∧
      v'.tree.get? ["note", "r1011121314151617", "vault"] = none ∧
      v'.tree.get? ["note", "r28292a2b2c2d2e2f", "vault"] = some (.file [4]) := by decide +kernel
  obtain ⟨own, tokens, account, absent, written⟩ := facts
  have spares := dispatch_spares (sample_opened (.inl rfl)) events
    (.upload bob "/../r1011121314151617/../note" [4]) "bob" (.inr ⟨bob, rfl, own⟩)
    (by simp [tokens]) (by simp [tokens, CollisionFree])
  have held : v.Holds "ada" ["note", "r1011121314151617", "vault"] := by
    have settled : v.Settled ["vault"] := (sample_opened (.inl rfl)).settled.after events
    exact settled.holds_iff.mpr ⟨_, account, List.suffix_cons ..⟩
  exact ⟨spares.1, held, absent, written⟩

end Vault

end Strongroom
