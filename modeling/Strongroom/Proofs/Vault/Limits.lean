import Strongroom.Proofs.FileTree.Measures
import Strongroom.Proofs.Vault.Checks
import Strongroom.Proofs.Vault.Runs
/-!
# Limits on what users store

The checks before a file or a directory is added are enough: below every root directory names,
nesting, siblings and the bytes of all files stay within the limits, whatever is requested.
-/

namespace Strongroom

open FileTree Strongroom.Path Registry Sessions
open Function (update update_apply update_of_ne)

/-- What lies below a root directory keeps to the limits. -/
structure FileTree.Within (limits : Limits) (t : FileTree) (root : Location) : Prop where
  nesting : ∀ location, (location, .directory) ∈ t.below root →
    location.length ≤ root.length + limits.maxDirectoryDepth.toNat
  siblings : ∀ location, root <:+ location →
    (t.children location).countP (fun child => child.2 == .directory) ≤
      limits.maxSubdirectories.toNat
  names : ∀ name parent entry, (name :: parent, entry) ∈ t.below root →
    name.length ≤ limits.maxNameLength.toNat
  bytes : t.bytesBelow root ≤ limits.userQuotaBytes.toNat

namespace FileTree.Within

variable {limits : Limits} {t t' : FileTree} {root location parent : Location} {name : Name}
  {entry : Entry}

/-! ## Changes to a tree -/

theorem of_below_eq (h : Within limits t root) (same : t'.below root = t.below root) :
    Within limits t' root where
  nesting := by
    rw [same]
    exact h.nesting
  siblings := fun location hs => by
    rw [children_congr same hs]
    exact h.siblings location hs
  names := by
    rw [same]
    exact h.names
  bytes := by
    rw [bytesBelow, same, ← bytesBelow]
    exact h.bytes

theorem of_below_eq_nil (h : t.below root = []) : Within limits t root := by
  refine ⟨by simp [h], fun location hs => ?_, by simp [h], by simp [bytesBelow, h]⟩
  rw [children_eq_of_below hs, h]
  exact Nat.zero_le _

theorem erase (h : Within limits t root) : Within limits (t.erase location) root where
  nesting := fun l hm => h.nesting l (below_erase_sublist.subset hm)
  siblings := fun l hs => Nat.le_trans children_erase_sublist.countP_le (h.siblings l hs)
  names := fun name parent entry hm => h.names name parent entry (below_erase_sublist.subset hm)
  bytes := Nat.le_trans bytesBelow_erase_le h.bytes

/-- A new entry keeps to the limits if its name is short and its bytes fit, and a directory also if
it does not lie too deep or beside too many others. -/
theorem insert (h : Within limits t root) (short : name.length ≤ limits.maxNameLength.toNat)
    (fits : Entry.size entry + t.bytesBelow root ≤ limits.userQuotaBytes.toNat)
    (flat : entry = .directory →
      (name :: parent).length ≤ root.length + limits.maxDirectoryDepth.toNat)
    (few : entry = .directory → (t.children parent).countP (fun child => child.2 == .directory) <
      limits.maxSubdirectories.toNat) :
    Within limits (t.insert (name :: parent) entry) root := by
  have rest : Within limits (t.erase (name :: parent)) root := h.erase
  refine ⟨fun l hm => ?_, fun l hs => ?_, fun n p e hm => ?_,
    Nat.le_trans bytesBelow_insert_le fits⟩
  · rw [below_insert, List.mem_append] at hm
    rcases hm with hm | hm
    · split at hm
      · simp only [List.mem_singleton, Prod.mk.injEq] at hm
        exact hm.1 ▸ flat hm.2.symm
      · cases hm
    · exact rest.nesting l hm
  · rw [children_insert, List.countP_append]
    split
    · rename_i here
      subst here
      have fewer : ((t.erase (name :: parent)).children parent).countP
          (fun child => child.2 == .directory) ≤
          (t.children parent).countP fun child => child.2 == .directory :=
        children_erase_sublist.countP_le
      by_cases he : entry = .directory
      · have room := few he
        simp only [he, List.countP_singleton, BEq.rfl, if_true]
        omega
      · simpa [he] using rest.siblings parent hs
    · simpa using rest.siblings l hs
  · rw [below_insert, List.mem_append] at hm
    rcases hm with hm | hm
    · split at hm
      · simp only [List.mem_singleton, Prod.mk.injEq, List.cons.injEq] at hm
        exact hm.1.1 ▸ short
      · cases hm
    · exact rest.names n p e hm

end FileTree.Within

/-! ## Runs -/

namespace Vault

variable {top : Location} {v v' : Vault} {user : String}

/-- Every user's root directory keeps to the limits. -/
def WithinLimits (top : Location) (v : Vault) : Prop :=
  ∀ user account, v.registry.account? user = some account →
    Within v.quota.limits v.tree (account.rootId :: top)

/-- What is done at a place below one root directory is done outside of the others. -/
theorem Target.outside (h : v.Settled top) {session : Session} {account other : Account} {name : Name}
    {parent : Location} (target : v.Target top session account name parent)
    (known : v.registry.account? user = some other) (hne : session.username ≠ user) :
    ¬ FileTree.isBelow (other.rootId :: top) (name :: parent) = true := fun hb =>
  h.not_suffix target.known known hne (target.inside.trans (List.suffix_cons ..)) (isBelow_iff.mp hb).1

/-- Below a new root directory there is nothing yet. -/
theorem Settled.below_free (h : v.Settled top) {rootId : Name}
    (free : v.tree.get? (rootId :: top) = none) : v.tree.below (rootId :: top) = [] := by
  rw [List.eq_nil_iff_forall_not_mem]
  rintro ⟨location, entry⟩ hm
  obtain ⟨hm, hb⟩ := mem_below.mp hm
  obtain ⟨hs, hne⟩ := isBelow_iff.mp hb
  have top_below : FileTree.isBelow top location = true :=
    isBelow_iff.mpr ⟨(List.suffix_cons ..).trans hs, fun he => by
      have long := hs.length_le
      simp only [he, List.length_cons] at long
      omega⟩
  cases location with
  | nil => exact ne_nil_of_isBelow hb rfl
  | cons name parent =>
      -- whatever stands there stands in directories, and the root directory is one of them
      have parent_directory : v.tree.get? parent = some .directory :=
        h.rooted.parents (name :: parent, entry) (mem_below.mpr ⟨hm, top_below⟩)
      have hp : rootId :: top <:+ parent := isBelow_cons.mp hb
      have directory : v.tree.get? (rootId :: top) = some .directory := by
        by_cases he : rootId :: top = parent
        · rw [he, parent_directory]
        · exact h.rooted.directory_above ((List.suffix_cons ..).trans hp) parent_directory hp he
      rw [free] at directory
      cases directory

theorem WithinLimits.of_same (within : v.WithinLimits top) (quota : v'.quota = v.quota)
    (accounts : v'.registry.account? = v.registry.account?) (tree : v'.tree = v.tree) :
    v'.WithinLimits top := by
  rw [WithinLimits, quota, accounts, tree]
  exact within

/-- An entry put below one root directory leaves the others as they were. -/
theorem WithinLimits.insert (h : v.Settled top) (within : v.WithinLimits top) {session : Session}
    {account : Account} {name : Name} {parent : Location} {entry : Entry}
    (target : v.Target top session account name parent)
    (own : Within v.quota.limits (v.tree.insert (name :: parent) entry) (account.rootId :: top)) :
    WithinLimits top { v with tree := v.tree.insert (name :: parent) entry } := by
  intro user other known
  by_cases hu : session.username = user
  · obtain rfl := Option.some.inj (target.known.symm.trans (hu ▸ known))
    exact own
  · exact (within user other known).of_below_eq (below_insert_of_outside (target.outside h known hu))

theorem WithinLimits.signedUp (h : v.Settled top) (within : v.WithinLimits top)
    {username rootId : String} {registry : Registry} {entropy : Entropy}
    (free : v.tree.get? (rootId :: top) = none)
    (accounts : registry.account? = update v.registry.account? username (some ⟨username, rootId⟩)) :
    WithinLimits top
      { v with tree := v.tree.insert (rootId :: top) .directory, registry, entropy } := by
  intro user account known
  simp only [accounts, update_apply] at known
  split at known
  · obtain rfl := Option.some.inj known
    refine (Within.of_below_eq_nil (h.below_free free)).of_below_eq (below_insert_of_outside ?_)
    simp [isBelow_iff]
  · refine (within user account known).of_below_eq (below_insert_of_outside fun hb => ?_)
    have long := isBelow_iff.mp hb
    exact long.2 (long.1.eq_of_length (by simp)).symm

theorem WithinLimits.deleted (h : v.Settled top) (within : v.WithinLimits top) {account : Account}
    (known : v.registry.account? user = some account) :
    WithinLimits top
      { v with
        tree := (v.tree.clear (account.rootId :: top)).erase (account.rootId :: top)
        registry := v.forgetting user } := by
  have accounts : (v.forgetting user).account? = update v.registry.account? user none :=
    congrArg Records.account? (records_forgetting h.sound user)
  intro other b found
  simp only [accounts, update_apply] at found
  split at found
  · cases found
  · rename_i hne
    have apart : ∀ l, FileTree.isBelow (b.rootId :: top) l = true →
        ¬ FileTree.isBelow (account.rootId :: top) l = true := fun l hb hb' =>
      h.not_suffix known found (Ne.symm hne) (isBelow_iff.mp hb').1 (isBelow_iff.mp hb).1
    apply (within other b found).of_below_eq
    rw [below_erase_of_outside fun hb => ?_, below_clear_of_outside apart]
    have long := isBelow_iff.mp hb
    exact long.2 (long.1.eq_of_length (by simp)).symm

/-- Whatever a request does, what was within the limits stays within them. -/
theorem Does.withinLimits {request : Request} {response : Response} (h : v.Settled top)
    (walks : v.quota.meter = .walk) (bounded : v.quota.limits.userQuotaBytes.toNat < UInt64.size - 1)
    (within : v.WithinLimits top) (does : Does top v request response v') : v'.WithinLimits top := by
  cases does with
  | refused => exact within
  | @expired _ token session carried found late =>
      have answers := records_deleteSession v.registry (hashToken (presented token))
      exact within.of_same rfl (congrArg Records.account? answers) rfl
  | signedUp plain directory addressable free unknown sound answers =>
      exact within.signedUp h free (congrArg Records.account? answers)
  | loggedIn known sound answers => exact within.of_same rfl (congrArg Records.account? answers) rfl
  | @loggedOut token session accepts =>
      have answers := records_deleteSessionsFor h.sound.sessions session.username
      exact within.of_same rfl (congrArg Records.account? answers) rfl
  | deleted accepts known => exact within.deleted h known
  | moved moves accepts sound answers =>
      exact within.of_same rfl (congrArg Records.account? answers) rfl
  | looked => exact within
  | @uploaded token path body session account name parent accepts target checked file =>
      have own := within _ account target.known
      obtain ⟨short, fits⟩ :=
        (h.checkNameAndSize_eq_ok target.known walks bounded target.plain rfl).mp checked
      rw [Nat.add_comm] at fits
      exact within.insert h target (own.insert short fits (fun he => by cases he) fun he => by cases he)
  | @madeDirectory token path session account name parent accepts target checked free =>
      have own := within _ account target.known
      obtain ⟨sized, nested, room⟩ := Quota.of_checkNewDirectory checked
      have short := ((h.checkNameAndSize_eq_ok target.known walks bounded target.plain
        (Quota.saturate_toNat _).symm).mp sized).1
      have fits : Entry.size .directory + v.tree.bytesBelow (account.rootId :: top) ≤
          v.quota.limits.userQuotaBytes.toNat := by
        simp only [Entry.size, Nat.zero_add]
        exact own.bytes
      have flat :=
        (Quota.checkNesting_iff target.plain (target.inside.trans (List.suffix_cons ..))).mp nested
      rw [Quota.checkSiblings_eq h.rooted ((List.suffix_cons ..).trans target.inside) target.plain
        target.directory target.addressable] at room
      have few := of_decide_eq_true (Except.ok.inj room)
      exact within.insert h target (own.insert short fits (fun _ => flat) fun _ => few)
  | removed accepts target emptied =>
      intro user other known
      exact (within user other known).erase

theorem WithinLimits.after (h : v.Settled top) (walks : v.quota.meter = .walk)
    (bounded : v.quota.limits.userQuotaBytes.toNat < UInt64.size - 1) (within : v.WithinLimits top)
    (events : List Event) : (v.after events).WithinLimits top := by
  induction events generalizing v with
  | nil => exact within
  | cons event rest ih =>
      have kept := quota_step h event
      apply ih (h.step event) (by rw [kept, walks]) (by rwa [kept])
      cases event with
      | request request => exact (dispatch_does h request).withinLimits h walks bounded within
      | clock now => exact within

theorem Opened.withinLimits {v₀ : Vault} (opened : v₀.Opened) (walks : v₀.quota.meter = .walk)
    (bounded : v₀.quota.limits.userQuotaBytes.toNat < UInt64.size - 1) (events : List Event) :
    (v₀.after events).WithinLimits v₀.base := by
  have empty : v₀.WithinLimits v₀.base := fun user account known => by
    rcases opened.unknown with he | he <;> rw [he] at known <;> cases known
  exact empty.after opened.settled walks bounded events

/-- Limits hold over whole runs: with usage measured by a walk and a quota below the largest number,
after any run every root directory that the vault knows is a directory of the host, and what lies
below it keeps to the limits. -/
theorem limits_hold {v₀ : Vault} (opened : v₀.Opened) (walks : v₀.quota.meter = .walk)
    (bounded : v₀.quota.limits.userQuotaBytes.toNat < UInt64.size - 1) (events : List Event)
    {root : Path} (known : (v₀.after events).rootFor user = .ok root) :
    (v₀.after events).tree.locate true root = .ok (root.location, .directory) ∧
      Within v₀.quota.limits (v₀.after events).tree root.location := by
  have settled := opened.settled.after events
  cases ha : (v₀.after events).registry.account? user with
  | none => simp [rootFor, ha] at known
  | some account =>
      rw [settled.rootFor ha] at known
      obtain rfl := Except.ok.inj known
      have plain := settled.plain_root ha
      rw [location_pathTo plain]
      constructor
      · exact (settled.rooted.locate_eq_ok (List.suffix_cons ..) plain).mpr
          ⟨rfl, settled.home _ _ ha, settled.addressable _ _ ha⟩
      · rw [← quota_after opened.settled events]
        exact opened.withinLimits walks bounded events user account ha

/-- A file of three bytes in a root directory of its own. -/
theorem limits_hold_upload :
    let v := (sample (.maps .empty)).after
      [.request (.signup "ada" "Passw0rd"), .request (.login "ada" "Passw0rd"),
        .request (.upload "18191a1b1c1d1e1f202122232425262728292a2b2c2d2e2f3031323334353637" "note"
          [1, 2, 3])]
    v.tree.bytesBelow ["r1011121314151617", "vault"] = 3 ∧
      Within {} v.tree ["r1011121314151617", "vault"] := by
  intro v
  have facts : v.registry.account? "ada" = some ⟨"ada", "r1011121314151617"⟩ ∧
      (v.rootPath "r1011121314151617").location = ["r1011121314151617", "vault"] ∧
      v.tree.bytesBelow ["r1011121314151617", "vault"] = 3 := by decide +kernel
  obtain ⟨account, location, three⟩ := facts
  have known : v.rootFor "ada" = .ok (v.rootPath "r1011121314151617") := by
    rw [rootFor, account]
  have within := (limits_hold (sample_opened (.inl rfl)) rfl (by decide) _ known).2
  rw [location] at within
  exact ⟨three, within⟩

end Vault

end Strongroom
