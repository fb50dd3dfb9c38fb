import Strongroom.Proofs.Vault.Effects
import Strongroom.Proofs.Vault.Limits
/-!
# What is admitted

After any run, whether a user may make a directory, store a file or remove an entry is decided by the
limits and by what stands at the place and at its parent.  What is refused leaves the vault as it was.
-/

namespace Strongroom

open FileTree Strongroom.Path Registry Sessions

/-! ## Conditions -/

/-- A place where a directory may be made below a root directory. -/
structure FileTree.AdmitsDirectory (limits : Limits) (t : FileTree) (root : Location) (name : Name)
    (parent : Location) : Prop where
  short : name.length ≤ limits.maxNameLength.toNat
  fits : t.bytesBelow root + limits.directoryCostBytes.toNat ≤ limits.userQuotaBytes.toNat
  flat : (name :: parent).length ≤ root.length + limits.maxDirectoryDepth.toNat
  housed : t.get? parent = some .directory
  roomy : (t.children parent).countP (fun child => child.2 == .directory) <
    limits.maxSubdirectories.toNat
  free : t.get? (name :: parent) = none

/-- A place where a file of so many bytes may be stored below a root directory. -/
structure FileTree.AdmitsFile (limits : Limits) (t : FileTree) (root : Location) (size : Nat)
    (name : Name) (parent : Location) : Prop where
  short : name.length ≤ limits.maxNameLength.toNat
  fits : t.bytesBelow root + size ≤ limits.userQuotaBytes.toNat
  housed : t.get? parent = some .directory
  file : t.get? (name :: parent) ≠ some .directory

/-- A place with an entry that may be removed. -/
def FileTree.AdmitsRemoval (t : FileTree) (location : Location) : Prop :=
  (∃ body, t.get? location = some (.file body)) ∨
    t.get? location = some .directory ∧ t.children location = []

namespace Vault

/-- The place that a path of an accepted user leads to, at the user's root directory or below it. -/
structure Spot (top : Location) (v : Vault) (token : String) (session : Session) (account : Account)
    (s : Sandbox) (path : String) (name : Name) (parent : Location) : Prop where
  settled : v.Settled top
  accepts : v.Accepts token session
  known : v.registry.account? session.username = some account
  own : v.sandbox? session.username = some s
  root : s.IsAt (account.rootId :: top)
  place : s.resolve ⟨path⟩ = pathTo (name :: parent)
  above : top <:+ parent
  inside : account.rootId :: top <:+ name :: parent
  plain : ∀ n ∈ name :: parent, IsPlain n

variable {top parent : Location} {v : Vault} {token path : String} {session : Session}
  {account : Account} {s : Sandbox} {name : Name}

theorem Settled.spot (h : v.Settled top) (accepts : v.Accepts token session) (path : String) :
    ∃ account s name parent, Spot top v token session account s path name parent := by
  obtain ⟨account, known⟩ := h.owner accepts.found
  obtain ⟨s, own, root⟩ := h.sandbox known
  obtain ⟨name, parent, above, plain, place, -, spot⟩ := exists_place h known own path
  refine ⟨account, s, name, parent, h, accepts, known, own, root, place, above, ?_, plain⟩
  rcases spot with same | inside
  · exact same ▸ List.suffix_refl _
  · exact inside.trans (List.suffix_cons ..)

/-- A run that either fails with nothing changed or does what is admitted is decided by what is
admitted. -/
theorem decided_of_cases {run : Except Failure Unit × Vault} {after : Vault} {admitted : Prop}
    (h : (∃ failure, run = (.error failure, v) ∧ ¬ admitted) ∨ (run = (.ok (), after) ∧ admitted)) :
    (run.1 = .ok () ↔ admitted) ∧ (run.1 = .ok () → run.2 = after) ∧ (run.1 ≠ .ok () → run.2 = v) := by
  rcases h with ⟨failure, rfl, refused⟩ | ⟨rfl, admits⟩
  · simp [refused]
  · simp [admits]

namespace Spot

variable (h : Spot top v token session account s path name parent)

include h

theorem leadsTo : v.leadsTo? session.username path = some (name :: parent) :=
  leadsTo?_of_resolve h.own h.plain h.place

theorem rootFor : v.rootFor session.username = .ok (pathTo (account.rootId :: top)) :=
  h.settled.rootFor h.known

theorem location_root : (pathTo (account.rootId :: top)).location = account.rootId :: top :=
  location_pathTo (h.settled.plain_root h.known)

/-! ## Directories -/

theorem runOn_mkdir :
    (Files.mkdir token path).runOn v =
      match v.quota.checkNewDirectory v.tree (pathTo (account.rootId :: top)) (pathTo (name :: parent))
        with
      | .error failure => (.error failure, v)
      | .ok () =>
        ((Files.makeDirectory v.tree (pathTo (name :: parent)) (s.display (pathTo (name :: parent)))).1,
          { v with
            tree := (Files.makeDirectory v.tree (pathTo (name :: parent))
              (s.display (pathTo (name :: parent)))).2 }) := by
  have ran := Files.runOn_mkdir (runOn_caller h.accepts h.own) path
  rw [h.place, h.root.root_eq] at ran
  exact ran

/-- In a directory, the checks pass if the limits hold. -/
theorem checkNewDirectory_eq_ok (walks : v.quota.meter = .walk)
    (bounded : v.quota.limits.userQuotaBytes.toNat < UInt64.size - 1)
    (housed : v.tree.get? parent = some .directory) (ha : Addressable (name :: parent)) :
    v.quota.checkNewDirectory v.tree (pathTo (account.rootId :: top)) (pathTo (name :: parent)) =
        .ok () ↔
      name.length ≤ v.quota.limits.maxNameLength.toNat ∧
        v.tree.bytesBelow (account.rootId :: top) + v.quota.limits.directoryCostBytes.toNat ≤
          v.quota.limits.userQuotaBytes.toNat ∧
        (name :: parent).length ≤
          (account.rootId :: top).length + v.quota.limits.maxDirectoryDepth.toNat ∧
        (v.tree.children parent).countP (fun child => child.2 == .directory) <
          v.quota.limits.maxSubdirectories.toNat := by
  rw [h.settled.checkNewDirectory_eq h.known walks bounded h.plain h.inside,
    Quota.checkSiblings_eq h.settled.rooted h.above h.plain housed ha]
  by_cases roomy : (v.tree.children parent).countP (fun child => child.2 == .directory) <
      v.quota.limits.maxSubdirectories.toNat
  · simp only [roomy, decide_true, and_true]
    split
    · simp only [reduceCtorEq, false_iff]
      omega
    · split
      · simp only [reduceCtorEq, false_iff]
        omega
      · split
        · simp only [reduceCtorEq, false_iff]
          omega
        · simp only [true_iff]
          omega
  · simp only [roomy, decide_false, and_false, iff_false]
    split
    · simp
    · split
      · simp
      · split
        · simp
        · simp

/-- A directory is made where it is admitted, and otherwise nothing changes. -/
theorem mkdir_cases (walks : v.quota.meter = .walk)
    (bounded : v.quota.limits.userQuotaBytes.toNat < UInt64.size - 1)
    (ha : Addressable (name :: parent)) :
    (∃ failure, (Files.mkdir token path).runOn v = (.error failure, v) ∧
      ¬ v.tree.AdmitsDirectory v.quota.limits (account.rootId :: top) name parent) ∨
    ((Files.mkdir token path).runOn v =
        (.ok (), { v with tree := v.tree.insert (name :: parent) .directory }) ∧
      v.tree.AdmitsDirectory v.quota.limits (account.rootId :: top) name parent) := by
  have passes (housed : v.tree.get? parent = some .directory) :=
    h.checkNewDirectory_eq_ok walks bounded housed ha
  rw [h.runOn_mkdir]
  cases checked : v.quota.checkNewDirectory v.tree (pathTo (account.rootId :: top))
      (pathTo (name :: parent)) with
  | error failure =>
      refine .inl ⟨failure, rfl, fun admits => ?_⟩
      have passed := (passes admits.housed).mpr ⟨admits.short, admits.fits, admits.flat, admits.roomy⟩
      rw [checked] at passed
      cases passed
  | ok =>
      rcases Files.makeDirectory_cases h.settled.rooted h.above h.plain
        (s.display (pathTo (name :: parent))) with ⟨failure, -, made⟩ | ⟨housed, -, free, made⟩
      · refine .inl ⟨failure, by rw [made], fun admits => ?_⟩
        rw [Files.makeDirectory_eq h.settled.rooted h.above h.plain admits.housed admits.free ha] at made
        cases made
      · obtain ⟨short, fits, flat, roomy⟩ := (passes housed).mp checked
        exact .inr ⟨by rw [made], short, fits, flat, housed, roomy, free⟩

/-! ## Files -/

theorem runOn_upload (body : Bytes) :
    (Files.upload token path body).runOn v =
      match v.quota.checkNameAndSize v.tree (pathTo (account.rootId :: top))
        (.file (saturate body.length)) (pathTo (name :: parent)) with
      | .error failure => (.error failure, v)
      | .ok () =>
        ((Files.write v.tree (pathTo (name :: parent)) (s.display (s.resolve ⟨path⟩)) body).1,
          { v with
            tree := (Files.write v.tree (pathTo (name :: parent)) (s.display (s.resolve ⟨path⟩))
              body).2 }) := by
  have ran := Files.runOn_upload (runOn_caller h.accepts h.own) path body
  rw [h.place, h.root.root_eq] at ran
  rw [h.place]
  exact ran

/-- A file is stored where it is admitted, and otherwise nothing changes. -/
theorem upload_cases (walks : v.quota.meter = .walk)
    (bounded : v.quota.limits.userQuotaBytes.toNat < UInt64.size - 1)
    (ha : Addressable (name :: parent))
    (room : (pathTo (v.tree.stagedIn parent)).text.utf8ByteSize ≤ maxPathBytes) (body : Bytes) :
    (∃ failure, (Files.upload token path body).runOn v = (.error failure, v) ∧
      ¬ v.tree.AdmitsFile v.quota.limits (account.rootId :: top) body.length name parent) ∨
    ((Files.upload token path body).runOn v =
        (.ok (), { v with tree := v.tree.insert (name :: parent) (.file body) }) ∧
      v.tree.AdmitsFile v.quota.limits (account.rootId :: top) body.length name parent) := by
  have passes := h.settled.checkNameAndSize_eq_ok h.known walks bounded h.plain
    (show Addition.bytes v.quota.limits (.file (saturate body.length)) = saturate body.length from rfl)
  rw [h.runOn_upload]
  cases checked : v.quota.checkNameAndSize v.tree (pathTo (account.rootId :: top))
      (.file (saturate body.length)) (pathTo (name :: parent)) with
  | error failure =>
      refine .inl ⟨failure, rfl, fun admits => ?_⟩
      have passed := passes.mpr ⟨admits.short, admits.fits⟩
      rw [checked] at passed
      cases passed
  | ok =>
      obtain ⟨short, fits⟩ := passes.mp checked
      by_cases housed : v.tree.get? parent = some .directory
      · by_cases file : v.tree.get? (name :: parent) = some .directory
        · rw [Files.write_directory h.settled.rooted h.above h.plain file ha]
          exact .inl ⟨_, rfl, fun admits => admits.file file⟩
        · rw [Files.write_eq h.settled.rooted h.above h.plain housed file ha room]
          exact .inr ⟨rfl, short, fits, housed, file⟩
      · rw [Files.write_apart h.settled.rooted h.above h.plain housed ha]
        exact .inl ⟨_, rfl, fun admits => housed admits.housed⟩

/-! ## Removal -/

theorem runOn_remove_root (same : name :: parent = account.rootId :: top) :
    (Files.remove token path).runOn v = (.error (.validation .rootRemoval), v) := by
  rw [Files.runOn_remove (runOn_caller h.accepts h.own), h.place,
    if_pos ((h.root.isRoot_pathTo h.plain h.inside).mpr same)]

theorem runOn_remove_below (below : name :: parent ≠ account.rootId :: top) :
    (Files.remove token path).runOn v =
      ((Files.removeEntry v.tree (pathTo (name :: parent)) (s.display (s.resolve ⟨path⟩))).1,
        { v with
          tree := (Files.removeEntry v.tree (pathTo (name :: parent))
            (s.display (s.resolve ⟨path⟩))).2 }) := by
  rw [Files.runOn_remove (runOn_caller h.accepts h.own), h.place,
    if_neg fun hr => below ((h.root.isRoot_pathTo h.plain h.inside).mp hr)]

/-- An entry is removed where it is admitted, and otherwise nothing changes. -/
theorem remove_cases (ha : Addressable (name :: parent)) :
    (∃ failure, (Files.remove token path).runOn v = (.error failure, v) ∧
      ¬ (name :: parent ≠ account.rootId :: top ∧ v.tree.AdmitsRemoval (name :: parent))) ∨
    ((Files.remove token path).runOn v =
        (.ok (), { v with tree := v.tree.erase (name :: parent) }) ∧
      name :: parent ≠ account.rootId :: top ∧ v.tree.AdmitsRemoval (name :: parent)) := by
  by_cases same : name :: parent = account.rootId :: top
  · exact .inl ⟨_, h.runOn_remove_root same, fun admits => admits.1 same⟩
  · rw [h.runOn_remove_below same]
    have removed := Files.removeEntry_ok_iff h.settled.rooted h.above h.plain ha
      (s.display (s.resolve ⟨path⟩))
    rcases Files.removeEntry_cases h.settled.rooted h.above h.plain (s.display (s.resolve ⟨path⟩)) with
      ⟨failure, -, ran⟩ | ⟨-, -, -, ran⟩
    · rw [ran] at removed ⊢
      exact .inl ⟨failure, rfl, fun admits => by simpa using removed.mpr admits.2⟩
    · rw [ran] at removed ⊢
      exact .inr ⟨rfl, same, removed.mp rfl⟩

end Spot

/-! ## Runs -/

theorem sample_accepts : ((sample (.maps .empty)).after sampleLogin).Accepts sampleToken
    ⟨hashToken (presented sampleToken), "ada", 600000⟩ := by
  have facts : presented sampleToken ≠ "" ∧
      ((sample (.maps .empty)).after sampleLogin).registry.session?
        (hashToken (presented sampleToken)) = some ⟨hashToken (presented sampleToken), "ada", 600000⟩ ∧
      ((sample (.maps .empty)).after sampleLogin).clock < 600000 := by decide +kernel
  exact ⟨facts.1, facts.2.1, facts.2.2⟩

theorem sample_home :
    ((sample (.maps .empty)).after sampleLogin).rootFor "ada" =
        .ok (pathTo ["r1011121314151617", "vault"]) ∧
      ((sample (.maps .empty)).after sampleLogin).tree =
        ⟨[(["r1011121314151617", "vault"], .directory), (["vault"], .directory)]⟩ := by
  have facts : ((sample (.maps .empty)).after sampleLogin).registry.account? "ada" =
        some ⟨"ada", "r1011121314151617"⟩ ∧
      ((sample (.maps .empty)).after sampleLogin).rootPath "r1011121314151617" =
        pathTo ["r1011121314151617", "vault"] ∧
      ((sample (.maps .empty)).after sampleLogin).tree =
        ⟨[(["r1011121314151617", "vault"], .directory), (["vault"], .directory)]⟩ := by
    decide +kernel
  obtain ⟨account, path, tree⟩ := facts
  refine ⟨?_, tree⟩
  rw [rootFor, account, ← path]

/-- Directories are admitted exactly where the limits allow them: with a short name, with room in the
quota, not too deep, in a directory with few enough others, and where nothing stands.  Of the limits
that do not hold the first one is reported, whatever else stands in the way. -/
theorem mkdir_admits {v₀ : Vault} (opened : v₀.Opened) (walks : v₀.quota.meter = .walk)
    (bounded : v₀.quota.limits.userQuotaBytes.toNat < UInt64.size - 1) (events : List Event)
    (accepts : (v₀.after events).Accepts token session) (path : String) :
    let v := v₀.after events
    let limits := v₀.quota.limits
    let run := (Files.mkdir token path).runOn v
    ∃ root name parent, v.rootFor session.username = .ok root ∧
      v.leadsTo? session.username path = some (name :: parent) ∧
      (Addressable (name :: parent) →
        (run.1 = .ok () ↔ v.tree.AdmitsDirectory limits root.location name parent) ∧
        (run.1 = .ok () → run.2 = { v with tree := run.2.tree } ∧
          (∀ location, run.2.tree.get? location =
            if location = name :: parent then some .directory else v.tree.get? location) ∧
          run.2.tree.children (name :: parent) = []) ∧
        (run.1 ≠ .ok () → run.2 = v) ∧
        let used := v.tree.bytesBelow root.location
        let long := limits.maxNameLength.toNat < name.length
        let full := limits.userQuotaBytes.toNat < used + limits.directoryCostBytes.toNat
        let deep := root.location.length + limits.maxDirectoryDepth.toNat < (name :: parent).length
        let crowded := v.tree.get? parent = some .directory ∧ limits.maxSubdirectories.toNat ≤
          (v.tree.children parent).countP (fun child => child.2 == .directory)
        (long → run.1 = .error (.validation (.nameTooLong limits.maxNameLength))) ∧
        (¬ long → full → ∃ measured : UInt64, measured.toNat = used ∧
          run.1 = .error (.validation
            (.quotaExceeded measured limits.directoryCostBytes limits.userQuotaBytes))) ∧
        (¬ long → ¬ full → deep →
          run.1 = .error (.validation (.nestingTooDeep limits.maxDirectoryDepth))) ∧
        (¬ long → ¬ full → ¬ deep → crowded →
          run.1 = .error (.validation (.tooManySubdirectories limits.maxSubdirectories)))) := by
  have quota : (v₀.after events).quota = v₀.quota := quota_after opened.settled events
  have within := opened.withinLimits walks bounded events
  rw [← quota] at walks bounded ⊢
  intro v limits run
  obtain ⟨account, s, name, parent, h⟩ := (opened.settled.after events).spot accepts path
  refine ⟨_, name, parent, h.rootFor, h.leadsTo, fun ha => ?_⟩
  rw [h.location_root]
  have checked := h.settled.checkNewDirectory_eq h.known walks bounded h.plain h.inside
  have refused {failure : Failure} (hc : v.quota.checkNewDirectory v.tree
      (pathTo (account.rootId :: v₀.base)) (pathTo (name :: parent)) = .error failure) :
      run.1 = .error failure := by
    rw [show run = _ from h.runOn_mkdir, hc]
  obtain ⟨admitted, changed, kept⟩ := decided_of_cases (h.mkdir_cases walks bounded ha)
  refine ⟨admitted, fun done => ?_, kept, ?_⟩
  · have free := (admitted.mp done).free
    rw [changed done]
    exact ⟨rfl, get?_insert v.tree (List.cons_ne_nil _ _) .directory,
      h.settled.rooted.children_insert_of_vacant (h.above.trans (List.suffix_cons ..)) free⟩
  · intro used long full deep crowded
    refine ⟨fun hl => refused ?_, fun hl hf => ⟨saturate used, ?_, refused ?_⟩,
      fun hl hf hd => refused ?_, fun hl hf hd hc => refused ?_⟩
    · rw [checked, if_pos hl]
    · have bytes : used ≤ limits.userQuotaBytes.toNat := (within _ _ h.known).bytes
      have bound : limits.userQuotaBytes.toNat < UInt64.size - 1 := bounded
      rw [toNat_saturate]
      omega
    · rw [checked, if_neg hl, if_pos hf]
    · rw [checked, if_neg hl, if_neg hf, if_pos hd]
    · rw [checked, if_neg hl, if_neg hf, if_neg hd,
        Quota.checkSiblings_eq h.settled.rooted h.above h.plain hc.1 ha,
        decide_eq_false (Nat.not_lt.mpr hc.2)]

/-- A first directory is made in a root directory of its own. -/
theorem mkdir_admits_docs :
    let v := (sample (.maps .empty)).after sampleLogin
    v.leadsTo? "ada" "docs" = some ["docs", "r1011121314151617", "vault"] ∧
      ((Files.mkdir sampleToken "docs").runOn v).1 = .ok () := by
  intro v
  have leads : v.leadsTo? "ada" "docs" = some ["docs", "r1011121314151617", "vault"] := by
    decide +kernel
  have addressable : Addressable ["docs", "r1011121314151617", "vault"] :=
    ⟨checkText_eq_ok.mpr (by decide), by decide⟩
  obtain ⟨root, name, parent, known, leads', admits⟩ := mkdir_admits (sample_opened (.inl rfl)) rfl
    (by decide) sampleLogin sample_accepts "docs"
  obtain rfl := Except.ok.inj (sample_home.1.symm.trans known)
  obtain ⟨rfl, rfl⟩ := List.cons.inj (Option.some.inj (leads.symm.trans leads'))
  refine ⟨leads, (admits addressable).1.mpr ?_⟩
  rw [sample_home.2]
  exact ⟨by decide, by decide, by decide, by decide, by decide, by decide⟩

/-- Files are admitted exactly where the limits allow them, in a directory and over no other one, and
what is removed are exactly files and empty directories below the root directory.  Of the conditions
for a file the first one that does not hold is reported, with the exact numbers of bytes; the root
directory is refused by itself, however it is spelled. -/
theorem upload_and_remove_admit {v₀ : Vault} (opened : v₀.Opened) (walks : v₀.quota.meter = .walk)
    (bounded : v₀.quota.limits.userQuotaBytes.toNat < UInt64.size - 1) (events : List Event)
    (accepts : (v₀.after events).Accepts token session) (path : String) (body : Bytes) :
    let v := v₀.after events
    let limits := v₀.quota.limits
    let uploaded := (Files.upload token path body).runOn v
    let removed := (Files.remove token path).runOn v
    ∃ root s name parent, v.rootFor session.username = .ok root ∧
      v.sandbox? session.username = some s ∧
      v.leadsTo? session.username path = some (name :: parent) ∧
      let shown := s.display (s.resolve ⟨path⟩)
      let housed := v.tree.get? parent = some .directory
      (Addressable (name :: parent) →
        (pathTo (v.tree.stagedIn parent)).text.utf8ByteSize ≤ maxPathBytes →
        (uploaded.1 = .ok () ↔ v.tree.AdmitsFile limits root.location body.length name parent) ∧
        (uploaded.1 = .ok () →
          uploaded.2 = { v with tree := v.tree.insert (name :: parent) (.file body) }) ∧
        (uploaded.1 ≠ .ok () → uploaded.2 = v) ∧
        let used := v.tree.bytesBelow root.location
        let long := limits.maxNameLength.toNat < name.length
        let full := limits.userQuotaBytes.toNat < used + body.length
        (long → uploaded.1 = .error (.validation (.nameTooLong limits.maxNameLength))) ∧
        (¬ long → full → ∃ measured added : UInt64, measured.toNat = used ∧
          (body.length < UInt64.size → added.toNat = body.length) ∧
          uploaded.1 = .error (.validation (.quotaExceeded measured added limits.userQuotaBytes))) ∧
        (¬ long → ¬ full → ¬ housed →
          uploaded.1 = .error (.notFound s!"{shown}: parent directory")) ∧
        (¬ long → ¬ full → housed → v.tree.get? (name :: parent) = some .directory →
          uploaded.1 = .error (.conflict s!"{shown}: is a directory"))) ∧
      (removed.1 = .error (.validation .rootRemoval) ↔ name :: parent = root.location) ∧
      (Addressable (name :: parent) →
        (removed.1 = .ok () ↔
          name :: parent ≠ root.location ∧ v.tree.AdmitsRemoval (name :: parent)) ∧
        (removed.1 = .ok () → removed.2 = { v with tree := v.tree.erase (name :: parent) }) ∧
        (removed.1 ≠ .ok () → removed.2 = v) ∧
        (name :: parent ≠ root.location → housed → v.tree.get? (name :: parent) = none →
          removed.1 = .error (.notFound shown)) ∧
        (name :: parent ≠ root.location → v.tree.get? (name :: parent) = some .directory →
          v.tree.children (name :: parent) ≠ [] →
          removed.1 = .error (.storage (.host .notEmpty)))) := by
  have quota : (v₀.after events).quota = v₀.quota := quota_after opened.settled events
  have within := opened.withinLimits walks bounded events
  rw [← quota] at walks bounded ⊢
  intro v limits uploaded removed
  obtain ⟨account, s, name, parent, h⟩ := (opened.settled.after events).spot accepts path
  refine ⟨_, s, name, parent, h.rootFor, h.own, h.leadsTo, ?_⟩
  rw [h.location_root]
  intro shown housed
  refine ⟨fun ha room => ?_, ⟨fun refused => ?_, fun same => ?_⟩, fun ha => ?_⟩
  · obtain ⟨admitted, changed, kept⟩ := decided_of_cases (h.upload_cases walks bounded ha room body)
    refine ⟨admitted, changed, kept, ?_⟩
    intro used long full
    have ran := h.runOn_upload body
    rw [h.settled.checkNameAndSize_eq h.known walks bounded h.plain rfl] at ran
    refine ⟨fun hl => ?_, fun hl hf => ⟨saturate used, saturate body.length, ?_, ?_, ?_⟩,
      fun hl hf hd => ?_, fun hl hf hd file => ?_⟩
    · rw [show uploaded = _ from ran, if_pos hl]
    · have bytes : used ≤ limits.userQuotaBytes.toNat := (within _ _ h.known).bytes
      have bound : limits.userQuotaBytes.toNat < UInt64.size - 1 := bounded
      rw [toNat_saturate]
      omega
    · intro small
      rw [toNat_saturate]
      omega
    · rw [show uploaded = _ from ran, if_neg hl, if_pos hf]
      rfl
    · rw [show uploaded = _ from ran, if_neg hl, if_neg hf,
        Files.write_apart h.settled.rooted h.above h.plain hd ha]
    · rw [show uploaded = _ from ran, if_neg hl, if_neg hf,
        Files.write_directory h.settled.rooted h.above h.plain file ha]
  · by_contra below
    rw [show removed = _ from h.runOn_remove_below below] at refused
    exact Files.removeEntry_ne_validation _ _ _ refused
  · rw [show removed = _ from h.runOn_remove_root same]
  · obtain ⟨admitted, changed, kept⟩ := decided_of_cases (h.remove_cases ha)
    refine ⟨admitted, changed, kept, fun below hd missing => ?_, fun below directory full => ?_⟩
    · rw [show removed = _ from h.runOn_remove_below below,
        Files.removeEntry_missing h.settled.rooted h.above h.plain hd missing ha]
    · rw [show removed = _ from h.runOn_remove_below below,
        Files.removeEntry_notEmpty h.settled.rooted h.above h.plain directory full ha]

/-- A first file is stored in a root directory of its own, which is not removed under any name. -/
theorem upload_and_remove_admit_note :
    let v := (sample (.maps .empty)).after sampleLogin
    v.leadsTo? "ada" "note" = some ["note", "r1011121314151617", "vault"] ∧
      ((Files.upload sampleToken "note" [1, 2, 3]).runOn v).1 = .ok () ∧
      ((Files.remove sampleToken "note/./../..").runOn v).1 = .error (.validation .rootRemoval) := by
  intro v
  have leads : v.leadsTo? "ada" "note" = some ["note", "r1011121314151617", "vault"] ∧
      v.leadsTo? "ada" "note/./../.." = some ["r1011121314151617", "vault"] := by
    decide +kernel
  have addressable : Addressable ["note", "r1011121314151617", "vault"] :=
    ⟨checkText_eq_ok.mpr (by decide), by decide⟩
  have stored : ((Files.upload sampleToken "note" [1, 2, 3]).runOn v).1 = .ok () := by
    obtain ⟨root, s, name, parent, known, -, leads', admits, -⟩ := upload_and_remove_admit
      (sample_opened (.inl rfl)) rfl (by decide) sampleLogin sample_accepts "note" [1, 2, 3]
    obtain rfl := Except.ok.inj (sample_home.1.symm.trans known)
    obtain ⟨rfl, rfl⟩ := List.cons.inj (Option.some.inj (leads.1.symm.trans leads'))
    rw [sample_home.2] at admits
    exact (admits addressable (by decide)).1.mpr
      ⟨by decide, by decide, by decide, by decide⟩
  obtain ⟨root, s, name, parent, known, -, leads', -, refused, -⟩ := upload_and_remove_admit
    (sample_opened (.inl rfl)) rfl (by decide) sampleLogin sample_accepts "note/./../.." []
  obtain rfl := Except.ok.inj (sample_home.1.symm.trans known)
  obtain ⟨rfl, rfl⟩ := List.cons.inj (Option.some.inj (leads.2.symm.trans leads'))
  exact ⟨leads.1, stored, refused.mpr (by decide)⟩

end Vault

end Strongroom
