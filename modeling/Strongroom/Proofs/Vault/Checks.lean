import Strongroom.Proofs.Quota
import Strongroom.Proofs.Vault.Changes
import Strongroom.Proofs.Vault.Settled
/-!
# The checks before something is added

With usage measured by a walk and a quota below the largest number, the checks before a file or a
directory is added compare exact numbers: the characters of its name, the bytes that its user stores,
the directories around it and the directories beside it.
-/

namespace Strongroom

open FileTree Strongroom.Path

namespace Quota

variable {q : Quota} {t : FileTree} {top root parent : Location} {name : Name}

theorem nameLength_pathTo (hp : ∀ n ∈ name :: parent, IsPlain n) :
    nameLength (pathTo (name :: parent)) = name.length := by
  have plain : ∀ n ∈ parent.reverse ++ [name], IsPlain n := fun n hn => hp n (by simpa [or_comm] using hn)
  rw [nameLength, pathTo_eq, List.reverse_cons, fileName?_absolute plain]

theorem checkNesting_iff (hp : ∀ n ∈ name :: parent, IsPlain n) (hs : root <:+ name :: parent) :
    q.checkNesting (pathTo (name :: parent)) (pathTo root) = true ↔
      (name :: parent).length ≤ root.length + q.limits.maxDirectoryDepth.toNat := by
  obtain ⟨below, place⟩ := hs
  rw [← place] at hp ⊢
  rw [checkNesting, depthBelow_pathTo hp, decide_eq_true_eq, List.length_append]
  omega

/-- In a directory there is room for one more if it holds few enough. -/
theorem checkSiblings_eq (h : t.Rooted top) (hs : top <:+ parent)
    (hp : ∀ n ∈ name :: parent, IsPlain n) (hd : t.get? parent = some .directory)
    (ha : Addressable (name :: parent)) :
    q.checkSiblings t (pathTo (name :: parent)) =
      .ok (decide ((t.children parent).countP (fun child => child.2 == .directory) <
        q.limits.maxSubdirectories.toNat)) := by
  have listed : t.readDirectory (pathTo parent) = .ok (t.children parent) :=
    (h.readDirectory_eq_ok hs fun n hn => hp n (List.mem_cons_of_mem _ hn)).mpr ⟨rfl, hd, ha.parent⟩
  rw [checkSiblings, Files.parent?_pathTo hp]
  simp only [countSubdirectories, listed, ok_bind, pure_eq_ok]

theorem of_checkNewDirectory {r p : Path} (h : q.checkNewDirectory t r p = .ok ()) :
    q.checkNameAndSize t r .directory p = .ok () ∧ q.checkNesting p r = true ∧
      q.checkSiblings t p = .ok true := by
  unfold checkNewDirectory at h
  split at h
  · cases h
  · rename_i checked
    split at h
    · cases h
    · rename_i nested
      split at h
      · cases h
      · cases h
      · rename_i room
        exact ⟨checked, by simpa using nested, room⟩

end Quota

namespace Vault.Settled

variable {top parent : Location} {v : Vault} {user : String} {account : Account} {name : Name}

/-- The name of an addition is checked before the exact number of bytes. -/
theorem checkNameAndSize_eq (h : v.Settled top) (known : v.registry.account? user = some account)
    (walks : v.quota.meter = .walk)
    (bounded : v.quota.limits.userQuotaBytes.toNat < UInt64.size - 1)
    (hp : ∀ n ∈ name :: parent, IsPlain n) {addition : Addition} {bytes : Nat}
    (adds : addition.bytes v.quota.limits = saturate bytes) :
    v.quota.checkNameAndSize v.tree (pathTo (account.rootId :: top)) addition
        (pathTo (name :: parent)) =
      if v.quota.limits.maxNameLength.toNat < name.length then
        .error (.validation (.nameTooLong v.quota.limits.maxNameLength))
      else if v.quota.limits.userQuotaBytes.toNat <
          v.tree.bytesBelow (account.rootId :: top) + bytes then
        .error (.validation (.quotaExceeded (saturate (v.tree.bytesBelow (account.rootId :: top)))
          (addition.bytes v.quota.limits) v.quota.limits.userQuotaBytes))
      else .ok () := by
  have measured : v.quota.meter v.tree (pathTo (account.rootId :: top)) =
      .ok (saturate (v.tree.bytesBelow (account.rootId :: top))) := by
    rw [walks]
    exact h.rooted.meter_walk_eq (List.suffix_cons ..) (h.plain_root known) (h.home _ _ known)
      (h.addressable _ _ known)
  have exact_sum : v.quota.limits.userQuotaBytes <
      saturatingAdd (saturate (v.tree.bytesBelow (account.rootId :: top)))
        (addition.bytes v.quota.limits) ↔
      v.quota.limits.userQuotaBytes.toNat < v.tree.bytesBelow (account.rootId :: top) + bytes := by
    rw [adds, Quota.lt_saturatingAdd_iff bounded]
  simp only [Quota.checkNameAndSize, Quota.nameLength_pathTo hp, measured, exact_sum]

theorem checkNameAndSize_eq_ok (h : v.Settled top) (known : v.registry.account? user = some account)
    (walks : v.quota.meter = .walk)
    (bounded : v.quota.limits.userQuotaBytes.toNat < UInt64.size - 1)
    (hp : ∀ n ∈ name :: parent, IsPlain n) {addition : Addition} {bytes : Nat}
    (adds : addition.bytes v.quota.limits = saturate bytes) :
    v.quota.checkNameAndSize v.tree (pathTo (account.rootId :: top)) addition
        (pathTo (name :: parent)) = .ok () ↔
      name.length ≤ v.quota.limits.maxNameLength.toNat ∧
        v.tree.bytesBelow (account.rootId :: top) + bytes ≤ v.quota.limits.userQuotaBytes.toNat := by
  rw [h.checkNameAndSize_eq known walks bounded hp adds]
  split
  · rename_i long
    simp only [reduceCtorEq, false_iff, not_and]
    omega
  · split
    · simp only [reduceCtorEq, false_iff, not_and]
      omega
    · simp only [true_iff]
      omega

/-- A new directory is checked for its name, the exact number of bytes and its nesting before its
siblings are counted. -/
theorem checkNewDirectory_eq (h : v.Settled top) (known : v.registry.account? user = some account)
    (walks : v.quota.meter = .walk)
    (bounded : v.quota.limits.userQuotaBytes.toNat < UInt64.size - 1)
    (hp : ∀ n ∈ name :: parent, IsPlain n) (inside : account.rootId :: top <:+ name :: parent) :
    v.quota.checkNewDirectory v.tree (pathTo (account.rootId :: top)) (pathTo (name :: parent)) =
      if v.quota.limits.maxNameLength.toNat < name.length then
        .error (.validation (.nameTooLong v.quota.limits.maxNameLength))
      else if v.quota.limits.userQuotaBytes.toNat <
          v.tree.bytesBelow (account.rootId :: top) + v.quota.limits.directoryCostBytes.toNat then
        .error (.validation (.quotaExceeded (saturate (v.tree.bytesBelow (account.rootId :: top)))
          v.quota.limits.directoryCostBytes v.quota.limits.userQuotaBytes))
      else if (account.rootId :: top).length + v.quota.limits.maxDirectoryDepth.toNat <
          (name :: parent).length then
        .error (.validation (.nestingTooDeep v.quota.limits.maxDirectoryDepth))
      else
        match v.quota.checkSiblings v.tree (pathTo (name :: parent)) with
        | .error fault => .error fault.toFailure
        | .ok false => .error (.validation (.tooManySubdirectories v.quota.limits.maxSubdirectories))
        | .ok true => .ok () := by
  have cost : Addition.bytes v.quota.limits .directory =
      saturate v.quota.limits.directoryCostBytes.toNat := (Quota.saturate_toNat _).symm
  have nested : v.quota.checkNesting (pathTo (name :: parent)) (pathTo (account.rootId :: top)) = false ↔
      (account.rootId :: top).length + v.quota.limits.maxDirectoryDepth.toNat <
        (name :: parent).length := by
    rw [← Bool.not_eq_true, Quota.checkNesting_iff hp inside, Nat.not_le]
  rw [Quota.checkNewDirectory, h.checkNameAndSize_eq known walks bounded hp cost]
  by_cases long : v.quota.limits.maxNameLength.toNat < name.length
  · simp only [if_pos long]
  · by_cases full : v.quota.limits.userQuotaBytes.toNat <
        v.tree.bytesBelow (account.rootId :: top) + v.quota.limits.directoryCostBytes.toNat
    · simp only [if_neg long, if_pos full]
      rfl
    · rcases v.quota.checkSiblings v.tree (pathTo (name :: parent)) with fault | _ | _ <;>
        simp only [if_neg long, if_neg full, nested]

end Vault.Settled

end Strongroom
