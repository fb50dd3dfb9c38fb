import Mathlib.Algebra.BigOperators.Group.List.Basic
import Mathlib.Algebra.GroupWithZero.Nat
import Strongroom.Quota
/-!
# Exact sums

A sum that stops at the largest number is the exact sum cut off once, however many numbers are added
and in whatever order.  So a quota below the largest number refuses exactly what exceeds it.
-/

namespace Strongroom

namespace Quota

/-! ## Sums that stop at the largest number -/

theorem saturate_toNat (n : UInt64) : saturate n.toNat = n := by
  rw [← UInt64.toNat_inj, toNat_saturate]
  have := n.toNat_lt_size
  omega

/-- What was cut off before is cut off in the end. -/
theorem saturatingAdd_saturate (m : Nat) (n : UInt64) :
    saturatingAdd (saturate m) n = saturate (m + n.toNat) := by
  rw [← UInt64.toNat_inj, toNat_saturatingAdd, toNat_saturate, toNat_saturate]
  omega

/-- A number passes a quota below the largest number after it is cut off exactly if it did before. -/
theorem lt_saturate_iff {quota : UInt64} (bounded : quota.toNat < UInt64.size - 1) (n : Nat) :
    quota < saturate n ↔ quota.toNat < n := by
  rw [UInt64.lt_iff_toNat_lt, toNat_saturate]
  omega

/-- A sum that stops at the largest number passes a quota below that number exactly if the sum itself
does. -/
theorem lt_saturatingAdd_iff {quota : UInt64} (bounded : quota.toNat < UInt64.size - 1) (m n : Nat) :
    quota < saturatingAdd (saturate m) (saturate n) ↔ quota.toNat < m + n := by
  rw [UInt64.lt_iff_toNat_lt, toNat_saturatingAdd, toNat_saturate, toNat_saturate]
  omega

/-- Nothing passes the largest number. -/
theorem not_lt_saturate {quota : UInt64} (largest : quota.toNat = UInt64.size - 1) (n : Nat) :
    ¬ quota < saturate n := by
  rw [UInt64.lt_iff_toNat_lt, toNat_saturate]
  omega

/-! ## All accounts together -/

/-- What some root directories of these usages and a new one take up, each with the overhead of its
account. -/
def demand (q : Quota) (usage : Path → UInt64) (roots : List Path) : Nat :=
  q.limits.accountOverheadBytes.toNat * (roots.length + 1) +
    (roots.map fun root => (usage root).toNat).sum

/-- Each of some root directories is measured, and takes up its usage. -/
def Measures (q : Quota) (t : FileTree) (usage : Path → UInt64) (roots : List Path) : Prop :=
  ∀ root ∈ roots, q.meter t root = .ok (usage root)

variable {q : Quota} {t : FileTree} {usage : Path → UInt64} {root : Path} {roots roots' : List Path}

theorem Measures.subset (h : q.Measures t usage roots) (part : roots' ⊆ roots) :
    q.Measures t usage roots' :=
  fun root mem => h root (part mem)

/-- Further accounts add their usage and their overhead to what has been counted. -/
theorem aggregateFrom_eq (measured : q.Measures t usage roots) (m : Nat) :
    q.aggregateFrom t (saturate m) roots =
      .ok (saturate (m + (q.limits.accountOverheadBytes.toNat * roots.length +
        (roots.map fun root => (usage root).toNat).sum))) := by
  induction roots generalizing m with
  | nil => simp [aggregateFrom]
  | cons root roots ih =>
      have here : q.meter t root = .ok (usage root) := measured root (List.mem_cons_self ..)
      have rest : q.Measures t usage roots := measured.subset (List.subset_cons_self ..)
      rw [aggregateFrom, here]
      simp only [saturatingAdd_saturate, ih rest, List.length_cons, List.map_cons, List.sum_cons,
        Nat.mul_add, Nat.mul_one]
      congr 2
      omega

theorem checkAggregate_eq (measured : q.Measures t usage roots) :
    q.checkAggregate t roots =
      if q.limits.totalQuotaBytes < saturate (q.demand usage roots) then
        .error (.validation .databaseFull)
      else .ok () := by
  have counted := aggregateFrom_eq measured q.limits.accountOverheadBytes.toNat
  have whole : q.limits.accountOverheadBytes.toNat +
      (q.limits.accountOverheadBytes.toNat * roots.length +
        (roots.map fun root => (usage root).toNat).sum) = q.demand usage roots := by
    rw [demand, Nat.mul_add]
    omega
  rw [saturate_toNat, whole] at counted
  rw [checkAggregate, counted]

theorem checkAggregate_eq_ok (measured : q.Measures t usage roots) :
    q.checkAggregate t roots = .ok () ↔
      ¬ q.limits.totalQuotaBytes < saturate (q.demand usage roots) := by
  rw [checkAggregate_eq measured]
  split <;> simp [*]

theorem checkAggregate_ne_conflict (q : Quota) (t : FileTree) (roots : List Path) (key : String) :
    q.checkAggregate t roots ≠ .error (.conflict key) := by
  unfold checkAggregate
  split
  · simp
  · split <;> simp

theorem demand_perm (same : roots'.Perm roots) : q.demand usage roots' = q.demand usage roots := by
  rw [demand, demand, same.length_eq, (same.map _).sum_eq]

theorem demand_le_cons : q.demand usage roots ≤ q.demand usage (root :: roots) := by
  simp only [demand, List.length_cons, List.map_cons, List.sum_cons, Nat.mul_add]
  omega

/-- What is refused with fewer accounts is refused with more. -/
theorem not_lt_of_not_lt_cons
    (h : ¬ q.limits.totalQuotaBytes < saturate (q.demand usage (root :: roots))) :
    ¬ q.limits.totalQuotaBytes < saturate (q.demand usage roots) := by
  have more : q.demand usage roots ≤ q.demand usage (root :: roots) := demand_le_cons
  rw [UInt64.lt_iff_toNat_lt, toNat_saturate] at h ⊢
  omega

/-- A root directory that cannot be measured ends the count. -/
theorem aggregateFrom_error {before after : List Path} {failure : StorageFailure}
    (measured : q.Measures t usage before) (failed : q.meter t root = .error failure)
    (start : UInt64) : q.aggregateFrom t start (before ++ root :: after) = .error failure := by
  induction before generalizing start with
  | nil => rw [List.nil_append, aggregateFrom, failed]
  | cons first before ih =>
      have here : q.meter t first = .ok (usage first) := measured first (List.mem_cons_self ..)
      rw [List.cons_append, aggregateFrom, here]
      exact ih (measured.subset (List.subset_cons_self ..)) _

/-! ## Additions to one account -/

theorem checkNameAndSize_eq_ok {addition : Addition} {p : Path} {used : UInt64}
    (measured : q.meter t root = .ok used)
    (short : nameLength p ≤ q.limits.maxNameLength.toNat)
    (bounded : q.limits.userQuotaBytes.toNat < UInt64.size - 1) :
    q.checkNameAndSize t root addition p = .ok () ↔
      used.toNat + (addition.bytes q.limits).toNat ≤ q.limits.userQuotaBytes.toNat := by
  have sum := lt_saturatingAdd_iff bounded used.toNat (addition.bytes q.limits).toNat
  rw [saturate_toNat, saturate_toNat] at sum
  rw [checkNameAndSize, if_neg (Nat.not_lt.mpr short), measured]
  dsimp only
  split
  · rename_i full
    simpa using sum.mp full
  · rename_i fits
    simpa using mt sum.mpr fits

/-- The checks decide on exact sums, though they count with sums that stop at the largest number.  If
every root directory can be measured, a new account is accepted exactly if all of them and its own
overhead fit into the total quota, and always under the largest quota; neither the order of the accounts
nor a further account changes a refusal.  If one cannot be measured, the first failure is reported.  And a
file or a directory with a short enough name is accepted exactly if it fits into the user's quota. -/
theorem checks_decide_exact_sums (q : Quota) (t : FileTree) :
    (∀ usage roots, q.Measures t usage roots →
      (q.limits.totalQuotaBytes.toNat < UInt64.size - 1 →
        (q.checkAggregate t roots = .ok () ↔
          q.limits.accountOverheadBytes.toNat * (roots.length + 1) +
            (roots.map fun root => (usage root).toNat).sum ≤ q.limits.totalQuotaBytes.toNat)) ∧
      (q.limits.totalQuotaBytes.toNat = UInt64.size - 1 → q.checkAggregate t roots = .ok ()) ∧
      (∀ roots', roots'.Perm roots → q.checkAggregate t roots' = q.checkAggregate t roots) ∧
      ∀ before root after, roots = before ++ root :: after →
        q.checkAggregate t (before ++ after) ≠ .ok () → q.checkAggregate t roots ≠ .ok ()) ∧
    (∀ usage before root after failure, q.Measures t usage before → q.meter t root = .error failure →
      q.checkAggregate t (before ++ root :: after) = .error (.storage failure)) ∧
    ∀ root used addition p, q.meter t root = .ok used →
      nameLength p ≤ q.limits.maxNameLength.toNat →
      q.limits.userQuotaBytes.toNat < UInt64.size - 1 →
      (q.checkNameAndSize t root addition p = .ok () ↔
        used.toNat + (addition.bytes q.limits).toNat ≤ q.limits.userQuotaBytes.toNat) := by
  refine ⟨fun usage roots measured => ⟨fun bounded => ?_, fun largest => ?_, fun roots' same => ?_, ?_⟩,
    fun usage before root after failure measured failed => ?_,
    fun root used addition p measured short bounded => checkNameAndSize_eq_ok measured short bounded⟩
  · rw [checkAggregate_eq_ok measured, lt_saturate_iff bounded, Nat.not_lt, demand]
  · exact (checkAggregate_eq_ok measured).mpr (not_lt_saturate largest _)
  · rw [checkAggregate_eq measured, checkAggregate_eq (measured.subset same.subset), demand_perm same]
  · rintro before root after rfl refused accepted
    have fewer : (before ++ after).Subset (before ++ root :: after) :=
      (List.sublist_cons_self ..).append_left before |>.subset
    have moved : (before ++ root :: after).Perm (root :: (before ++ after)) := List.perm_middle
    rw [checkAggregate_eq_ok measured, demand_perm moved] at accepted
    exact refused ((checkAggregate_eq_ok (measured.subset fewer)).mpr (not_lt_of_not_lt_cons accepted))
  · rw [checkAggregate, aggregateFrom_error measured failed]

/-- Limits near the largest number, and a root directory that cannot be measured among others that each
take up half of it. -/
def sampleHeavy : Quota where
  limits := {
    accountOverheadBytes := 1
    totalQuotaBytes := 18446744073709551614
    userQuotaBytes := 9223372036854775808 }
  meter _ root :=
    if root = ⟨"/gone"⟩ then .error (.diskUsage "unavailable") else .ok 9223372036854775807

/-- One root directory fits; with two of them the exact sum is two more than the largest number. -/
theorem checks_decide_exact_sums_heavy :
    sampleHeavy.checkAggregate .empty [⟨"/a"⟩] = .ok () ∧
      sampleHeavy.checkAggregate .empty [⟨"/a"⟩, ⟨"/b"⟩] ≠ .ok () ∧
      sampleHeavy.checkAggregate .empty [⟨"/b"⟩, ⟨"/a"⟩] ≠ .ok () ∧
      sampleHeavy.checkAggregate .empty [⟨"/a"⟩, ⟨"/gone"⟩, ⟨"/b"⟩] =
        .error (.storage (.diskUsage "unavailable")) ∧
      sampleHeavy.checkNameAndSize .empty ⟨"/a"⟩ (.file 1) ⟨"/a/note"⟩ = .ok () ∧
      sampleHeavy.checkNameAndSize .empty ⟨"/a"⟩ (.file 2) ⟨"/a/note"⟩ ≠ .ok () := by
  obtain ⟨sums, failures, additions⟩ := checks_decide_exact_sums sampleHeavy .empty
  have one : sampleHeavy.Measures .empty (fun _ => 9223372036854775807) [⟨"/a"⟩] := by
    simp [Measures, sampleHeavy]
  have two : sampleHeavy.Measures .empty (fun _ => 9223372036854775807) [⟨"/a"⟩, ⟨"/b"⟩] := by
    simp [Measures, sampleHeavy]
  have bounded : sampleHeavy.limits.totalQuotaBytes.toNat < UInt64.size - 1 := by decide
  have refused : sampleHeavy.checkAggregate .empty [⟨"/a"⟩, ⟨"/b"⟩] ≠ .ok () :=
    mt ((sums _ _ two).1 bounded).mp (by decide)
  have swapped := (sums _ _ two).2.2.1 [⟨"/b"⟩, ⟨"/a"⟩] (.swap ..)
  have short : nameLength ⟨"/a/note"⟩ ≤ sampleHeavy.limits.maxNameLength.toNat := by decide
  have room (size : UInt64) := additions ⟨"/a"⟩ 9223372036854775807 (.file size) ⟨"/a/note"⟩
    (by simp [sampleHeavy]) short (by decide)
  exact ⟨((sums _ _ one).1 bounded).mpr (by decide), refused, swapped ▸ refused,
    failures _ [⟨"/a"⟩] ⟨"/gone"⟩ [⟨"/b"⟩] _ one (by simp [sampleHeavy]),
    (room 1).mpr (by decide), mt (room 2).mp (by decide)⟩

end Quota

end Strongroom
