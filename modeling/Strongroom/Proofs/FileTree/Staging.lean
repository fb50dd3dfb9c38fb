import Strongroom.FileTree.Calls
import Strongroom.Proofs.FileTree.Entries
/-!
# Names of staged files

However many names a directory holds, the name that a staged file is given is none of them.
-/

namespace Strongroom.FileTree

theorem toList_pushn (c : Char) (n : Nat) : ("".pushn c n).toList = List.replicate n c := by
  rw [String.pushn_eq_repeat_push]
  induction n with
  | zero => rfl
  | succ n ih => rw [Nat.repeat, String.toList_push, ih, List.replicate_succ']

theorem toList_stagingName (n : Nat) :
    (stagingName n).toList =
      ".tmp".toList ++ List.replicate (6 - (toString n).length) '0' ++ Nat.toDigits 10 n := by
  simp [stagingName, toList_pushn, Nat.toList_repr]

/-- The zeros in front of a number do not change it. -/
theorem stagingName_inj {m n : Nat} (h : stagingName m = stagingName n) : m = n := by
  have value : ∀ k, Nat.ofDigitChars 10 ((stagingName k).toList.drop 4) 0 = k := by
    intro k
    have digits : (stagingName k).toList.drop 4 =
        List.replicate (6 - (toString k).length) '0' ++ Nat.toDigits 10 k := by
      rw [toList_stagingName, List.append_assoc]
      rfl
    rw [digits, Nat.ofDigitChars_append, Nat.ofDigitChars_replicate_zero, Nat.mul_zero,
      Nat.ofDigitChars_ten_toDigits]
  rw [← value m, ← value n, h]

/-- Among one name more than are taken there is one that is free. -/
theorem freshStagingName_not_mem (taken : List Name) : freshStagingName taken ∉ taken := by
  unfold freshStagingName
  split
  · rename_i n hn
    simpa using List.find?_some hn
  · rename_i none
    exfalso
    have all : (List.range (taken.length + 1)).map stagingName ⊆ taken := by
      intro name hm
      obtain ⟨n, hn, rfl⟩ := List.mem_map.mp hm
      simpa using List.find?_eq_none.mp none n hn
    have distinct : ((List.range (taken.length + 1)).map stagingName).Nodup :=
      List.Pairwise.map _ (fun _ _ hne he => hne (stagingName_inj he)) List.nodup_range
    have := distinct.length_le_of_subset all
    rw [List.length_map, List.length_range] at this
    omega

/-- Nothing stands where a file is staged. -/
theorem get?_staged (t : FileTree) (location : Location) :
    t.get? (freshStagingName ((t.children location).map (·.1)) :: location) = none := by
  cases h : t.get? (freshStagingName ((t.children location).map (·.1)) :: location) with
  | none => rfl
  | some entry =>
      have child := mem_children.mpr (mem_of_get? (by simp) h)
      exact absurd (List.mem_map_of_mem (f := (·.1)) child) (freshStagingName_not_mem _)

end Strongroom.FileTree
