import Mathlib.Data.List.Basic
import Strongroom.Proofs.FileTree.Entries
/-!
# What a directory holds

The entries below a location, their bytes, and the entries directly in a directory, after a change
at one place.
-/

namespace Strongroom.FileTree

variable {t t' : FileTree} {top location parent : Location} {entry : Entry} {name : Name}

/-! ## Changes elsewhere -/

theorem below_erase_of_outside (h : ¬ isBelow top location = true) :
    (t.erase location).below top = t.below top := by
  simp only [below, erase, List.filter_filter]
  refine List.filter_congr fun item _ => ?_
  by_cases hl : item.1 = location
  · simp [hl, h]
  · simp [hl]

theorem below_insert :
    (t.insert location entry).below top =
      (if isBelow top location then [(location, entry)] else []) ++ (t.erase location).below top := by
  cases hb : isBelow top location with
  | true => simp [below, insert, hb]
  | false => simp [below, insert, hb]

theorem below_insert_of_outside (h : ¬ isBelow top location = true) :
    (t.insert location entry).below top = t.below top := by
  rw [below_insert, if_neg h, List.nil_append, below_erase_of_outside h]

theorem below_clear_of_outside {cleared : Location}
    (h : ∀ l, isBelow top l = true → ¬ isBelow cleared l = true) :
    (t.clear cleared).below top = t.below top := by
  simp only [below, clear, List.filter_filter]
  refine List.filter_congr fun item _ => ?_
  cases hb : isBelow top item.1 with
  | false => simp
  | true => simp [h _ hb]

/-- The children of a directory at or below a location are among what is below it. -/
theorem children_eq_of_below (hs : top <:+ location) :
    t.children location = FileTree.children ⟨t.below top⟩ location := by
  simp only [children, below, List.filterMap_filter]
  refine List.filterMap_congr fun item _ => ?_
  obtain ⟨key, e⟩ := item
  cases key with
  | nil => simp
  | cons name parent =>
      by_cases hp : parent = location
      · simp [hp, isBelow_cons.mpr hs]
      · simp [hp]

theorem children_congr (h : t'.below top = t.below top) (hs : top <:+ location) :
    t'.children location = t.children location := by
  rw [children_eq_of_below hs, h, ← children_eq_of_below hs]

/-! ## Changes within -/

theorem below_erase_sublist : ((t.erase location).below top).Sublist (t.below top) :=
  List.filter_sublist.filter _

theorem children_erase_sublist {directory : Location} :
    ((t.erase location).children directory).Sublist (t.children directory) :=
  List.filter_sublist.filterMap _

theorem children_insert {directory : Location} :
    (t.insert (name :: parent) entry).children directory =
      (if parent = directory then [(name, entry)] else []) ++
        (t.erase (name :: parent)).children directory := by
  by_cases hp : parent = directory
  · simp [children, insert, hp]
  · simp [children, insert, hp]

/-- Fewer entries hold no more bytes. -/
theorem total_le_of_sublist {fewer items : List (Location × Entry)} (h : fewer.Sublist items) :
    fewer.foldr (fun item total => Entry.size item.2 + total) 0 ≤
      items.foldr (fun item total => Entry.size item.2 + total) 0 := by
  induction h with
  | slnil => exact Nat.le_refl _
  | cons item _ ih => exact Nat.le_trans ih (Nat.le_add_left _ _)
  | cons_cons item _ ih => exact Nat.add_le_add_left ih _

theorem bytesBelow_erase_le : (t.erase location).bytesBelow top ≤ t.bytesBelow top :=
  total_le_of_sublist below_erase_sublist

theorem bytesBelow_insert_le :
    (t.insert location entry).bytesBelow top ≤ Entry.size entry + t.bytesBelow top := by
  have rest : (t.erase location).bytesBelow top ≤ t.bytesBelow top := bytesBelow_erase_le
  unfold bytesBelow at rest ⊢
  rw [below_insert]
  split
  · exact Nat.add_le_add_left rest _
  · exact Nat.le_trans rest (Nat.le_add_left _ _)

end Strongroom.FileTree
