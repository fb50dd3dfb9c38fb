import Mathlib.Data.List.Nodup
import Strongroom.Proofs.FileTree.Measures
/-!
# Trees that hold nothing twice

Where no location below a directory has two entries, its entries are those that are found there,
and the names in each directory are different.
-/

namespace Strongroom.FileTree

variable {t : FileTree} {top inner location : Location} {entry : Entry} {name : Name}

/-- No location below `top` has two entries. -/
def Distinct (t : FileTree) (top : Location) : Prop :=
  ((t.below top).map Prod.fst).Nodup

/-! ## Changes -/

namespace Distinct

theorem of_below_eq_nil (h : t.below top = []) : t.Distinct top := by
  rw [Distinct, h]
  exact List.nodup_nil

theorem of_suffix (h : t.Distinct top) (hs : top <:+ inner) : t.Distinct inner := by
  refine h.sublist (List.Sublist.map _ ?_)
  exact List.monotone_filter_right _ fun item hb => isBelow_of_suffix hs hb

theorem erase (h : t.Distinct top) (location : Location) : (t.erase location).Distinct top :=
  h.sublist (below_erase_sublist.map _)

theorem clear (h : t.Distinct top) (location : Location) : (t.clear location).Distinct top :=
  h.sublist ((List.filter_sublist.filter _).map _)

theorem insert (h : t.Distinct top) (location : Location) (entry : Entry) :
    (t.insert location entry).Distinct top := by
  have rest : (t.erase location).Distinct top := h.erase location
  rw [Distinct, below_insert]
  split
  · rw [List.singleton_append, List.map_cons, List.nodup_cons]
    refine ⟨fun again => ?_, rest⟩
    obtain ⟨item, mem, here⟩ := List.mem_map.mp again
    exact (mem_entries_erase.mp (mem_below.mp mem).1).2 here
  · exact rest

/-! ## Entries and children -/

/-- What stands at a location is what is found there. -/
theorem mem_entries (h : t.Distinct top) (hb : isBelow top location = true) :
    (location, entry) ∈ t.entries ↔ t.get? location = some entry := by
  have hne := ne_nil_of_isBelow hb
  refine ⟨fun mem => ?_, mem_of_get? hne⟩
  cases found : t.get? location with
  | none => exact absurd mem (not_mem_of_get?_eq_none hne found)
  | some other =>
      have twice : (location, other) ∈ t.entries := mem_of_get? hne found
      have same := List.inj_on_of_nodup_map h (mem_below.mpr ⟨mem, hb⟩) (mem_below.mpr ⟨twice, hb⟩) rfl
      rw [(Prod.mk.inj same).2]

theorem mem_children (h : t.Distinct top) (hs : top <:+ location) :
    (name, entry) ∈ t.children location ↔ t.get? (name :: location) = some entry :=
  FileTree.mem_children.trans (h.mem_entries (isBelow_cons.mpr hs))

end Distinct

theorem locations_children_sublist :
    ((t.children location).map fun child => child.1 :: location).Sublist (t.entries.map Prod.fst) := by
  obtain ⟨entries⟩ := t
  simp only [children]
  induction entries with
  | nil => exact .slnil
  | cons item rest ih =>
      obtain ⟨key, e⟩ := item
      cases key with
      | nil => exact ih.cons _
      | cons first parent =>
          by_cases here : parent = location
          · simpa [here] using ih
          · simpa [here] using ih.cons (first :: parent)

namespace Distinct

/-- A directory holds no name twice. -/
theorem names (h : t.Distinct top) (hs : top <:+ location) :
    ((t.children location).map Prod.fst).Nodup := by
  have locations : ((t.children location).map fun child => child.1 :: location).Nodup := by
    rw [children_eq_of_below hs]
    exact h.sublist locations_children_sublist
  have split : ((t.children location).map Prod.fst).map (· :: location) =
      (t.children location).map fun child => child.1 :: location := List.map_map
  exact .of_map (· :: location) (split ▸ locations)

end Distinct

end Strongroom.FileTree
