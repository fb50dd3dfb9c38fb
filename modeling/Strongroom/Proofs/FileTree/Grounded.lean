import Strongroom.Proofs.FileTree.Measures
/-!
# Entries in directories

On a host only directories hold entries.  Every change of a host keeps it so: it puts an entry into a
directory, or takes one away that holds nothing.
-/

namespace Strongroom.FileTree

variable {t : FileTree} {parent top location : Location} {name : Name} {entry : Entry}

/-- Only directories hold entries. -/
def Grounded (t : FileTree) : Prop :=
  ∀ location, t.get? location ≠ some .directory → t.children location = []

theorem grounded_of_entries (h : ∀ item ∈ t.entries, t.get? item.1.tail = some .directory) :
    t.Grounded := by
  intro location other
  rw [List.eq_nil_iff_forall_not_mem]
  rintro ⟨name, entry⟩ mem
  exact other (h _ (mem_children.mp mem))

theorem children_insert_of_ne (hne : parent ≠ location) (hc : t.children location = []) :
    (t.insert (name :: parent) entry).children location = [] := by
  rw [children_insert, if_neg hne, List.nil_append]
  exact List.sublist_nil.mp (hc ▸ children_erase_sublist)

theorem ne_of_suffix {l : Location} (hl : l <:+ parent) : l ≠ name :: parent := by
  rintro rfl
  exact absurd hl.length_le (by simp)

/-! ## Changes that keep it so -/

/-- An entry may be put into a directory, but only a directory may take the place of another one. -/
theorem Grounded.insert (h : t.Grounded) (hd : t.get? parent = some .directory)
    (he : entry = .directory ∨ t.get? (name :: parent) ≠ some .directory) :
    (t.insert (name :: parent) entry).Grounded := by
  intro location other
  by_cases here : location = name :: parent
  · subst here
    rw [get?_insert_self (List.cons_ne_nil _ _)] at other
    have old : t.get? (name :: parent) ≠ some .directory := he.resolve_left fun same => other (same ▸ rfl)
    exact children_insert_of_ne (ne_of_suffix (List.suffix_refl _)) (h _ old)
  · rw [get?_insert_of_ne (List.cons_ne_nil _ _) here] at other
    refine children_insert_of_ne ?_ (h location other)
    rintro rfl
    exact other hd

/-- What is put where nothing stood holds nothing. -/
theorem Grounded.children_new (h : t.Grounded) (free : t.get? (name :: parent) = none) :
    (t.insert (name :: parent) entry).children (name :: parent) = [] :=
  children_insert_of_ne (ne_of_suffix (List.suffix_refl _)) (h _ (by simp [free]))

theorem Grounded.erase (h : t.Grounded) (hc : t.children (name :: parent) = []) :
    (t.erase (name :: parent)).Grounded := by
  intro location other
  by_cases here : location = name :: parent
  · subst here
    exact List.sublist_nil.mp (hc ▸ children_erase_sublist)
  · rw [get?_erase_of_ne (List.cons_ne_nil _ _) here] at other
    exact List.sublist_nil.mp (h location other ▸ children_erase_sublist)

theorem children_clear_sublist : ((t.clear top).children location).Sublist (t.children location) :=
  List.filter_sublist.filterMap _

theorem Grounded.clear (h : t.Grounded) : (t.clear top).Grounded := by
  intro location other
  by_cases inside : top <:+ location
  · rw [List.eq_nil_iff_forall_not_mem]
    rintro ⟨name, entry⟩ mem
    have kept := (mem_entries_clear.mp (mem_children.mp mem)).2
    rw [isBelow_cons.mpr inside] at kept
    cases kept
  · rw [get?_clear, if_neg fun below => inside (isBelow_iff.mp below).1] at other
    exact List.sublist_nil.mp (h location other ▸ children_clear_sublist)

/-! ## What stands below -/

/-- What stands anywhere stands in a directory. -/
theorem Grounded.directory_above (h : t.Grounded) (he : t.get? (name :: parent) = some entry) :
    t.get? parent = some .directory := by
  by_contra other
  have child : (name, entry) ∈ t.children parent :=
    mem_children.mpr (mem_of_get? (List.cons_ne_nil _ _) he)
  rw [h parent other] at child
  cases child

/-- Nothing stands below what is not a directory. -/
theorem Grounded.get?_below (h : t.Grounded) (other : t.get? top ≠ some .directory)
    (hb : isBelow top location = true) : t.get? location = none := by
  induction location with
  | nil => exact absurd rfl (ne_nil_of_isBelow hb)
  | cons name parent ih =>
      cases found : t.get? (name :: parent) with
      | none => rfl
      | some entry =>
          have directory := h.directory_above found
          by_cases here : parent = top
          · exact absurd (here ▸ directory) other
          · rw [ih (isBelow_iff.mpr ⟨isBelow_cons.mp hb, here⟩)] at directory
            cases directory

end Strongroom.FileTree
