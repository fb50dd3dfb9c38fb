import Strongroom.FileTree.Basic
/-!
# Entries of a tree

What stands where after an entry is put, taken away, or cleared of everything below it.
-/

namespace Strongroom.FileTree

variable {t : FileTree} {location top : Location} {entry : Entry}

/-! ## Looking up -/

theorem mem_of_get? (hne : location ≠ []) (h : t.get? location = some entry) :
    (location, entry) ∈ t.entries := by
  cases location with
  | nil => exact absurd rfl hne
  | cons name parent =>
      simp only [get?, Option.map_eq_some_iff] at h
      obtain ⟨item, hf, rfl⟩ := h
      have key := List.find?_some hf
      have mem := List.mem_of_find?_eq_some hf
      rw [← beq_iff_eq.mp key]
      exact mem

theorem not_mem_of_get?_eq_none (hne : location ≠ []) (h : t.get? location = none) :
    (location, entry) ∉ t.entries := by
  cases location with
  | nil => exact absurd rfl hne
  | cons name parent =>
      simp only [get?, Option.map_eq_none_iff, List.find?_eq_none] at h
      intro hm
      exact h _ hm (by simp)

theorem mem_entries_erase {item : Location × Entry} :
    item ∈ (t.erase location).entries ↔ item ∈ t.entries ∧ item.1 ≠ location := by
  simp [erase]

theorem mem_entries_insert {item : Location × Entry} :
    item ∈ (t.insert location entry).entries ↔
      item = (location, entry) ∨ item ∈ t.entries ∧ item.1 ≠ location := by
  simp [insert, mem_entries_erase]

/-! ## Putting and taking away -/

theorem erase_of_vacant (hne : location ≠ []) (h : t.get? location = none) :
    t.erase location = t := by
  obtain ⟨entries⟩ := t
  simp only [erase, FileTree.mk.injEq, List.filter_eq_self, bne_iff_ne]
  rintro ⟨other, e⟩ hm rfl
  exact not_mem_of_get?_eq_none hne h hm

theorem erase_insert : (t.insert location entry).erase location = t.erase location := by
  simp [insert, erase]

/-- What is put where nothing stood can be taken away again. -/
theorem erase_insert_of_vacant (hne : location ≠ []) (h : t.get? location = none) :
    (t.insert location entry).erase location = t := by
  rw [erase_insert, erase_of_vacant hne h]

theorem insert_insert {other : Entry} :
    (t.insert location other).insert location entry = t.insert location entry := by
  rw [insert, erase_insert, ← insert]

theorem get?_insert_self (hne : location ≠ []) :
    (t.insert location entry).get? location = some entry := by
  rw [get?_insert t hne, if_pos rfl]

theorem get?_insert_of_ne (hne : location ≠ []) {other : Location} (h : other ≠ location) :
    (t.insert location entry).get? other = t.get? other := by
  rw [get?_insert t hne, if_neg h]

/-- What is put where nothing stood leaves everything else there. -/
theorem get?_insert_of_vacant (free : t.get? location = none) {l : Location} {e : Entry}
    (he : t.get? l = some e) : (t.insert location entry).get? l = some e := by
  have here : location ≠ [] := by
    rintro rfl
    cases free
  rw [get?_insert_of_ne here ?_, he]
  rintro rfl
  rw [free] at he
  cases he

theorem get?_erase_of_ne (hne : location ≠ []) {other : Location} (h : other ≠ location) :
    (t.erase location).get? other = t.get? other := by
  rw [get?_erase t hne, if_neg h]

/-! ## Below a location -/

theorem isBelow_iff : isBelow top location = true ↔ top <:+ location ∧ location ≠ top := by
  simp [isBelow]

theorem isBelow_cons {name : Name} : isBelow top (name :: location) = true ↔ top <:+ location := by
  rw [isBelow_iff, List.suffix_cons_iff]
  constructor
  · rintro ⟨rfl | h, hne⟩
    · exact absurd rfl hne
    · exact h
  · intro h
    refine ⟨.inr h, ?_⟩
    rintro rfl
    have := h.length_le
    rw [List.length_cons] at this
    omega

/-- What is below a location is below those above it. -/
theorem isBelow_of_suffix {inner : Location} (hs : top <:+ inner)
    (hb : isBelow inner location = true) : isBelow top location = true := by
  obtain ⟨within, away⟩ := isBelow_iff.mp hb
  refine isBelow_iff.mpr ⟨hs.trans within, ?_⟩
  rintro rfl
  exact away (within.eq_of_length_le hs.length_le).symm

theorem ne_nil_of_isBelow (h : isBelow top location = true) : location ≠ [] := by
  rintro rfl
  obtain ⟨hs, hne⟩ := isBelow_iff.mp h
  exact hne (List.suffix_nil.mp hs).symm

theorem mem_below {item : Location × Entry} :
    item ∈ t.below top ↔ item ∈ t.entries ∧ isBelow top item.1 = true := by
  simp [below]

theorem get?_of_below_eq_nil (h : t.below top = []) (hb : isBelow top location = true) :
    t.get? location = none := by
  cases found : t.get? location with
  | none => rfl
  | some entry =>
      have mem := mem_below.mpr ⟨mem_of_get? (ne_nil_of_isBelow hb) found, hb⟩
      rw [h] at mem
      cases mem

theorem mem_children {name : Name} :
    (name, entry) ∈ t.children location ↔ (name :: location, entry) ∈ t.entries := by
  simp only [children, List.mem_filterMap]
  constructor
  · rintro ⟨⟨other, e⟩, hm, he⟩
    cases other with
    | nil => simp at he
    | cons first parent =>
        simp only [Option.ite_none_right_eq_some, Option.some.injEq, Prod.mk.injEq] at he
        obtain ⟨rfl, rfl, rfl⟩ := he
        exact hm
  · intro hm
    exact ⟨_, hm, by simp⟩

theorem get?_clear (other : Location) :
    (t.clear top).get? other = if isBelow top other then none else t.get? other := by
  cases other with
  | nil =>
      have : ¬ isBelow top [] = true := fun h => ne_nil_of_isBelow h rfl
      simp [get?, this]
  | cons name parent =>
      simp only [get?, clear, List.find?_filter]
      split
      · rename_i hb
        rw [Option.map_eq_none_iff, List.find?_eq_none]
        rintro ⟨key, e⟩ - he
        simp only [Bool.not_eq_true', beq_iff_eq, decide_eq_true_eq] at he
        obtain ⟨outside, rfl⟩ := he
        simp [hb] at outside
      · rename_i hb
        congr 2
        funext item
        by_cases hk : item.1 = name :: parent
        · simp [hk, hb]
        · simp [hk]

theorem mem_entries_clear {item : Location × Entry} :
    item ∈ (t.clear top).entries ↔ item ∈ t.entries ∧ isBelow top item.1 = false := by
  simp [clear]

theorem children_clear : (t.clear location).children location = [] := by
  rw [List.eq_nil_iff_forall_not_mem]
  rintro ⟨name, e⟩ hm
  have := (mem_entries_clear.mp (mem_children.mp hm)).2
  rw [isBelow_cons.mpr (List.suffix_refl _)] at this
  cases this

end Strongroom.FileTree
