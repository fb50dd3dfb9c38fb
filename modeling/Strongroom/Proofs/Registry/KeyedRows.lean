/-!
# Rows with a key

What is found among rows by their key, as rows are removed, added or overwritten.  Where no key has
two rows, the order of the rows does not bear on it.
-/

namespace Strongroom.Registry

variable {α : Type} (key : α → String) {rows rows' : List α} {row : α}

/-! ## Fewer rows -/

theorem find?_without_key (name other : String) :
    (rows.filter fun row => key row != name).find? (fun row => key row == other) =
      if other = name then none else rows.find? fun row => key row == other := by
  by_cases ho : other = name
  · subst ho
    simp
  · rw [if_neg ho, List.find?_filter]
    congr 1
    funext row
    by_cases hr : key row = other
    · simp [hr, ho]
    · simp [hr]

theorem key_ne_of_mem_rest {first : α} {rest : List α} (unique : ((first :: rest).map key).Nodup)
    (hm : row ∈ rest) : key row ≠ key first := by
  rw [List.map_cons, List.nodup_cons] at unique
  exact fun he => unique.1 (he ▸ List.mem_map_of_mem hm)

theorem find?_of_mem (unique : (rows.map key).Nodup) (hm : row ∈ rows) :
    (rows.find? fun other => key other == key row) = some row := by
  induction rows with
  | nil => cases hm
  | cons first rest ih =>
      rcases List.mem_cons.mp hm with rfl | hm
      · simp
      · have away := key_ne_of_mem_rest key unique hm
        rw [List.find?_cons_of_neg (by simpa using away.symm), ih (List.nodup_cons.mp unique).2 hm]

/-- With unique keys, a look among some of the rows finds what a look among all of them does. -/
theorem find?_where (unique : (rows.map key).Nodup) (p : α → Bool) (other : String) :
    (rows.filter p).find? (fun row => key row == other) =
      (rows.find? fun row => key row == other).filter p := by
  induction rows with
  | nil => rfl
  | cons first rest ih =>
      have ih := ih (List.nodup_cons.mp unique).2
      by_cases hf : key first = other
      · have absent : (rest.find? fun row => key row == other) = none :=
          List.find?_eq_none.mpr fun row hm => by simpa [hf] using key_ne_of_mem_rest key unique hm
        rw [absent] at ih
        rw [List.find?_cons_of_pos (by simp [hf])]
        cases hp : p first with
        | true => simp [hp, hf, Option.filter]
        | false => simpa [hp, Option.filter] using ih
      · rw [List.find?_cons_of_neg (by simp [hf]), ← ih]
        cases hp : p first with
        | true => simp [hp, hf]
        | false => simp [hp]

/-! ## One more row -/

theorem find?_concat (vacant : ∀ other ∈ rows, key other ≠ key row) (other : String) :
    (rows ++ [row]).find? (fun row => key row == other) =
      if other = key row then some row else rows.find? fun row => key row == other := by
  rw [List.find?_append]
  split
  · rename_i ho
    subst ho
    have absent : (rows.find? fun other => key other == key row) = none := by
      simpa [List.find?_eq_none] using vacant
    simp [absent]
  · rename_i ho
    have : ¬ key row = other := fun he => ho he.symm
    simp [this]

theorem nodup_concat (unique : (rows.map key).Nodup) (vacant : ∀ other ∈ rows, key other ≠ key row) :
    ((rows ++ [row]).map key).Nodup := by
  rw [List.map_append, List.nodup_append]
  refine ⟨unique, by simp, fun name hn other ho => ?_⟩
  obtain ⟨old, hm, rfl⟩ := List.mem_map.mp hn
  obtain rfl := List.mem_singleton.mp ho
  exact vacant old hm

theorem perm_concat (vacant : ∀ old ∈ rows, key old ≠ key row) :
    (rows ++ [row]).Perm (row :: rows.filter fun old => key old != key row) := by
  rw [List.filter_eq_self.mpr (by simpa using vacant)]
  exact List.perm_append_singleton row rows

/-! ## A row in the place of another one -/

theorem find?_overwrite (present : rows.any (fun other => key other == key row) = true)
    (other : String) :
    (rows.map fun old => if key old == key row then row else old).find?
        (fun row => key row == other) =
      if other = key row then some row else rows.find? fun row => key row == other := by
  by_cases ho : other = key row
  · subst ho
    rw [if_pos rfl]
    induction rows with
    | nil => cases present
    | cons first rest ih =>
        by_cases hf : key first = key row
        · simp [hf]
        · have : rest.any (fun other => key other == key row) = true := by simpa [hf] using present
          simpa [hf] using ih this
  · rw [if_neg ho]
    have away : ¬ key row = other := fun he => ho he.symm
    clear present
    induction rows with
    | nil => rfl
    | cons first rest ih =>
        by_cases hf : key first = key row
        · simpa [hf, away] using ih
        · by_cases hk : key first = other
          · simp [hk, ho]
          · simpa [hf, hk] using ih

theorem perm_overwrite (unique : (rows.map key).Nodup)
    (present : rows.any (fun other => key other == key row) = true) :
    (rows.map fun old => if key old == key row then row else old).Perm
      (row :: rows.filter fun old => key old != key row) := by
  induction rows with
  | nil => cases present
  | cons first rest ih =>
      by_cases hf : key first = key row
      · -- the other rows stay as they are
        have away : ∀ old ∈ rest, key old ≠ key row := fun old hm =>
          hf ▸ key_ne_of_mem_rest key unique hm
        have stay : (rest.map fun old => if key old == key row then row else old) = rest := by
          conv => rhs; rw [← List.map_id rest]
          exact List.map_congr_left fun old hm => by simp [away old hm]
        have kept : (rest.filter fun old => key old != key row) = rest :=
          List.filter_eq_self.mpr (by simpa using away)
        rw [List.map_cons, stay, if_pos (beq_iff_eq.mpr hf), List.filter_cons_of_neg (by simp [hf]), kept]
      · have present : rest.any (fun old => key old == key row) = true := by simpa [hf] using present
        have swapped := ((ih (List.nodup_cons.mp unique).2 present).cons first).trans (.swap ..)
        simpa [hf] using swapped

/-- The rows with a row that takes the place of the one with its key, or else comes last. -/
def put (row : α) (rows : List α) : List α :=
  if rows.any fun old => key old == key row then
    rows.map fun old => if key old == key row then row else old
  else rows ++ [row]

theorem find?_put (row : α) (rows : List α) (other : String) :
    (put key row rows).find? (fun row => key row == other) =
      if other = key row then some row else rows.find? fun row => key row == other := by
  unfold put
  split
  · rename_i present
    exact find?_overwrite key present other
  · rename_i absent
    exact find?_concat key (by simpa using absent) other

theorem perm_put (unique : (rows.map key).Nodup) (row : α) :
    (put key row rows).Perm (row :: rows.filter fun old => key old != key row) := by
  unfold put
  split
  · rename_i present
    exact perm_overwrite key unique present
  · rename_i absent
    exact perm_concat key (by simpa using absent)

/-! ## The same rows in another order -/

theorem find?_perm (unique : (rows.map key).Nodup) (same : rows'.Perm rows) (name : String) :
    (rows'.find? fun row => key row == name) = rows.find? fun row => key row == name := by
  cases found : rows.find? fun row => key row == name with
  | none =>
      rw [List.find?_eq_none] at found ⊢
      exact fun row hm => found row (same.mem_iff.mp hm)
  | some row =>
      have hm := same.mem_iff.mpr (List.mem_of_find?_eq_some found)
      obtain rfl : key row = name := by simpa using List.find?_some found
      exact find?_of_mem key ((same.map key).nodup_iff.mpr unique) hm

end Strongroom.Registry
