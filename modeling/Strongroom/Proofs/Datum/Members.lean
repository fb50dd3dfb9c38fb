import Strongroom.Proofs.Registry.KeyedRows
import Strongroom.Settings.Key
/-!
# Members of a record

What is kept under a name, as members are put in front of others or take their place.
-/

namespace Strongroom.Datum

variable {name : String} {members : List (String × Datum)}

theorem kept_cons {α : Type} (key : String) (value : α) (fields : List (String × α)) :
    kept name ((key, value) :: fields) = if key = name then some value else kept name fields := by
  by_cases he : key = name <;> simp [kept, he]

theorem kept_append {α : Type} {before after : List (String × α)} :
    kept name (before ++ after) = (kept name before).or (kept name after) := by
  simp [kept, List.find?_append, Option.map_or]

theorem kept_eq_none {α : Type} {fields : List (String × α)} :
    kept name fields = none ↔ name ∉ fields.map Prod.fst := by
  simp only [kept, Option.map_eq_none_iff, List.find?_eq_none, beq_iff_eq, List.mem_map, not_exists,
    not_and]

theorem kept_perm {members' : List (String × Datum)} (distinct : (members.map Prod.fst).Nodup)
    (same : members'.Perm members) : kept name members' = kept name members :=
  congrArg (Option.map Prod.snd) (Registry.find?_perm Prod.fst distinct same name)

/-- A member that is put into a record takes the place of the one of its name and of no other. -/
theorem kept_put (name other : String) (value : Datum) (members : List (String × Datum)) :
    kept other (put name value members) = if name = other then some value else kept other members := by
  induction members with
  | nil => rw [put, kept_cons]
  | cons first rest ih =>
      obtain ⟨key, old⟩ := first
      by_cases here : key = name
      · subst here
        rw [put, if_pos rfl, kept_cons, kept_cons]
        split <;> rfl
      · rw [put, if_neg here, kept_cons, kept_cons, ih]
        by_cases same : key = other
        · rw [if_pos same, if_pos same, if_neg fun he => here (same.trans he.symm)]
        · rw [if_neg same, if_neg same]

end Strongroom.Datum
