import Mathlib.Data.List.TakeWhile
import Strongroom.Text.Blank
/-!
# Fields of a text

A run of characters ends where the first other character stands.  The first field of a text is the first
run of characters that are not blank.
-/

namespace Strongroom.Text

theorem takeWhile_append_stop {p : Char → Bool} {run rest : List Char} (all : ∀ c ∈ run, p c = true)
    (stops : ∀ c ∈ rest.head?, p c = false) :
    (run ++ rest).takeWhile p = run ∧ (run ++ rest).dropWhile p = rest := by
  have stop : rest.takeWhile p = [] ∧ rest.dropWhile p = rest := by
    cases rest with
    | nil => exact ⟨rfl, rfl⟩
    | cons c cs => simp [stops c rfl]
  rw [List.takeWhile_append_of_pos all, List.dropWhile_append_of_pos all, stop.1, stop.2,
    List.append_nil]
  exact ⟨rfl, rfl⟩

/-- A text that starts with a field: there may be blanks in front of it, and behind it the text ends or
goes on with a blank. -/
inductive FirstField : List Char → List Char → Prop
  | intro (blanks field rest : List Char) (before : ∀ c ∈ blanks, isBlank c = true)
      (filled : field ≠ []) (solid : ∀ c ∈ field, isBlank c = false)
      (after : ∀ c ∈ rest.head?, isBlank c = true) : FirstField (blanks ++ (field ++ rest)) field

variable {text field : List Char}

theorem FirstField.firstField_eq (h : FirstField text field) : firstField text = field := by
  cases h with
  | intro blanks field rest before filled solid after =>
      have starts : ∀ c ∈ (field ++ rest).head?, isBlank c = false := by
        intro c hc
        obtain ⟨first, more, rfl⟩ := List.exists_cons_of_ne_nil filled
        obtain rfl : first = c := by simpa using hc
        exact solid first (List.mem_cons_self ..)
      have taken : (field ++ rest).takeWhile (fun c => !isBlank c) = field :=
        (takeWhile_append_stop (fun c hc => by simp [solid c hc])
          fun c hc => by simp [after c hc]).1
      rw [firstField, (takeWhile_append_stop before starts).2, taken]

theorem firstField_of_ne_nil (h : firstField text ≠ []) : FirstField text (firstField text) := by
  have parts : text = text.takeWhile isBlank ++ (firstField text ++
      (text.dropWhile isBlank).dropWhile fun c => !isBlank c) := by
    rw [firstField, List.takeWhile_append_dropWhile, List.takeWhile_append_dropWhile]
  have solid : ∀ c ∈ firstField text, isBlank c = false := fun c hc => by
    simpa using List.mem_takeWhile_imp hc
  have after : ∀ c ∈ ((text.dropWhile isBlank).dropWhile fun c => !isBlank c).head?,
      isBlank c = true := fun c hc => by
    simpa [Option.mem_def.mp hc] using
      List.head?_dropWhile_not (fun c => !isBlank c) (text.dropWhile isBlank)
  have cut : FirstField (text.takeWhile isBlank ++ (firstField text ++ _)) (firstField text) :=
    .intro _ _ _ (fun c hc => List.mem_takeWhile_imp hc) h solid after
  rwa [← parts] at cut

theorem firstField_eq_iff (filled : field ≠ []) : firstField text = field ↔ FirstField text field := by
  constructor
  · rintro rfl
    exact firstField_of_ne_nil filled
  · exact FirstField.firstField_eq

end Strongroom.Text
