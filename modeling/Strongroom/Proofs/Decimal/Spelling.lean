import Mathlib.Algebra.GroupWithZero.Nat
import Mathlib.Data.List.Basic
import Strongroom.Decimal.Reading
import Strongroom.Proofs.Text.Fields
/-!
# Spellings of numbers

Which texts read as a number, whole or with a point or an exponent, is a matter of their spelling.  The
digits of a natural number read as that number, as long as it fits.
-/

namespace Strongroom.Decimal

/-! ## Grammar -/

/-- Digits, possibly none. -/
def Digits (text : List Char) : Prop :=
  ∀ c ∈ text, c.isDigit = true

/-- At most one sign. -/
inductive Sign : List Char → Prop
  | none : Sign []
  | plus : Sign ['+']
  | minus : Sign ['-']

/-- Digits with at most one point among them. -/
inductive Mantissa : List Char → Prop
  | whole {digits : List Char} (all : Digits digits) (filled : digits ≠ []) : Mantissa digits
  | pointed {front back : List Char} (before : Digits front) (after : Digits back)
      (filled : ¬ (front = [] ∧ back = [])) : Mantissa (front ++ '.' :: back)

/-- Nothing, or a mark and a whole number. -/
inductive Exponent : List Char → Prop
  | none : Exponent []
  | marked {mark : Char} {sign digits : List Char} (marks : mark = 'e' ∨ mark = 'E') (signs : Sign sign)
      (all : Digits digits) (filled : digits ≠ []) : Exponent (mark :: (sign ++ digits))

/-- A word for what is no finite number, in any case. -/
def Special (word : List Char) : Prop :=
  word.map Char.toLower ∈ ["inf".toList, "infinity".toList, "nan".toList]

/-- The spelling of a number without a sign. -/
inductive Unsigned : List Char → Prop
  | special {word : List Char} (special : Special word) : Unsigned word
  | magnitude {mantissa exponent : List Char} (digits : Mantissa mantissa) (power : Exponent exponent) :
      Unsigned (mantissa ++ exponent)

/-- The spelling of a number. -/
inductive Spelled : List Char → Prop
  | intro {sign body : List Char} (signs : Sign sign) (number : Unsigned body) : Spelled (sign ++ body)

variable {text rest digits : List Char}

/-! ## Signs -/

theorem sign_splitSign (text : List Char) :
    ∃ sign, Sign sign ∧ text = sign ++ (splitSign text).2 := by
  unfold splitSign
  split
  · exact ⟨['-'], .minus, rfl⟩
  · exact ⟨['+'], .plus, rfl⟩
  · exact ⟨[], .none, rfl⟩

theorem splitSign_of_unsigned (unsigned : ∀ c ∈ rest.head?, c ≠ '+' ∧ c ≠ '-') :
    splitSign rest = (false, rest) := by
  unfold splitSign
  split
  · exact absurd rfl (unsigned '-' rfl).2
  · exact absurd rfl (unsigned '+' rfl).1
  · rfl

theorem splitSign_append {sign : List Char} (signs : Sign sign)
    (unsigned : ∀ c ∈ rest.head?, c ≠ '+' ∧ c ≠ '-') : (splitSign (sign ++ rest)).2 = rest := by
  cases signs with
  | none => rw [List.nil_append, splitSign_of_unsigned unsigned]
  | plus => rfl
  | minus => rfl

theorem unsigned_of_isDigit {c : Char} (h : c.isDigit = true) : c ≠ '+' ∧ c ≠ '-' :=
  ⟨fun he => absurd (he ▸ h) (by decide), fun he => absurd (he ▸ h) (by decide)⟩

theorem Digits.unsigned (all : Digits digits) : ∀ c ∈ digits.head?, c ≠ '+' ∧ c ≠ '-' :=
  fun c hc => unsigned_of_isDigit (all c (List.mem_of_mem_head? hc))

/-! ## Fractions -/

theorem exponent?_isSome : (exponent? text).isSome = true ↔ Exponent text := by
  constructor
  · intro h
    cases text with
    | nil => exact .none
    | cons c rest =>
        obtain ⟨sign, signs, cut⟩ := sign_splitSign rest
        simp only [exponent?] at h
        split at h
        · rename_i marks
          split at h
          · rename_i good
            rw [cut]
            exact .marked marks signs (List.all_eq_true.mp good.2) good.1
          · cases h
        · cases h
  · intro h
    cases h with
    | none => rfl
    | marked marks signs all filled =>
        have good := And.intro filled (List.all_eq_true.mpr all)
        simp only [exponent?, if_pos marks, splitSign_append signs all.unsigned, if_pos good,
          Option.isSome_some]

theorem Exponent.stops (h : Exponent rest) : ∀ c ∈ rest.head?, c.isDigit = false ∧ c ≠ '.' := by
  cases h with
  | none => simp
  | marked marks signs all filled =>
      rintro c hc
      obtain rfl : _ = c := by simpa using hc
      rcases marks with rfl | rfl <;> decide

theorem magnitude?_isSome :
    (magnitude? text).isSome = true ↔
      ∃ mantissa exponent, text = mantissa ++ exponent ∧ Mantissa mantissa ∧ Exponent exponent := by
  constructor
  · intro h
    have cut : text = text.takeWhile Char.isDigit ++ text.dropWhile Char.isDigit :=
      List.takeWhile_append_dropWhile.symm
    have before : Digits (text.takeWhile Char.isDigit) := fun c hc => List.mem_takeWhile_imp hc
    simp only [magnitude?] at h
    split at h
    · rename_i rest pointed
      have after : Digits (rest.takeWhile Char.isDigit) := fun c hc => List.mem_takeWhile_imp hc
      have rest_eq : rest = rest.takeWhile Char.isDigit ++ rest.dropWhile Char.isDigit :=
        List.takeWhile_append_dropWhile.symm
      split at h
      · cases h
      · rename_i filled
        rw [Option.isSome_map, exponent?_isSome] at h
        refine ⟨_, _, ?_, .pointed before after filled, h⟩
        rw [List.append_assoc, List.cons_append, ← rest_eq, ← pointed, ← cut]
    · split at h
      · cases h
      · rename_i filled
        rw [Option.isSome_map, exponent?_isSome] at h
        exact ⟨_, _, cut, .whole before fun none => filled ⟨none, rfl⟩, h⟩
  · rintro ⟨mantissa, exponent, rfl, digits, power⟩
    have stops : ∀ c ∈ exponent.head?, c.isDigit = false := fun c hc => (power.stops c hc).1
    cases digits with
    | whole all filled =>
        obtain ⟨taken, left⟩ := Text.takeWhile_append_stop all stops
        simp only [magnitude?, taken, left]
        split
        · exact absurd rfl (power.stops '.' rfl).2
        · rw [if_neg fun none => filled none.1, Option.isSome_map, exponent?_isSome]
          exact power
    | @pointed front back before after filled =>
        have point : ∀ c ∈ ('.' :: (back ++ exponent)).head?, c.isDigit = false := by
          simp
        obtain ⟨taken, left⟩ := Text.takeWhile_append_stop before point
        obtain ⟨taken', left'⟩ := Text.takeWhile_append_stop after stops
        rw [List.append_assoc, List.cons_append]
        simp only [magnitude?, taken, left, taken', left', if_neg filled, Option.isSome_map,
          exponent?_isSome]
        exact power

theorem special?_isSome {word : List Char} :
    (special? word).isSome = true ↔ word ∈ ["inf".toList, "infinity".toList, "nan".toList] := by
  unfold special?
  split
  · rename_i infinite
    rcases infinite with rfl | rfl <;> simp
  · rename_i finite
    rw [not_or] at finite
    split
    · rename_i same
      simp [same]
    · rename_i other
      simp [finite.1, finite.2, other]

/-- What has a sign in front of it has none of its own. -/
theorem Unsigned.unsigned (h : Unsigned text) : ∀ c ∈ text.head?, c ≠ '+' ∧ c ≠ '-' := by
  cases h with
  | special special =>
      intro c hc
      have letter : some c.toLower ∈ ["inf".toList, "infinity".toList, "nan".toList].map List.head? := by
        rw [← Option.map_some, ← Option.mem_def.mp hc, ← List.head?_map]
        exact List.mem_map_of_mem special
      constructor
      · rintro rfl
        exact absurd letter (by decide)
      · rintro rfl
        exact absurd letter (by decide)
  | magnitude digits power =>
      cases digits with
      | whole all filled =>
          intro c hc
          obtain ⟨first, more, rfl⟩ := List.exists_cons_of_ne_nil filled
          exact all.unsigned c hc
      | @pointed front back before after filled =>
          intro c hc
          cases front with
          | nil =>
              obtain rfl : '.' = c := by simpa using hc
              decide
          | cons first more =>
              obtain rfl : first = c := by simpa using hc
              exact unsigned_of_isDigit (before first (List.mem_cons_self ..))

/-- A text reads as a number exactly if it is spelled as one. -/
theorem real?_isSome : (real? text).isSome = true ↔ Spelled text := by
  have parts : (real? text).isSome = true ↔ Unsigned (splitSign text).2 := by
    simp only [real?, Option.isSome_map, Option.isSome_or, Bool.or_eq_true, special?_isSome,
      magnitude?_isSome]
    constructor
    · rintro (special | ⟨mantissa, exponent, cut, digits, power⟩)
      · exact .special special
      · rw [cut]
        exact .magnitude digits power
    · intro h
      generalize (splitSign text).2 = body at h
      cases h with
      | special special => exact .inl special
      | magnitude digits power => exact .inr ⟨_, _, rfl, digits, power⟩
  rw [parts]
  constructor
  · intro number
    obtain ⟨sign, signs, cut⟩ := sign_splitSign text
    rw [cut]
    exact .intro signs number
  · rintro ⟨signs, number⟩
    rwa [splitSign_append signs number.unsigned]

instance : DecidablePred Spelled := fun _ => decidable_of_iff _ real?_isSome

/-! ## Whole numbers -/

theorem isDigitIn_ten (c : Char) : isDigitIn 10 c = c.isDigit := by
  have value : c.toNat = c.val.toNat := rfl
  have lower : c.isLower = (decide (c.val ≥ 'a'.val) && decide (c.val ≤ 'z'.val)) := rfl
  rw [Bool.eq_iff_iff]
  simp only [isDigitIn, ofDigits.digitValue, Char.isDigit, lower, Char.le_def, ge_iff_le,
    Bool.and_eq_true, Bool.or_eq_true, decide_eq_true_eq, UInt32.le_iff_toNat_le]
  split
  · simp at *
    omega
  · split
    · simp at *
      omega
    · simp at *
      omega

theorem ofDigits_ten (all : Digits digits) : ofDigits 10 digits = Nat.ofDigitChars 10 digits 0 := by
  rw [ofDigits, Nat.ofDigitChars_eq_foldl]
  refine List.foldl_ext _ _ _ fun n c hc => ?_
  rw [ofDigits.digitValue, if_pos (all c hc)]
  rfl

theorem digits_toDigits (n : Nat) : Digits (Nat.toDigits 10 n) := fun _ hc =>
  Nat.isDigit_of_mem_toDigits (by decide) (by decide) hc

/-- The digits of a natural number read as that number if it fits sixty-four bits with a sign. -/
theorem integer?_toDigits (n : Nat) :
    integer? (Nat.toDigits 10 n) = if n < 2 ^ 63 then some (n : Int) else none := by
  have all := digits_toDigits n
  have good : Nat.toDigits 10 n ≠ [] ∧ (Nat.toDigits 10 n).all (isDigitIn 10) = true := by
    refine ⟨Nat.toDigits_ne_nil, List.all_eq_true.mpr fun c hc => ?_⟩
    rw [isDigitIn_ten]
    exact all c hc
  have value : ofDigits 10 (Nat.toDigits 10 n) = n := by
    rw [ofDigits_ten all, Nat.ofDigitChars_ten_toDigits]
  have least : Int64.minValue.toInt = -2 ^ 63 := rfl
  have greatest : Int64.maxValue.toInt = 2 ^ 63 - 1 := rfl
  simp only [integer?, integerIn?, splitSign_of_unsigned all.unsigned, if_pos good, value, word?,
    Bool.false_eq_true, if_false]
  by_cases fits : n < 2 ^ 63
  · rw [if_pos (by omega), if_pos fits]
  · rw [if_neg (by omega), if_neg fits]

theorem spelled_of_digits {sign : List Char} (signs : Sign sign) (all : Digits digits)
    (filled : digits ≠ []) : Spelled (sign ++ digits) := by
  have number : Unsigned (digits ++ []) := .magnitude (.whole all filled) .none
  rw [List.append_nil] at number
  exact .intro signs number

theorem spelled_of_integer? {n : Int} (h : integer? text = some n) : Spelled text := by
  simp only [integer?, integerIn?] at h
  obtain ⟨⟨filled, all⟩, -⟩ := Option.ite_none_right_eq_some.mp h
  obtain ⟨sign, signs, cut⟩ := sign_splitSign text
  rw [cut]
  refine spelled_of_digits signs (fun c hc => ?_) filled
  rw [← isDigitIn_ten]
  exact List.all_eq_true.mp all c hc

end Strongroom.Decimal
