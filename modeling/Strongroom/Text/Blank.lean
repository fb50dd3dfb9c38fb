/-!
# Blank characters

The twenty-five characters with the Unicode property `White_Space`, and the pieces of a text
that they separate.
-/

namespace Strongroom.Text

/-- The white-space characters of Unicode. -/
def isBlank (c : Char) : Bool :=
  (0x9 ≤ c.toNat && c.toNat ≤ 0xD) || c.toNat == 0x20 || c.toNat == 0x85 || c.toNat == 0xA0 ||
  c.toNat == 0x1680 || (0x2000 ≤ c.toNat && c.toNat ≤ 0x200A) || c.toNat == 0x2028 ||
  c.toNat == 0x2029 || c.toNat == 0x202F || c.toNat == 0x205F || c.toNat == 0x3000

/-- The control characters of Unicode: both blocks of them and the delete character. -/
def isControl (c : Char) : Bool :=
  c.toNat ≤ 0x1F || (0x7F ≤ c.toNat && c.toNat ≤ 0x9F)

/-- A text without the blanks at its end. -/
def trimEnd (text : List Char) : List Char :=
  (text.reverse.dropWhile isBlank).reverse

/-- A text without the blanks at both ends. -/
def trim (text : List Char) : List Char :=
  trimEnd (text.dropWhile isBlank)

/-- The first run of characters that are not blank. -/
def firstField (text : List Char) : List Char :=
  (text.dropWhile isBlank).takeWhile fun c => !isBlank c

/-! ## Laws -/

theorem trimEnd_append_of_all_blank (text blanks : List Char)
    (h : ∀ c ∈ blanks, isBlank c = true) : trimEnd (text ++ blanks) = trimEnd text := by
  have : (blanks.reverse ++ text.reverse).dropWhile isBlank = text.reverse.dropWhile isBlank := by
    rw [List.dropWhile_append_of_pos]
    simpa using h
  simp [trimEnd, this]

end Strongroom.Text
