/-!
# Bytes in base sixteen

Each byte is written as two lower-case digits, the high half first.
-/

namespace Strongroom

/-- A string of bytes. -/
abbrev Bytes := List UInt8

namespace Bytes

/-- The digit for a number below sixteen. -/
def hexDigit (n : Nat) : Char :=
  if n < 10 then Char.ofNat (48 + n) else Char.ofNat (87 + n)

/-- Two digits for a byte. -/
def hexPair (b : UInt8) : List Char :=
  [hexDigit (b.toNat / 16), hexDigit (b.toNat % 16)]

/-- The bytes as digits. -/
def toHex (bytes : Bytes) : String :=
  String.ofList (bytes.flatMap hexPair)

/-- The bytes of a text in UTF-8. -/
def ofText (text : String) : Bytes :=
  text.toUTF8.data.toList

/-- The text that the bytes spell in UTF-8, if they spell one. -/
def toText? (bytes : Bytes) : Option String :=
  String.fromUTF8? ⟨bytes.toArray⟩

/-! ## Laws -/

theorem length_flatMap_hexPair (bytes : Bytes) :
    (bytes.flatMap hexPair).length = 2 * bytes.length := by
  induction bytes with
  | nil => rfl
  | cons b bytes ih => simp [List.flatMap_cons, hexPair, ih]; omega

end Bytes

end Strongroom
