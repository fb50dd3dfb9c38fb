import Mathlib.Data.List.Basic
import Mathlib.Logic.Function.Basic
import Strongroom.Access.Entropy
import Strongroom.Bytes.Match
/-!
# Digests

A text in base sixteen tells which bytes it was made of, and two digests match exactly if they are
the same.
-/

namespace Strongroom.Bytes

theorem ofText_injective : Function.Injective ofText := by
  intro a b h
  have same : a.toUTF8 = b.toUTF8 := ByteArray.ext (Array.toList_inj.mp h)
  exact String.toByteArray_inj.mp same

/-! ## Base sixteen -/

theorem hexDigit_inj {m n : Nat} (hm : m < 16) (hn : n < 16) (h : hexDigit m = hexDigit n) : m = n := by
  have all : ∀ m n : Fin 16, hexDigit m = hexDigit n → m = n := by decide
  exact Fin.mk.inj_iff.mp (all ⟨m, hm⟩ ⟨n, hn⟩ h)

theorem hexPair_injective : Function.Injective hexPair := by
  intro a b h
  simp only [hexPair, List.cons.injEq, and_true] at h
  have bound : a.toNat < 256 ∧ b.toNat < 256 := ⟨a.toNat_lt, b.toNat_lt⟩
  have high := hexDigit_inj (by omega) (by omega) h.1
  have low := hexDigit_inj (by omega) (by omega) h.2
  apply UInt8.toNat_inj.mp
  omega

theorem flatMap_hexPair_injective : Function.Injective fun bytes : Bytes => bytes.flatMap hexPair := by
  intro a b h
  dsimp only at h
  induction a generalizing b with
  | nil =>
      cases b with
      | nil => rfl
      | cons y b => simp [hexPair] at h
  | cons x a ih =>
      cases b with
      | nil => simp [hexPair] at h
      | cons y b =>
          rw [List.flatMap_cons, List.flatMap_cons] at h
          obtain ⟨first, rest⟩ := List.append_inj h rfl
          rw [hexPair_injective first, ih rest]

theorem toHex_injective : Function.Injective toHex := by
  intro a b h
  exact flatMap_hexPair_injective (String.ofList_injective h)

/-! ## Comparing -/

/-- Two strings of bytes differ at a place if both have a byte there and the bytes are not the same. -/
def DiffersAt (a b : Bytes) (place : Nat) : Prop :=
  ∃ x y, a[place]? = some x ∧ b[place]? = some y ∧ x ≠ y

variable {seen : UInt8} {a b : Bytes}

theorem eq_iff_testBit {x y : UInt8} : x = y ↔ ∀ bit, x.toNat.testBit bit = y.toNat.testBit bit := by
  constructor
  · rintro rfl bit
    rfl
  · intro same
    exact UInt8.toNat_inj.mp (Nat.eq_of_testBit_eq same)

theorem testBit_or_xor {x y : UInt8} {bit : Nat} :
    (seen ||| (x ^^^ y)).toNat.testBit bit = true ↔
      seen.toNat.testBit bit = true ∨ x.toNat.testBit bit ≠ y.toNat.testBit bit := by
  simp [UInt8.toNat_or, UInt8.toNat_xor, Nat.testBit_or, Nat.testBit_xor]

/-- No difference seen is lost: in the end a bit is set exactly if it was set before or two bytes that face
each other differ in it. -/
theorem testBit_gatherDifferences {bit : Nat} :
    (gatherDifferences seen a b).toNat.testBit bit = true ↔
      seen.toNat.testBit bit = true ∨
        ∃ pair ∈ a.zip b, pair.1.toNat.testBit bit ≠ pair.2.toNat.testBit bit := by
  -- the byte that is handed on is another one at each place, so it is general in the induction
  induction a generalizing seen b with
  | nil => simp [gatherDifferences]
  | cons x a ih =>
      cases b with
      | nil => simp [gatherDifferences]
      | cons y b =>
          rw [gatherDifferences, ih, testBit_or_xor, List.zip_cons_cons, List.exists_mem_cons_iff, or_assoc]

theorem forall_mem_zip_eq : (∀ pair ∈ a.zip b, pair.1 = pair.2) ↔ ∀ place, ¬ DiffersAt a b place := by
  constructor
  · rintro same place ⟨x, y, hx, hy, h⟩
    exact h (same (x, y) (List.mem_iff_getElem?.mpr ⟨place, List.getElem?_zip_eq_some.mpr ⟨hx, hy⟩⟩))
  · rintro same ⟨x, y⟩ mem
    obtain ⟨place, found⟩ := List.mem_iff_getElem?.mp mem
    obtain ⟨hx, hy⟩ := List.getElem?_zip_eq_some.mp found
    by_contra h
    exact same place ⟨x, y, hx, hy, h⟩

theorem gatherDifferences_eq_zero :
    gatherDifferences seen a b = 0 ↔ seen = 0 ∧ ∀ place, ¬ DiffersAt a b place := by
  have zero_iff (x : UInt8) : x = 0 ↔ ∀ bit, ¬ x.toNat.testBit bit = true := by simp [eq_iff_testBit]
  rw [← forall_mem_zip_eq]
  calc gatherDifferences seen a b = 0
    _ ↔ ∀ bit, ¬ (seen.toNat.testBit bit = true ∨
          ∃ pair ∈ a.zip b, pair.1.toNat.testBit bit ≠ pair.2.toNat.testBit bit) := by
        simp only [zero_iff, testBit_gatherDifferences]
    _ ↔ (∀ bit, ¬ seen.toNat.testBit bit = true) ∧
          ∀ pair ∈ a.zip b, ∀ bit, pair.1.toNat.testBit bit = pair.2.toNat.testBit bit := by
        simp only [not_or, not_exists, not_and, ne_eq, not_not, forall_and]
        exact and_congr_right fun _ => ⟨fun h p m bit => h bit p m, fun h bit p m => h p m bit⟩
    _ ↔ seen = 0 ∧ ∀ pair ∈ a.zip b, pair.1 = pair.2 := by
        simp only [zero_iff, eq_iff_testBit]

theorem eq_iff_not_differsAt : a = b ↔ a.length = b.length ∧ ∀ place, ¬ DiffersAt a b place := by
  constructor
  · rintro rfl
    refine ⟨rfl, ?_⟩
    rintro place ⟨x, y, hx, hy, h⟩
    exact h (Option.some.inj (hx.symm.trans hy))
  · rintro ⟨length, same⟩
    apply List.ext_getElem length
    intro place ha hb
    by_contra h
    exact same place ⟨_, _, List.getElem?_eq_getElem ha, List.getElem?_eq_getElem hb, h⟩

theorem isMatch_iff : isMatch a b = true ↔ a = b := by
  rw [isMatch, Bool.and_eq_true, beq_iff_eq, beq_iff_eq, gatherDifferences_eq_zero, eq_self, true_and,
    eq_iff_not_differsAt]

end Strongroom.Bytes
