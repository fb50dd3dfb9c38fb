import Mathlib.Data.String.Basic
import Strongroom.Bytes.Hex
/-!
# The order of texts

Texts are ordered by their characters, and that is the order of their bytes: of two characters the
later one has the larger byte where their bytes differ first.  What is sorted by texts that differ
stands in the order of their bytes, however it stood before.
-/

namespace Strongroom.Bytes

theorem ofText_eq (text : String) : ofText text = text.toList.flatMap String.utf8EncodeChar := by
  conv => lhs; rw [← String.ofList_toList (s := text)]
  rw [ofText, String.toUTF8_eq_toByteArray, String.toByteArray_ofList, List.utf8Encode,
    List.data_toByteArray]

/-- The bytes of a character decide an order, whatever follows them. -/
theorem utf8EncodeChar_lt {c d : Char} (h : c < d) (more more' : List UInt8) :
    String.utf8EncodeChar c ++ more < String.utf8EncodeChar d ++ more' := by
  have order : c.val.toNat < d.val.toNat := h
  have bound : d.val.toNat < 1114112 := by
    rcases d.valid with low | ⟨-, high⟩
    · exact Nat.lt_trans low (by decide)
    · exact high
  simp only [String.utf8EncodeChar]
  generalize c.val.toNat = m at order
  generalize d.val.toNat = n at order bound
  -- each number in digits of six bits, of which a byte holds one
  have digits (k : Nat) : k / 4096 = k / 64 / 64 ∧ k / 262144 = k / 64 / 64 / 64 :=
    ⟨(Nat.div_div_eq_div_mul k 64 64).symm, by rw [Nat.div_div_eq_div_mul, Nat.div_div_eq_div_mul]⟩
  rw [(digits m).1, (digits m).2, (digits n).1, (digits n).2]
  split_ifs <;>
    simp only [List.cons_append, List.nil_append, List.cons_lt_cons_iff, UInt8.lt_iff_toNat_lt,
      ← UInt8.toNat_inj, UInt8.toNat_ofNat'] <;> omega

theorem flatMap_utf8EncodeChar_lt {a b : List Char} (h : a < b) :
    a.flatMap String.utf8EncodeChar < b.flatMap String.utf8EncodeChar := by
  induction a generalizing b with
  | nil =>
      cases b with
      | nil => exact absurd h (List.lt_irrefl _)
      | cons d b =>
          rw [List.flatMap_nil, List.flatMap_cons]
          obtain ⟨first, rest, he⟩ := List.exists_cons_of_ne_nil (String.utf8EncodeChar_ne_nil (c := d))
          rw [he]
          exact List.nil_lt_cons ..
  | cons c a ih =>
      cases b with
      | nil => cases h
      | cons d b =>
          rw [List.flatMap_cons, List.flatMap_cons]
          rcases List.cons_lt_cons_iff.mp h with first | ⟨rfl, rest⟩
          · exact utf8EncodeChar_lt first _ _
          · exact List.append_left_lt (ih rest)

/-- One text comes before another one exactly if its bytes do. -/
theorem ofText_lt_ofText {a b : String} : ofText a < ofText b ↔ a < b := by
  have keeps {a b : String} (h : a < b) : ofText a < ofText b := by
    rw [ofText_eq, ofText_eq]
    exact flatMap_utf8EncodeChar_lt h
  refine ⟨fun h => ?_, keeps⟩
  rcases lt_trichotomy a b with less | rfl | more
  · exact less
  · exact absurd h (List.lt_irrefl _)
  · exact absurd h (List.lt_asymm (keeps more))

/-! ## Sorting by texts -/

section

variable {α : Type} (key : α → String) {rows rows' : List α}

/-- No two rows have the same text, and each row comes before those with larger bytes. -/
theorem pairwise_mergeSort (once : (rows.map key).Nodup) :
    (rows.mergeSort fun a b => decide (key a ≤ key b)).Pairwise fun a b =>
      ofText (key a) < ofText (key b) := by
  have sorted : (rows.mergeSort fun a b => decide (key a ≤ key b)).Pairwise fun a b =>
      decide (key a ≤ key b) = true :=
    List.pairwise_mergeSort
      (fun a b c hab hbc => by
        simp only [decide_eq_true_eq] at hab hbc ⊢
        exact le_trans hab hbc)
      (fun a b => by simpa using le_total (key a) (key b)) _
  have keys : (rows.mergeSort fun a b => decide (key a ≤ key b)).Pairwise fun a b => key a ≠ key b :=
    List.pairwise_map.mp (((List.mergeSort_perm _ _).map key).nodup_iff.mpr once)
  refine (sorted.and keys).imp fun ⟨le, ne⟩ => ?_
  exact ofText_lt_ofText.mpr (lt_of_le_of_ne (of_decide_eq_true le) ne)

/-- The order in which the rows stood before does not show. -/
theorem mergeSort_eq_of_perm (once : (rows.map key).Nodup) (h : rows'.Perm rows) :
    (rows'.mergeSort fun a b => decide (key a ≤ key b)) =
      rows.mergeSort fun a b => decide (key a ≤ key b) := by
  have once' : (rows'.map key).Nodup := (h.map _).nodup_iff.mpr once
  have perm := (List.mergeSort_perm rows' fun a b => decide (key a ≤ key b)).trans
    (h.trans (List.mergeSort_perm rows fun a b => decide (key a ≤ key b)).symm)
  refine perm.eq_of_pairwise (fun a b _ _ less more => ?_) (pairwise_mergeSort key once')
    (pairwise_mergeSort key once)
  exact absurd more (List.lt_asymm less)

end

end Strongroom.Bytes
