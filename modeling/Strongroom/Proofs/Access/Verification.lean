import Strongroom.Proofs.Bytes.Digests
import Strongroom.Proofs.Vault.Actions
/-!
# Checking passwords

A password is accepted or refused on one bit, and this bit tells whether two digests are the same bytes: no
later byte hides an earlier difference, and lengths that differ are a mismatch.
-/

namespace Strongroom.Credentials

open Bytes

/-- Matching is equality.  Two texts match exactly if they are the same bytes, and so the same text.  The
gathered byte has the bits in which bytes that face each other differ, so that it is zero exactly if no place
differs; two texts do not match exactly if their lengths are not the same or some place differs.  A user who
is known is accepted exactly if the hash of the password is the one that is stored. -/
theorem isMatch_decides_equality (a b : String) :
    (isMatch (ofText a) (ofText b) = true ↔ ofText a = ofText b) ∧
    (ofText a = ofText b ↔ a = b) ∧
    (∀ bit, (gatherDifferences 0 (ofText a) (ofText b)).toNat.testBit bit = true ↔
      ∃ pair ∈ (ofText a).zip (ofText b), pair.1.toNat.testBit bit ≠ pair.2.toNat.testBit bit) ∧
    (gatherDifferences 0 (ofText a) (ofText b) = 0 ↔ ∀ place, ¬ DiffersAt (ofText a) (ofText b) place) ∧
    (isMatch (ofText a) (ofText b) = false ↔
      (ofText a).length ≠ (ofText b).length ∨ ∃ place, DiffersAt (ofText a) (ofText b) place) ∧
    ∀ (v : Vault) user password credential, v.registry.credential? user = some credential →
      hashPassword password credential.salt = a → credential.hash = b →
      (verify user password).runOn v =
        (if a = b then .ok () else .error (.authentication .invalidCredentials), v) := by
  refine ⟨isMatch_iff, ofText_injective.eq_iff, fun bit => ?_, ?_, ?_, ?_⟩
  · rw [testBit_gatherDifferences]
    simp
  · rw [gatherDifferences_eq_zero, eq_self, true_and]
  · rw [Bool.eq_false_iff, Ne, isMatch_iff, eq_iff_not_differsAt, Classical.not_and_iff_not_or_not,
      not_forall_not]
  · rintro v user password credential found rfl rfl
    rw [runOn_verify, found]
    dsimp only
    split <;> rfl

/-- The first user of a small vault, whose password is hashed with a salt. -/
def sampleKnown : Vault :=
  .sample (.maps ⟨[("ada", ⟨"ada", "00", hashPassword "Passw0rd" "00"⟩)], [], [], []⟩)

/-- Differences that are the same in every bit do not cancel. -/
theorem isMatch_decides_equality_swapped :
    sampleKnown.registry.credential? "ada" = some ⟨"ada", "00", hashPassword "Passw0rd" "00"⟩ ∧
      (verify "ada" "Passw0rd").runOn sampleKnown = (.ok (), sampleKnown) ∧
      hashPassword "passw0rD" "00" ≠ hashPassword "Passw0rd" "00" ∧
      (verify "ada" "passw0rD").runOn sampleKnown =
        (.error (.authentication .invalidCredentials), sampleKnown) ∧
      isMatch (ofText "ab") (ofText "ba") = false ∧ isMatch (ofText "abc") (ofText "ab") = false := by
  have found : sampleKnown.registry.credential? "ada" =
      some ⟨"ada", "00", hashPassword "Passw0rd" "00"⟩ := rfl
  have other : hashPassword "passw0rD" "00" ≠ hashPassword "Passw0rd" "00" := by decide +kernel
  obtain ⟨-, -, -, -, -, accepts⟩ :=
    isMatch_decides_equality (hashPassword "Passw0rd" "00") (hashPassword "Passw0rd" "00")
  obtain ⟨-, -, -, -, -, refuses⟩ :=
    isMatch_decides_equality (hashPassword "passw0rD" "00") (hashPassword "Passw0rd" "00")
  obtain ⟨-, -, -, -, swapped, -⟩ := isMatch_decides_equality "ab" "ba"
  obtain ⟨-, -, -, -, shorter, -⟩ := isMatch_decides_equality "abc" "ab"
  refine ⟨found, ?_, other, ?_, ?_, ?_⟩
  · exact (accepts _ _ _ _ found rfl rfl).trans (by rw [if_pos rfl])
  · exact (refuses _ _ _ _ found rfl rfl).trans (by rw [if_neg other])
  · exact swapped.mpr (.inr ⟨0, _, _, rfl, rfl, by decide⟩)
  · exact shorter.mpr (.inl (by decide))

end Strongroom.Credentials
