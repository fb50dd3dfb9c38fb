import Mathlib.Data.List.Induction
import Mathlib.Data.Nat.Digits.Defs
import Strongroom.Proofs.Text.Fields
import Strongroom.Quota
/-!
# Usage reports

A report names a number of kilobytes in its first field.  It is accepted exactly if that field is a number
whose bytes fit, and what follows the field does not matter.
-/

namespace Strongroom

/-! ## Numbers -/

/-- The number that digits spell: the last of them counts ones, the one before it tens, and so on. -/
def numeral (digits : List Char) : Nat :=
  Nat.ofDigits 10 (digits.reverse.map fun c => c.toNat - '0'.toNat)

/-- A field that spells a number: digits with at most one plus sign in front of them. -/
inductive Counts : List Char → Nat → Prop
  | plain {digits : List Char} (filled : digits ≠ []) (all : ∀ c ∈ digits, c.isDigit = true) :
      Counts digits (numeral digits)
  | plus {digits : List Char} (filled : digits ≠ []) (all : ∀ c ∈ digits, c.isDigit = true) :
      Counts ('+' :: digits) (numeral digits)

theorem foldl_eq_numeral (digits : List Char) :
    digits.foldl (fun n c => 10 * n + (c.toNat - 48)) 0 = numeral digits := by
  -- from the end, where the ones are
  induction digits using List.reverseRecOn with
  | nil => rfl
  | append_singleton front last ih =>
      rw [List.foldl_append, ih, numeral, numeral, List.reverse_append]
      simp [Nat.ofDigits_cons, Nat.add_comm]

theorem decimalField?_plus (digits : List Char) :
    decimalField? ('+' :: digits) =
      if digits ≠ [] ∧ digits.all Char.isDigit = true then some (numeral digits) else none := by
  simp only [decimalField?, foldl_eq_numeral]

theorem decimalField?_plain {field : List Char} (unsigned : field.head? ≠ some '+') :
    decimalField? field =
      if field ≠ [] ∧ field.all Char.isDigit = true then some (numeral field) else none := by
  unfold decimalField?
  split
  · simp at unsigned
  · simp only [foldl_eq_numeral]

theorem head?_ne_plus {digits : List Char} (all : ∀ c ∈ digits, c.isDigit = true) :
    digits.head? ≠ some '+' := by
  intro signed
  exact absurd (all '+' (List.mem_of_head? signed)) (by decide)

theorem decimalField?_eq_some {field : List Char} {k : Nat} :
    decimalField? field = some k ↔ Counts field k := by
  constructor
  · intro h
    by_cases signed : field.head? = some '+'
    · obtain ⟨digits, rfl⟩ := List.head?_eq_some_iff.mp signed
      rw [decimalField?_plus] at h
      obtain ⟨⟨filled, all⟩, value⟩ := Option.ite_none_right_eq_some.mp h
      cases value
      exact .plus filled (List.all_eq_true.mp all)
    · rw [decimalField?_plain signed] at h
      obtain ⟨⟨filled, all⟩, value⟩ := Option.ite_none_right_eq_some.mp h
      cases value
      exact .plain filled (List.all_eq_true.mp all)
  · intro h
    cases h with
    | plain filled all =>
        rw [decimalField?_plain (head?_ne_plus all), if_pos ⟨filled, List.all_eq_true.mpr all⟩]
    | plus filled all => rw [decimalField?_plus, if_pos ⟨filled, List.all_eq_true.mpr all⟩]

theorem Counts.ne_nil {field : List Char} {k : Nat} (h : Counts field k) : field ≠ [] := by
  cases h with
  | plain filled all => exact filled
  | plus filled all => exact List.cons_ne_nil _ _

/-! ## Reports -/

/-- A report whose first field spells a number of kilobytes. -/
def Reports (output : String) (k : Nat) : Prop :=
  ∃ field, Text.FirstField output.toList field ∧ Counts field k

variable {output : String} {k : Nat}

theorem reports_iff :
    Reports output k ↔ decimalField? (Text.firstField output.toList) = some k := by
  constructor
  · rintro ⟨field, first, counts⟩
    rw [first.firstField_eq]
    exact decimalField?_eq_some.mpr counts
  · intro h
    have counts := decimalField?_eq_some.mp h
    exact ⟨_, Text.firstField_of_ne_nil counts.ne_nil, counts⟩

theorem Reports.usage_eq (h : Reports output k) (fits : k * 1000 < 2 ^ 64) :
    usageOfReport output = .ok (UInt64.ofNat (k * 1000)) := by
  have size : UInt64.size = 2 ^ 64 := rfl
  simp only [usageOfReport, reports_iff.mp h]
  rw [if_neg (by omega), if_neg (by omega)]

theorem Reports.usage_of_large (h : Reports output k) (word : k < 2 ^ 64) (large : 2 ^ 64 ≤ k * 1000) :
    usageOfReport output = .error (.diskUsage s!"du reported {k} KiB") := by
  have size : UInt64.size = 2 ^ 64 := rfl
  simp only [usageOfReport, reports_iff.mp h]
  rw [if_neg (by omega), if_pos (by omega)]

/-- A report is not understood if its first field is no number, or one that is too large. -/
theorem usage_of_unread (unread : ∀ k, Reports output k → 2 ^ 64 ≤ k) :
    usageOfReport output =
      .error (.diskUsage ("unexpected du output: " ++ String.ofList (Text.quoted output.toList))) := by
  have size : UInt64.size = 2 ^ 64 := rfl
  unfold usageOfReport
  split
  · rfl
  · rename_i k found
    have large := unread k (reports_iff.mpr found)
    rw [if_pos (by omega)]
    rfl

theorem usage_eq_ok {n : UInt64} :
    usageOfReport output = .ok n ↔ ∃ k, Reports output k ∧ k * 1000 < 2 ^ 64 ∧ n.toNat = k * 1000 := by
  constructor
  · intro h
    by_cases read : ∃ k, Reports output k ∧ k < 2 ^ 64
    · obtain ⟨k, reported, word⟩ := read
      by_cases fits : k * 1000 < 2 ^ 64
      · rw [reported.usage_eq fits] at h
        cases h
        exact ⟨k, reported, fits, UInt64.toNat_ofNat_of_lt fits⟩
      · rw [reported.usage_of_large word (Nat.not_lt.mp fits)] at h
        cases h
    · rw [usage_of_unread fun k reported => Nat.not_lt.mp fun word => read ⟨k, reported, word⟩] at h
      cases h
  · rintro ⟨k, reported, fits, bytes⟩
    rw [reported.usage_eq fits, ← bytes, UInt64.ofNat_toNat]

/-- A report is accepted exactly if its first field is a number of kilobytes whose bytes fit into sixty-four
bits, and then it stands for those bytes; every other report is a failure that shows what was reported.
Nothing but the first field counts. -/
theorem usageOfReport_decides (output : String) :
    (∀ n, usageOfReport output = .ok n ↔
      ∃ field k, Text.FirstField output.toList field ∧ Counts field k ∧ k * 1000 < 2 ^ 64 ∧
        n.toNat = k * 1000) ∧
    (∀ field k, Text.FirstField output.toList field → Counts field k → k < 2 ^ 64 → 2 ^ 64 ≤ k * 1000 →
      usageOfReport output = .error (.diskUsage s!"du reported {k} KiB")) ∧
    ((∀ field k, Text.FirstField output.toList field → Counts field k → 2 ^ 64 ≤ k) →
      usageOfReport output =
        .error (.diskUsage ("unexpected du output: " ++ String.ofList (Text.quoted output.toList)))) ∧
    ∀ other field n, Text.FirstField output.toList field → Text.FirstField other.toList field →
      usageOfReport output = .ok n → usageOfReport other = .ok n := by
  refine ⟨fun n => ?_, fun field k first counts => ?_, fun unread => ?_, ?_⟩
  · rw [usage_eq_ok]
    constructor
    · rintro ⟨k, ⟨field, first, counts⟩, fits, bytes⟩
      exact ⟨field, k, first, counts, fits, bytes⟩
    · rintro ⟨field, k, first, counts, fits, bytes⟩
      exact ⟨k, ⟨field, first, counts⟩, fits, bytes⟩
  · exact Reports.usage_of_large ⟨field, first, counts⟩
  · exact usage_of_unread fun k ⟨field, first, counts⟩ => unread field k first counts
  · intro other field n here there accepted
    obtain ⟨k, ⟨field', first, counts⟩, fits, bytes⟩ := usage_eq_ok.mp accepted
    obtain rfl : field' = field := first.firstField_eq.symm.trans here.firstField_eq
    exact usage_eq_ok.mpr ⟨k, ⟨field', there, counts⟩, fits, bytes⟩

/-- Blanks of two kinds, a sign, leading zeros, and the last number of kilobytes whose bytes fit. -/
def sampleReport : String := "\u2003\n+0018446744073709551\t/srv"

theorem usageOfReport_decides_last :
    Text.FirstField sampleReport.toList "+0018446744073709551".toList ∧
      usageOfReport sampleReport = .ok 18446744073709551000 ∧
      usageOfReport "+0018446744073709551" = .ok 18446744073709551000 ∧
      usageOfReport "18446744073709552\t/srv" =
        .error (.diskUsage "du reported 18446744073709552 KiB") ∧
      usageOfReport "-3\t/srv" = .error (.diskUsage "unexpected du output: \"-3\\t/srv\"") := by
  have first : Text.FirstField sampleReport.toList "+0018446744073709551".toList :=
    (Text.firstField_eq_iff (by decide)).mp (by decide)
  have counts : Counts "+0018446744073709551".toList 18446744073709551 :=
    decimalField?_eq_some.mp (by decide)
  have alone : Text.FirstField "+0018446744073709551".toList "+0018446744073709551".toList :=
    (Text.firstField_eq_iff (by decide)).mp (by decide)
  have beyond : Text.FirstField "18446744073709552\t/srv".toList "18446744073709552".toList :=
    (Text.firstField_eq_iff (by decide)).mp (by decide)
  obtain ⟨accepts, -, -, only⟩ := usageOfReport_decides sampleReport
  have large := (usageOfReport_decides "18446744073709552\t/srv").2.1
  have unread := (usageOfReport_decides "-3\t/srv").2.2.1
  have accepted : usageOfReport sampleReport = .ok 18446744073709551000 :=
    (accepts _).mpr ⟨_, _, first, counts, by decide, by decide⟩
  refine ⟨first, accepted, only _ _ _ first alone accepted, ?_, ?_⟩
  · have many : Counts "18446744073709552".toList 18446744073709552 :=
      decimalField?_eq_some.mp (by decide)
    exact (large _ _ beyond many (by decide) (by decide)).trans (by decide +kernel)
  · refine (unread fun field k first counts => ?_).trans (by decide +kernel)
    have none : decimalField? (Text.firstField "-3\t/srv".toList) = none := by decide
    rw [first.firstField_eq, decimalField?_eq_some.mpr counts] at none
    cases none

end Strongroom
