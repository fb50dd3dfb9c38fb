import Mathlib.Tactic.SplitIfs
import Strongroom.Json.Reader
import Strongroom.Proofs.Outcome
/-!
# What is read

What is read as a number is one, so that a text starts with a quotation mark, a record with a brace, and
everything else with something else.  The members of a record are read one after the other.
-/

namespace Strongroom.Json

/-! ## Numbers -/

/-- Whether a value is a number. -/
def IsNumber : Datum → Prop
  | .integer _ => True
  | .real _ => True
  | _ => False

section

variable {negative : Bool} {significand : Nat} {scale : Int} {d : Datum} {rest cs : List Char}

theorem isNumber_of_realNumber (h : (realNumber negative significand scale).map (·, cs) = .ok (d, rest)) :
    IsNumber d := by
  unfold realNumber at h
  split at h <;> cases h
  trivial

theorem isNumber_wholeNumber : IsNumber (wholeNumber negative significand) := by
  unfold wholeNumber
  split_ifs <;> trivial

theorem isNumber_of_exponentValue {below : Bool}
    (h : exponentValue negative significand scale below cs = .ok (d, rest)) : IsNumber d := by
  unfold exponentValue at h
  split at h
  · cases h
  · split at h
    · exact isNumber_of_realNumber h
    · cases h

theorem isNumber_of_exponentPart (h : exponentPart negative significand scale cs = .ok (d, rest)) :
    IsNumber d := by
  unfold exponentPart at h
  split at h <;> exact isNumber_of_exponentValue h

theorem isNumber_of_afterFraction (h : afterFraction negative significand scale cs = .ok (d, rest)) :
    IsNumber d := by
  unfold afterFraction at h
  split at h
  · exact isNumber_of_exponentPart h
  · exact isNumber_of_exponentPart h
  · exact isNumber_of_realNumber h

theorem isNumber_of_fractionDigits {places : Nat}
    (h : fractionDigits negative significand scale places cs = .ok (d, rest)) : IsNumber d := by
  fun_induction fractionDigits negative significand scale places cs with
  | case1 => exact isNumber_of_afterFraction h
  | case2 _ _ _ _ _ _ _ ih => exact ih h
  | case3 => cases h
  | case4 => exact isNumber_of_afterFraction h
  | case5 => cases h
  | case6 => exact isNumber_of_afterFraction h

theorem isNumber_of_afterLong {dropped : Nat}
    (h : afterLong negative significand dropped cs = .ok (d, rest)) : IsNumber d := by
  unfold afterLong at h
  split at h
  · exact isNumber_of_fractionDigits h
  · exact isNumber_of_afterFraction h

theorem isNumber_of_longDigits {dropped : Nat}
    (h : longDigits negative significand dropped cs = .ok (d, rest)) : IsNumber d := by
  fun_induction longDigits negative significand dropped cs with
  | case1 _ _ _ _ ih => exact ih h
  | case2 => exact isNumber_of_afterLong h
  | case3 => exact isNumber_of_afterLong h

theorem isNumber_of_afterWhole (h : afterWhole negative significand cs = .ok (d, rest)) :
    IsNumber d := by
  unfold afterWhole at h
  split at h
  · exact isNumber_of_fractionDigits h
  · exact isNumber_of_exponentPart h
  · exact isNumber_of_exponentPart h
  · cases h
    exact isNumber_wholeNumber

theorem isNumber_of_wholeDigits (h : wholeDigits negative significand cs = .ok (d, rest)) :
    IsNumber d := by
  fun_induction wholeDigits negative significand cs with
  | case1 => exact isNumber_of_longDigits h
  | case2 _ _ _ _ _ _ ih => exact ih h
  | case3 => exact isNumber_of_afterWhole h
  | case4 => exact isNumber_of_afterWhole h

/-- What is read as a number is one. -/
theorem isNumber_of_readNumber (h : readNumber negative cs = .ok (d, rest)) : IsNumber d := by
  unfold readNumber at h
  split at h
  · cases h
  · split_ifs at h
    · split at h
      · split_ifs at h
        · cases h
        · exact isNumber_of_afterWhole h
      · exact isNumber_of_afterWhole h
    · exact isNumber_of_wholeDigits h
    · cases h

end

/-! ## Texts and records -/

/-- Only what starts with a quotation mark is read as a text, and only what starts with a brace as a
record. -/
theorem readValueWith_cases {parts : Option (Reader Datum)} {cs rest : List Char} {d : Datum}
    (h : readValueWith parts cs = .ok (d, rest)) :
    (∃ more text, skipSpace cs = '"' :: more ∧ readString more = .ok (text, rest) ∧ d = .text text) ∨
    (∃ value more members, skipSpace cs = '\x7b' :: more ∧ parts = some value ∧
      readMembers (anyMember value) (more.length + 1) true [] more = .ok (members, rest) ∧
      d = .record members.reverse) ∨
    (∃ c more, skipSpace cs = c :: more ∧ c ≠ '"' ∧ c ≠ '\x7b') ∧ (∀ text, d ≠ .text text) ∧
      ∀ members, d ≠ .record members := by
  unfold readValueWith at h
  split at h
  case h_1 => cases h
  case h_2 more he =>
    obtain ⟨_, -, h⟩ := bind_eq_ok.mp h
    cases h
    exact .inr (.inr ⟨⟨_, _, he, by decide, by decide⟩, nofun, nofun⟩)
  case h_3 more he =>
    obtain ⟨_, -, h⟩ := bind_eq_ok.mp h
    cases h
    exact .inr (.inr ⟨⟨_, _, he, by decide, by decide⟩, nofun, nofun⟩)
  case h_4 more he =>
    obtain ⟨_, -, h⟩ := bind_eq_ok.mp h
    cases h
    exact .inr (.inr ⟨⟨_, _, he, by decide, by decide⟩, nofun, nofun⟩)
  case h_5 more he =>
    have number := isNumber_of_readNumber h
    refine .inr (.inr ⟨⟨_, _, he, by decide, by decide⟩, ?_, ?_⟩)
    · rintro text rfl
      exact number
    · rintro members rfl
      exact number
  case h_6 more he =>
    obtain ⟨⟨text, left⟩, read, h⟩ := bind_eq_ok.mp h
    cases h
    exact .inl ⟨more, text, he, read, rfl⟩
  case h_7 more he =>
    split at h
    · cases h
    · obtain ⟨_, -, h⟩ := bind_eq_ok.mp h
      cases h
      exact .inr (.inr ⟨⟨_, _, he, by decide, by decide⟩, nofun, nofun⟩)
  case h_8 more he =>
    split at h
    · cases h
    · obtain ⟨⟨members, left⟩, read, h⟩ := bind_eq_ok.mp h
      cases h
      exact .inr (.inl ⟨_, more, members, he, rfl, read, rfl⟩)
  case h_9 c more _ _ _ _ quote _ brace he =>
    split_ifs at h
    · have number := isNumber_of_readNumber h
      refine .inr (.inr ⟨⟨c, more, he, ?_, ?_⟩, ?_, ?_⟩)
      · rintro rfl
        exact quote rfl
      · rintro rfl
        exact brace rfl
      · rintro text rfl
        exact number
      · rintro members rfl
        exact number
    · cases h

/-- A value of another form is refused, whatever it is. -/
theorem refuse_ne_ok {α : Type} {expected : String} {cs : List Char} {value : α} :
    refuse expected cs ≠ .ok value := by
  unfold refuse
  split
  · nofun
  · nofun
  · intro h
    obtain ⟨_, -, h⟩ := bind_eq_ok.mp h
    cases h

theorem readValue_eq (depth : Nat) : ∃ parts, readValue depth = readValueWith parts := by
  cases depth <;> exact ⟨_, rfl⟩

/-- A value that is asked to be a text is that text, or it is refused. -/
theorem readText_eq_ok {depth : Nat} {expected : String} {cs rest left : List Char} {d : Datum}
    {text : String} (h : readValue depth cs = .ok (d, rest)) :
    readText expected cs = .ok (text, left) ↔ d = .text text ∧ left = rest := by
  obtain ⟨parts, he⟩ := readValue_eq depth
  rw [he] at h
  rcases readValueWith_cases h with ⟨more, value, start, read, rfl⟩ |
    ⟨value, more, members, start, -, -, rfl⟩ | ⟨⟨c, more, start, quote, brace⟩, other, -⟩
  · simp [readText, start, read, eq_comm]
  · simp [readText, start, refuse_ne_ok]
  · simp [readText, start, quote, refuse_ne_ok, other]

/-! ## Members -/

section

variable {σ : Type} {member : σ → String → Reader σ} {s last : σ} {fuel : Nat} {first : Bool}
  {cs rest : List Char}

/-- A loop over members is at the end of the object, or it reads a member and goes on. -/
theorem readMembers_eq_ok :
    readMembers member (fuel + 1) first s cs = .ok (last, rest) ↔
      nextKey first cs = .ok (none, rest) ∧ last = s ∨
      ∃ key left next left', nextKey first cs = .ok (some key, left) ∧
        member s key left = .ok (next, left') ∧
        readMembers member fuel false next left' = .ok (last, rest) := by
  cases found : nextKey first cs with
  | error fault => simp [readMembers, found]
  | ok result =>
      obtain ⟨key?, left⟩ := result
      cases key? with
      | none => simp [readMembers, found, eq_comm, and_comm]
      | some key =>
          simp only [readMembers, found, ok_bind, bind_eq_ok]
          constructor
          · rintro ⟨⟨next, left'⟩, read, h⟩
            exact .inr ⟨key, left, next, left', rfl, read, h⟩
          · rintro (⟨h, -⟩ | ⟨key, left, next, left', h, read, more⟩)
            · cases h
            · cases h
              exact ⟨_, read, more⟩

theorem anyMember_eq_ok {value : Reader Datum} {members next : List (String × Datum)} {key : String} :
    anyMember value members key cs = .ok (next, rest) ↔
      ∃ start d, readColon cs = .ok start ∧ value start = .ok (d, rest) ∧ next = (key, d) :: members := by
  simp only [anyMember, bind_eq_ok]
  constructor
  · rintro ⟨start, colon, ⟨d, left⟩, read, h⟩
    cases h
    exact ⟨start, d, colon, read, rfl⟩
  · rintro ⟨start, d, colon, read, rfl⟩
    exact ⟨start, colon, ⟨d, rest⟩, read, rfl⟩

/-- The members that were read before stay. -/
theorem suffix_of_readMembers {value : Reader Datum} {before all : List (String × Datum)}
    (h : readMembers (anyMember value) fuel first before cs = .ok (all, rest)) : before <:+ all := by
  induction fuel generalizing first before cs with
  | zero => cases h
  | succ fuel ih =>
      rcases readMembers_eq_ok.mp h with ⟨-, rfl⟩ | ⟨key, left, next, left', -, read, h⟩
      · exact List.suffix_refl _
      · obtain ⟨_, d, -, -, rfl⟩ := anyMember_eq_ok.mp read
        exact (List.suffix_cons _ _).trans (ih h)

end

end Strongroom.Json
