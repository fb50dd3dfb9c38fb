import Mathlib.Tactic.SplitIfs
import Strongroom.Json.Reader
import Strongroom.Json.Writer
import Strongroom.Proofs.Outcome
import Strongroom.Text.Blank
/-!
# What is written reads back

A value without numbers that is written as JSON is read back from the front of any text, and no
newline is written.  The loops over items and members read what is written for them whatever they
read the parts as.
-/

namespace Strongroom.Json

/-! ## Strings -/

section

variable (seen rest : List Char)

theorem hexValue?_escapeDigit {n : Nat} (h : n < 16) : hexValue? (escapeDigit n) = some n := by
  have all : ∀ n < 16, hexValue? (escapeDigit n) = some n := by decide
  exact all n h

theorem readStringFrom_short {e d : Char} (short : shortEscape? e = some d) (other : e ≠ 'u') :
    readStringFrom .plain seen ('\\' :: e :: rest) = readStringFrom .plain (d :: seen) rest := by
  simp [readStringFrom, short, other]

/-- A control character comes back from the digits of its number. -/
theorem readStringFrom_control {c : Char} (control : c.toNat < 0x20) :
    readStringFrom .plain seen
        ('\\' :: 'u' :: '0' :: '0' :: escapeDigit (c.toNat / 16) :: escapeDigit (c.toNat % 16) ::
          rest) =
      readStringFrom .plain (c :: seen) rest := by
  have zero : hexValue? '0' = some 0 := by decide
  have high := hexValue?_escapeDigit (n := c.toNat / 16) (by omega)
  have low := hexValue?_escapeDigit (n := c.toNat % 16) (by omega)
  have whole : 16 * (c.toNat / 16) + c.toNat % 16 = c.toNat := by omega
  have trailing : isTrailing c.toNat = false := by
    simp only [isTrailing, Bool.and_eq_false_iff, decide_eq_false_iff_not]
    omega
  have leading : isLeading c.toNat = false := by
    simp only [isLeading, Bool.and_eq_false_iff, decide_eq_false_iff_not]
    omega
  have complete : completeDigits c.toNat none = .ok (.plain, some c) := by
    simp [completeDigits, trailing, leading, Char.ofNat_toNat]
  simp [readStringFrom, zero, high, low, whole, complete]

/-- Each character is read back from what is written for it. -/
theorem readStringFrom_writeChar (c : Char) :
    readStringFrom .plain seen (writeChar c ++ rest) = readStringFrom .plain (c :: seen) rest := by
  unfold writeChar
  split_ifs with quote slash back tab newline feed ret control
  · subst quote
    exact readStringFrom_short seen rest rfl (by decide)
  · subst slash
    exact readStringFrom_short seen rest rfl (by decide)
  · subst back
    exact readStringFrom_short seen rest rfl (by decide)
  · subst tab
    exact readStringFrom_short seen rest rfl (by decide)
  · subst newline
    exact readStringFrom_short seen rest rfl (by decide)
  · subst feed
    exact readStringFrom_short seen rest rfl (by decide)
  · subst ret
    exact readStringFrom_short seen rest rfl (by decide)
  · exact readStringFrom_control seen rest control
  · simp [readStringFrom, quote, slash, control]

theorem readStringFrom_flatMap (text : List Char) :
    readStringFrom .plain seen (text.flatMap writeChar ++ '"' :: rest) =
      .ok (seen.reverse ++ text, rest) := by
  induction text generalizing seen with
  | nil => simp [readStringFrom]
  | cons c text ih =>
      rw [List.flatMap_cons, List.append_assoc, readStringFrom_writeChar, ih]
      simp

theorem readString_flatMap (text : String) :
    readString (text.toList.flatMap writeChar ++ '"' :: rest) = .ok (text, rest) := by
  simp [readString, readStringFrom_flatMap]

theorem writeString_append (text : String) :
    writeString text ++ rest = '"' :: (text.toList.flatMap writeChar ++ '"' :: rest) := by
  simp [writeString]

end

/-! ## Where values start -/

/-- A reader takes this value off the front of any text that starts so. -/
def Reads {α : Type} (reader : Reader α) (text : List Char) (value : α) : Prop :=
  ∀ rest, reader (text ++ rest) = .ok (value, rest)

/-- A value without numbers whose lists and objects are nested at most so deeply. -/
inductive Wordy : Nat → Datum → Prop
  | null {depth : Nat} : Wordy depth .null
  | bool {depth : Nat} {value : Bool} : Wordy depth (.bool value)
  | text {depth : Nat} {value : String} : Wordy depth (.text value)
  | list {depth : Nat} {items : List Datum} (parts : ∀ item ∈ items, Wordy depth item) :
      Wordy (depth + 1) (.list items)
  | record {depth : Nat} {members : List (String × Datum)}
      (parts : ∀ member ∈ members, Wordy depth member.2) : Wordy (depth + 1) (.record members)

/-- A text whose first character may start a value. -/
def Starts (text : List Char) : Prop :=
  ∃ c rest, text = c :: rest ∧ isSpace c = false ∧ c ≠ ',' ∧ c ≠ ']'

theorem skipSpace_cons {c : Char} (solid : isSpace c = false) (rest : List Char) :
    skipSpace (c :: rest) = c :: rest := by
  simp [skipSpace, solid]

theorem Wordy.starts {depth : Nat} {d : Datum} (h : Wordy depth d) : Starts (write d) := by
  cases h with
  | null => exact ⟨_, _, rfl, by decide⟩
  | @bool _ value => cases value <;> exact ⟨_, _, rfl, by decide⟩
  | text => exact ⟨_, _, rfl, by decide⟩
  | list => exact ⟨_, _, by rw [write], by decide⟩
  | record => exact ⟨_, _, by rw [write], by decide⟩

/-! ## Lists -/

/-- What is written behind an item that these items follow. -/
def moreItems : List Datum → List Char
  | [] => [']']
  | d :: items => ',' :: writeItems (d :: items)

theorem writeItems_cons (d : Datum) (items : List Datum) :
    writeItems (d :: items) = write d ++ moreItems items := by
  cases items <;> simp [writeItems, moreItems]

theorem length_le_writeItems (items : List Datum) : items.length ≤ (writeItems items).length := by
  induction items with
  | nil => exact Nat.zero_le _
  | cons d items ih =>
      cases items with
      | nil => simp [writeItems]
      | cons e items =>
          rw [writeItems_cons, moreItems]
          simp only [List.length_append, List.length_cons] at ih ⊢
          omega

section

variable {text : List Char} (rest : List Char)

theorem nextItem_first (h : Starts text) :
    nextItem true (text ++ rest) = .ok (some (text ++ rest), []) := by
  obtain ⟨c, more, rfl, solid, comma, bracket⟩ := h
  simp [nextItem, skipSpace_cons solid]

theorem nextItem_later (h : Starts text) :
    nextItem false (',' :: (text ++ rest)) = .ok (some (text ++ rest), []) := by
  obtain ⟨c, more, rfl, solid, comma, bracket⟩ := h
  have mark : isSpace ',' = false := by decide
  simp [nextItem, skipSpace_cons solid, skipSpace_cons mark, bracket]

theorem nextItem_end (first : Bool) : nextItem first (']' :: rest) = .ok (none, rest) := by
  have mark : isSpace ']' = false := by decide
  simp [nextItem, skipSpace_cons mark]

end

section

variable {α : Type} {item : Reader α} {toDatum : α → Datum} {values : List α} {fuel : Nat}

theorem readItems_more (starts : ∀ x ∈ values, Starts (write (toDatum x)))
    (reads : ∀ x ∈ values, Reads item (write (toDatum x)) x) (enough : values.length < fuel)
    (done : List α) (rest : List Char) :
    readItems item fuel false done (moreItems (values.map toDatum) ++ rest) =
      .ok (done.reverse ++ values, rest) := by
  induction values generalizing fuel done with
  | nil =>
      obtain ⟨fuel, rfl⟩ := Nat.exists_eq_add_one.mpr enough
      simp [moreItems, readItems, nextItem_end]
  | cons x values ih =>
      obtain ⟨fuel, rfl⟩ := Nat.exists_eq_add_one.mpr (Nat.zero_lt_of_lt enough)
      obtain ⟨startsHere, starts⟩ := List.forall_mem_cons.mp starts
      obtain ⟨readsHere, reads⟩ := List.forall_mem_cons.mp reads
      have next := nextItem_later (moreItems (values.map toDatum) ++ rest) startsHere
      have more := ih starts reads (by simpa using enough) (x :: done)
      rw [List.map_cons, moreItems, writeItems_cons, List.cons_append, List.append_assoc, readItems,
        next]
      simp [readsHere _, more]

/-- The items of a list are read back one by one. -/
theorem readItems_write (starts : ∀ x ∈ values, Starts (write (toDatum x)))
    (reads : ∀ x ∈ values, Reads item (write (toDatum x)) x) (enough : values.length < fuel)
    (rest : List Char) :
    readItems item fuel true [] (writeItems (values.map toDatum) ++ rest) = .ok (values, rest) := by
  obtain ⟨fuel, rfl⟩ := Nat.exists_eq_add_one.mpr (Nat.zero_lt_of_lt enough)
  cases values with
  | nil => simp [writeItems, readItems, nextItem_end]
  | cons x values =>
      obtain ⟨startsHere, starts⟩ := List.forall_mem_cons.mp starts
      obtain ⟨readsHere, reads⟩ := List.forall_mem_cons.mp reads
      have next := nextItem_first (moreItems (values.map toDatum) ++ rest) startsHere
      have more := readItems_more starts reads (by simpa using enough) [x] rest
      rw [List.map_cons, writeItems_cons, List.append_assoc, readItems, next]
      simp [readsHere _, more]

end

/-! ## Objects -/

/-- What is written behind a member that these members follow. -/
def moreMembers : List (String × Datum) → List Char
  | [] => ['\x7d']
  | member :: members => ',' :: writeMembers (member :: members)

theorem writeMembers_cons (key : String) (d : Datum) (members : List (String × Datum)) :
    writeMembers ((key, d) :: members) =
      writeString key ++ ':' :: (write d ++ moreMembers members) := by
  cases members <;> simp [writeMembers, moreMembers]

theorem length_le_writeMembers (members : List (String × Datum)) :
    members.length ≤ (writeMembers members).length := by
  induction members with
  | nil => exact Nat.zero_le _
  | cons member members ih =>
      obtain ⟨key, d⟩ := member
      simp only [writeMembers_cons, List.length_append, List.length_cons]
      cases members with
      | nil =>
          simp only [List.length_nil]
          omega
      | cons other members =>
          simp only [moreMembers, List.length_cons] at ih ⊢
          omega

section

variable (rest : List Char)

theorem nextKey_first (key : String) :
    nextKey true (writeString key ++ rest) = .ok (some key, rest) := by
  have mark : isSpace '"' = false := by decide
  simp [writeString_append, nextKey, skipSpace_cons mark, readString_flatMap]

theorem nextKey_later (key : String) :
    nextKey false (',' :: (writeString key ++ rest)) = .ok (some key, rest) := by
  have mark : isSpace '"' = false := by decide
  have comma : isSpace ',' = false := by decide
  simp [writeString_append, nextKey, skipSpace_cons mark, skipSpace_cons comma, readString_flatMap]

theorem nextKey_end (first : Bool) : nextKey first ('\x7d' :: rest) = .ok (none, rest) := by
  have mark : isSpace '\x7d' = false := by decide
  simp [nextKey, skipSpace_cons mark]

theorem readColon_cons : readColon (':' :: rest) = .ok rest := by
  have mark : isSpace ':' = false := by decide
  simp [readColon, skipSpace_cons mark]

end

section

variable {σ : Type} {member : σ → String → Reader σ} {s last : σ}
  {members : List (String × Datum)} {fuel : Nat}

/-- The members of an object take a loop over members from one state to another one. -/
inductive Fills (member : σ → String → Reader σ) : σ → List (String × Datum) → σ → Prop
  | nil {s : σ} : Fills member s [] s
  | cons {s next last : σ} {key : String} {d : Datum} {members : List (String × Datum)}
      (reads : Reads (member s key) (':' :: write d) next) (others : Fills member next members last) :
      Fills member s ((key, d) :: members) last

theorem Fills.more (h : Fills member s members last) (enough : members.length < fuel)
    (rest : List Char) :
    readMembers member fuel false s (moreMembers members ++ rest) = .ok (last, rest) := by
  induction h generalizing fuel with
  | nil =>
      obtain ⟨fuel, rfl⟩ := Nat.exists_eq_add_one.mpr enough
      simp [moreMembers, readMembers, nextKey_end]
  | @cons s next last key d members reads others ih =>
      obtain ⟨fuel, rfl⟩ := Nat.exists_eq_add_one.mpr (Nat.zero_lt_of_lt enough)
      have start := nextKey_later (':' :: (write d ++ (moreMembers members ++ rest))) key
      have read := reads (moreMembers members ++ rest)
      rw [List.cons_append] at read
      have more := @ih fuel (by simpa using enough)
      rw [moreMembers, writeMembers_cons, List.cons_append, List.append_assoc, List.cons_append,
        List.append_assoc, readMembers, start]
      simp [read, more]

/-- The members of an object are read back one by one. -/
theorem Fills.readMembers (h : Fills member s members last) (enough : members.length < fuel)
    (rest : List Char) :
    Json.readMembers member fuel true s (writeMembers members ++ rest) = .ok (last, rest) := by
  obtain ⟨fuel, rfl⟩ := Nat.exists_eq_add_one.mpr (Nat.zero_lt_of_lt enough)
  cases h with
  | nil => simp [writeMembers, Json.readMembers, nextKey_end]
  | @cons _ next _ key d members reads others =>
      have start := nextKey_first (':' :: (write d ++ (moreMembers members ++ rest))) key
      have read := reads (moreMembers members ++ rest)
      rw [List.cons_append] at read
      have fewer : members.length < fuel := by simpa using enough
      have more := others.more fewer rest
      simp [writeMembers_cons, Json.readMembers, start, read, more]

end

/-! ## Values -/

theorem fills_anyMember {value : Reader Datum} {members : List (String × Datum)}
    (reads : ∀ member ∈ members, Reads value (write member.2) member.2)
    (before : List (String × Datum)) :
    Fills (anyMember value) before members (members.reverse ++ before) := by
  induction members generalizing before with
  | nil => exact .nil
  | cons member members ih =>
      obtain ⟨readsHere, reads⟩ := List.forall_mem_cons.mp reads
      have others := ih reads (member :: before)
      rw [List.reverse_cons, List.append_assoc]
      exact .cons (fun rest => by simp [anyMember, readColon_cons, readsHere _]) others

/-- A value without numbers is read back. -/
theorem Wordy.reads {depth : Nat} {d : Datum} (h : Wordy depth d) :
    Reads (readValue depth) (write d) d := by
  induction h with
  | @null depth =>
      intro rest
      cases depth <;> simp [write, readValue, readValueWith, skipSpace, isSpace, readWord]
  | @bool depth value =>
      intro rest
      cases depth <;> cases value <;>
        simp [write, readValue, readValueWith, skipSpace, isSpace, readWord]
  | @text depth value =>
      intro rest
      have mark : isSpace '"' = false := by decide
      rw [write, writeString_append]
      cases depth <;> simp [readValue, readValueWith, skipSpace_cons mark, readString_flatMap]
  | @list depth items parts ih =>
      intro rest
      have mark : isSpace '[' = false := by decide
      have enough : items.length < (writeItems items).length + rest.length + 1 := by
        have := length_le_writeItems items
        omega
      have starts : ∀ item ∈ items, Starts (write (id item)) := fun d hd => (parts d hd).starts
      have read := readItems_write starts ih enough rest
      rw [List.map_id] at read
      rw [write, List.cons_append]
      simp [readValue, readValueWith, skipSpace_cons mark, read]
  | @record depth members parts ih =>
      intro rest
      have mark : isSpace '\x7b' = false := by decide
      have enough : members.length < (writeMembers members).length + rest.length + 1 := by
        have := length_le_writeMembers members
        omega
      have read := (fills_anyMember ih []).readMembers enough rest
      rw [write, List.cons_append]
      simp [readValue, readValueWith, skipSpace_cons mark, read]

theorem parse_write {d : Datum} (h : Wordy nestingLimit d) : parse (write d) = .ok d := by
  have read := h.reads []
  rw [List.append_nil] at read
  simp [parse, read, readEnd, skipSpace]

/-! ## Newlines -/

theorem newline_not_mem_writeChar (c : Char) : '\n' ∉ writeChar c := by
  have digit : ∀ n < 16, '\n' ≠ escapeDigit n := by decide
  by_cases control : c.toNat < 0x20
  · have high := digit (c.toNat / 16) (by omega)
    have low := digit (c.toNat % 16) (by omega)
    unfold writeChar
    split_ifs <;> simp [high, low]
  · have other : '\n' ≠ c := by
      rintro rfl
      exact control (by decide)
    unfold writeChar
    split_ifs <;> simp [other]

theorem newline_not_mem_writeString (text : String) : '\n' ∉ writeString text := by
  simp [writeString, newline_not_mem_writeChar]

theorem newline_not_mem_writeItems {items : List Datum} (h : ∀ item ∈ items, '\n' ∉ write item) :
    '\n' ∉ writeItems items := by
  induction items with
  | nil => decide
  | cons d items ih =>
      obtain ⟨here, others⟩ := List.forall_mem_cons.mp h
      have more := ih others
      rw [writeItems_cons, List.mem_append, not_or]
      refine ⟨here, ?_⟩
      cases items with
      | nil => decide
      | cons e items => exact List.not_mem_cons_of_ne_of_not_mem (by decide) more

theorem newline_not_mem_writeMembers {members : List (String × Datum)}
    (h : ∀ member ∈ members, '\n' ∉ write member.2) : '\n' ∉ writeMembers members := by
  induction members with
  | nil => decide
  | cons member members ih =>
      obtain ⟨here, others⟩ := List.forall_mem_cons.mp h
      have more := ih others
      rw [writeMembers_cons, List.mem_append, not_or]
      refine ⟨newline_not_mem_writeString _, List.not_mem_cons_of_ne_of_not_mem (by decide) ?_⟩
      rw [List.mem_append, not_or]
      refine ⟨here, ?_⟩
      cases members with
      | nil => decide
      | cons other members => exact List.not_mem_cons_of_ne_of_not_mem (by decide) more

/-- A value without numbers is written on one line. -/
theorem Wordy.newline_not_mem {depth : Nat} {d : Datum} (h : Wordy depth d) : '\n' ∉ write d := by
  induction h with
  | null => decide
  | @bool _ value => cases value <;> decide
  | text => exact newline_not_mem_writeString _
  | @list _ items _ ih =>
      rw [write]
      exact List.not_mem_cons_of_ne_of_not_mem (by decide) (newline_not_mem_writeItems ih)
  | @record _ members _ ih =>
      rw [write]
      exact List.not_mem_cons_of_ne_of_not_mem (by decide) (newline_not_mem_writeMembers ih)

/-! ## The end of an object -/

theorem writeMembers_concat (members : List (String × Datum)) :
    ∃ front, writeMembers members = front ++ ['\x7d'] := by
  induction members with
  | nil => exact ⟨[], rfl⟩
  | cons member members ih =>
      obtain ⟨key, d⟩ := member
      obtain ⟨front, he⟩ := ih
      rw [writeMembers_cons]
      cases members with
      | nil => exact ⟨writeString key ++ ':' :: write d, by simp [moreMembers]⟩
      | cons other members =>
          exact ⟨writeString key ++ ':' :: (write d ++ ',' :: front), by simp [moreMembers, he]⟩

/-- An object ends in no blank. -/
theorem trimEnd_write_record (members : List (String × Datum)) :
    Text.trimEnd (write (.record members)) = write (.record members) := by
  obtain ⟨front, he⟩ := writeMembers_concat members
  have solid : Text.isBlank '\x7d' = false := by decide
  rw [write, he, Text.trimEnd]
  simp [solid]

/-! ## Parts of known form -/

theorem reads_text (expected value : String) :
    Reads (readText expected) (write (.text value)) value := by
  intro rest
  have mark : isSpace '"' = false := by decide
  simp [readText, write, writeString_append, skipSpace_cons mark, readString_flatMap]

theorem reads_bool (value : Bool) : Reads readBool (write (.bool value)) value := by
  intro rest
  cases value <;> simp [readBool, write, skipSpace, isSpace, readWord]

section

variable {α : Type} {known : List String} {bare : String → Except Fault α} {payload : String → Reader α}
  {name : String} {value : α}

/-- A choice that is written as its bare name. -/
theorem reads_choice_bare (offered : name ∈ known) (h : bare name = .ok value) :
    Reads (readChoice known bare payload) (write (.text name)) value := by
  intro rest
  have mark : isSpace '"' = false := by decide
  have text := reads_text "variant identifier" name rest
  rw [write, writeString_append] at text
  simp [readChoice, write, writeString_append, skipSpace_cons mark, readVariant, text, liftMismatch,
    Datum.asVariant, offered, h]

/-- A choice that is written as an object with its payload. -/
theorem reads_choice_payload {d : Datum} (offered : name ∈ known)
    (h : Reads (payload name) (write d) value) :
    Reads (readChoice known bare payload) (write (.record [(name, d)])) value := by
  intro rest
  have mark : isSpace '\x7b' = false := by decide
  have close : isSpace '\x7d' = false := by decide
  have text := reads_text "variant identifier" name (':' :: (write d ++ '\x7d' :: rest))
  rw [write] at text
  simp [readChoice, write, writeMembers_cons, moreMembers, skipSpace_cons mark, skipSpace_cons close,
    readVariant, text, liftMismatch, Datum.asVariant, offered, readColon_cons, h _]

end

end Strongroom.Json
