import Mathlib.Data.List.Basic
import Mathlib.Tactic.SplitIfs
import Strongroom.Bytes.Base64
import Strongroom.Proofs.Bytes.Digests
import Strongroom.Proofs.Outcome
import Strongroom.Proofs.Text.ByteOrder
/-!
# Base64 is exact

Reading accepts what writing produces and nothing else, so that every text in base64 stands for one
sequence of bytes and every sequence of bytes has one text.
-/

namespace Strongroom.Base64

/-! ## Symbols -/

/-- A symbol stands for a number exactly if it is the symbol of that number. -/
theorem valueOf?_eq_some {code : UInt8} {value : Nat} :
    valueOf? code = some value ↔ value < 64 ∧ code = symbolOf value := by
  have written : ∀ v < 64, valueOf? (symbolOf v) = some v := by decide
  have code_eq {n : Nat} (h : code.toNat = n) : code = UInt8.ofNat n := by
    rw [← h, UInt8.ofNat_toNat]
  constructor
  · intro h
    -- Of a code in one of the five ranges, the number's symbol is found in the same range.
    rw [valueOf?] at h
    split_ifs at h <;> obtain rfl := Option.some.inj h <;> refine ⟨by omega, ?_⟩ <;>
      rw [symbolOf] <;> split_ifs <;> first | omega | exact code_eq (by omega)
  · rintro ⟨bound, rfl⟩
    exact written value bound

theorem readSymbol_eq_ok {offset : Nat} {code : UInt8} {value : Nat} :
    readSymbol offset code = .ok value ↔ value < 64 ∧ code = symbolOf value := by
  rw [← valueOf?_eq_some, readSymbol]
  cases valueOf? code <;> simp

theorem symbolOf_ne_fill {value : Nat} (bound : value < 64) : symbolOf value ≠ fill := by
  have all : ∀ v < 64, symbolOf v ≠ fill := by decide
  exact all value bound

/-! ## Writing by groups -/

/-- The four symbols of three bytes. -/
def quartet (a b c : UInt8) : Bytes :=
  let n := (a.toNat * 256 + b.toNat) * 256 + c.toNat
  [symbolOf (n / 262144), symbolOf (n / 4096 % 64), symbolOf (n / 64 % 64), symbolOf (n % 64)]

/-- The three bytes of the numbers that four symbols stand for. -/
def trio (p q r s : Nat) : Bytes :=
  let n := ((p * 64 + q) * 64 + r) * 64 + s
  [UInt8.ofNat (n / 65536), UInt8.ofNat (n / 256), UInt8.ofNat n]

theorem encodeOnto_append (done more bytes : Bytes) :
    encodeOnto (done ++ more) bytes = encodeOnto done bytes ++ more := by
  fun_induction encodeOnto done bytes with
  | case1 done => rfl
  | case2 done a n => rfl
  | case3 done a b n => rfl
  | case4 done a b c rest n ih => exact ih

theorem encode_group (a b c : UInt8) (rest : Bytes) :
    encode (a :: b :: c :: rest) = quartet a b c ++ encode rest := by
  have apart := encodeOnto_append [] (quartet a b c).reverse rest
  rw [List.nil_append] at apart
  rw [encode, encodeOnto]
  exact (congrArg List.reverse apart).trans (by simp [encode])

theorem encode_eq_nil {bytes : Bytes} : encode bytes = [] ↔ bytes = [] := by
  match bytes with
  | [] => simp [encode, encodeOnto]
  | [a] => simp [encode, encodeOnto]
  | [a, b] => simp [encode, encodeOnto]
  | a :: b :: c :: rest => simp [encode_group, quartet]

/-- Symbols of numbers below sixty-four are the same exactly if the numbers are. -/
theorem symbolOf_inj {m n : Nat} (hm : m < 64) (hn : n < 64) : symbolOf m = symbolOf n ↔ m = n := by
  refine ⟨fun h => ?_, congrArg symbolOf⟩
  have found := valueOf?_eq_some.mpr ⟨hm, rfl⟩
  rw [h, valueOf?_eq_some.mpr ⟨hn, rfl⟩] at found
  exact (Option.some.inj found).symm

section

variable {a b c : UInt8} {p q r s : Nat} (hp : p < 64) (hq : q < 64)
include hp hq

/-- Three bytes have the same twenty-four bits as their four symbols. -/
theorem quartet_eq_iff (hr : r < 64) (hs : s < 64) :
    quartet a b c = [symbolOf p, symbolOf q, symbolOf r, symbolOf s] ↔
      [a, b, c] = trio p q r s := by
  have ha := a.toNat_lt
  have hb := b.toNat_lt
  have hc := c.toNat_lt
  simp only [quartet, trio, List.cons.injEq, and_true]
  rw [symbolOf_inj (by omega) hp, symbolOf_inj (by omega) hq, symbolOf_inj (by omega) hr,
    symbolOf_inj (by omega) hs]
  simp only [← UInt8.toNat_inj, UInt8.toNat_ofNat']
  omega

/-- Two bytes at the end leave two bits of their third symbol unused. -/
theorem encode_pair_eq_iff (hr : r < 64) :
    encode [a, b] = [symbolOf p, symbolOf q, symbolOf r, fill] ↔
      ((p * 64 + q) * 64 + r) % 4 = 0 ∧
        [a, b] = [UInt8.ofNat (((p * 64 + q) * 64 + r) / 1024),
          UInt8.ofNat (((p * 64 + q) * 64 + r) / 4)] := by
  have ha := a.toNat_lt
  have hb := b.toNat_lt
  simp only [encode, encodeOnto, List.reverse_cons, List.reverse_nil, List.nil_append,
    List.cons_append, List.cons.injEq, and_true]
  rw [symbolOf_inj (by omega) hp, symbolOf_inj (by omega) hq, symbolOf_inj (by omega) hr]
  simp only [← UInt8.toNat_inj, UInt8.toNat_ofNat']
  omega

/-- One byte at the end leaves four bits of its second symbol unused. -/
theorem encode_single_eq_iff :
    encode [a] = [symbolOf p, symbolOf q, fill, fill] ↔
      (p * 64 + q) % 16 = 0 ∧ [a] = [UInt8.ofNat ((p * 64 + q) / 16)] := by
  have ha := a.toNat_lt
  simp only [encode, encodeOnto, List.reverse_cons, List.reverse_nil, List.nil_append,
    List.cons_append, List.cons.injEq, and_true]
  rw [symbolOf_inj (by omega) hp, symbolOf_inj (by omega) hq]
  simp only [← UInt8.toNat_inj, UInt8.toNat_ofNat']
  omega

end

/-! ## Reading the last group -/

section

variable {start index : Nat} {group last : Group} {code : UInt8} {codes rest bytes : Bytes}

/-- A code of the last group is a fill character behind at least two symbols, or a symbol that no fill
character stands in front of. -/
theorem collectGroup_cons (h : collectGroup start index group (code :: rest) = .ok last) :
    (code = fill ∧ 2 ≤ index ∧ ∃ place, collectGroup start (index + 1)
      ⟨group.values, group.last, group.fills + 1, place⟩ rest = .ok last) ∨
    ∃ value, value < 64 ∧ code = symbolOf value ∧ group.fills = 0 ∧
      collectGroup start (index + 1) ⟨group.values ++ [value], code, group.fills, group.firstFill⟩ rest =
        .ok last := by
  rw [collectGroup] at h
  by_cases filled : code = fill
  · rw [if_pos filled] at h
    by_cases early : index < 2
    · rw [if_pos early] at h
      cases h
    · rw [if_neg early] at h
      exact .inl ⟨filled, Nat.le_of_not_lt early, _, h⟩
  · rw [if_neg filled] at h
    by_cases started : group.fills > 0
    · rw [if_pos started] at h
      cases h
    · rw [if_neg started] at h
      cases found : valueOf? code with
      | none => simp [found] at h
      | some value =>
          obtain ⟨bound, he⟩ := valueOf?_eq_some.mp found
          rw [found] at h
          exact .inr ⟨value, bound, he, Nat.eq_zero_of_not_pos started, h⟩

theorem collectGroup_length (h : collectGroup start index group codes = .ok last) :
    last.fills + last.values.length = group.fills + group.values.length + codes.length := by
  induction codes generalizing index group with
  | nil =>
      obtain rfl := Except.ok.inj h
      rfl
  | cons code rest ih =>
      rcases collectGroup_cons h with ⟨-, -, place, h⟩ | ⟨value, -, -, -, h⟩
      · have := ih h
        simp only [List.length_cons] at this ⊢
        omega
      · have := ih h
        simp only [List.length_append, List.length_cons, List.length_nil] at this ⊢
        omega

/-- A last group of four codes holds two, three or four symbols. -/
theorem collectGroup_four {a b c d : UInt8}
    (h : collectGroup start 0 ⟨[], 0, 0, 0⟩ [a, b, c, d] = .ok group) :
    ∃ p q, p < 64 ∧ q < 64 ∧
      ([a, b, c, d] = [symbolOf p, symbolOf q, fill, fill] ∨
        ∃ r, r < 64 ∧ ([a, b, c, d] = [symbolOf p, symbolOf q, symbolOf r, fill] ∨
          ∃ s, s < 64 ∧ [a, b, c, d] = [symbolOf p, symbolOf q, symbolOf r, symbolOf s])) := by
  obtain ⟨-, early, -⟩ | ⟨p, hp, rfl, -, h⟩ := collectGroup_cons h
  · omega
  obtain ⟨-, early, -⟩ | ⟨q, hq, rfl, -, h⟩ := collectGroup_cons h
  · omega
  refine ⟨p, q, hp, hq, ?_⟩
  obtain ⟨rfl, -, place, h⟩ | ⟨r, hr, rfl, -, h⟩ := collectGroup_cons h
  · obtain ⟨rfl, -, place, h⟩ | ⟨_, -, -, started, -⟩ := collectGroup_cons h
    · exact .inl rfl
    · simp at started
  · refine .inr ⟨r, hr, ?_⟩
    obtain ⟨rfl, -, place, h⟩ | ⟨s, hs, rfl, -, h⟩ := collectGroup_cons h
    · exact .inl rfl
    · exact .inr ⟨s, hs, rfl⟩

theorem readGroup_length (h : readGroup start codes = .ok bytes) :
    2 ≤ codes.length ∧ codes.length % 4 = 0 ∧
      ∃ group, collectGroup start 0 ⟨[], 0, 0, 0⟩ codes = .ok group := by
  obtain ⟨group, collected, h⟩ := bind_eq_ok.mp h
  have length := collectGroup_length collected
  simp only [List.length_nil, Nat.add_zero, Nat.zero_add] at length
  by_cases few : group.values.length < 2
  · rw [if_pos few] at h
    cases h
  · rw [if_neg few] at h
    by_cases uneven : (group.fills + group.values.length) % 4 ≠ 0
    · rw [if_pos uneven] at h
      cases h
    · exact ⟨by omega, by omega, group, collected⟩

end

section

variable {start p q r s : Nat} {bytes : Bytes} (hp : p < 64) (hq : q < 64)
include hp hq

theorem readGroup_two_eq_ok :
    readGroup start [symbolOf p, symbolOf q, fill, fill] = .ok bytes ↔
      (p * 64 + q) % 16 = 0 ∧ [UInt8.ofNat ((p * 64 + q) / 16)] = bytes := by
  by_cases unused : (p * 64 + q) % 16 = 0 <;>
    simp [readGroup, collectGroup, symbolOf_ne_fill hp, symbolOf_ne_fill hq,
      valueOf?_eq_some.mpr ⟨hp, rfl⟩, valueOf?_eq_some.mpr ⟨hq, rfl⟩, unused]

theorem readGroup_three_eq_ok (hr : r < 64) :
    readGroup start [symbolOf p, symbolOf q, symbolOf r, fill] = .ok bytes ↔
      ((p * 64 + q) * 64 + r) % 4 = 0 ∧
        [UInt8.ofNat (((p * 64 + q) * 64 + r) / 1024),
          UInt8.ofNat (((p * 64 + q) * 64 + r) / 4)] = bytes := by
  by_cases unused : ((p * 64 + q) * 64 + r) % 4 = 0 <;>
    simp [readGroup, collectGroup, symbolOf_ne_fill hp, symbolOf_ne_fill hq, symbolOf_ne_fill hr,
      valueOf?_eq_some.mpr ⟨hp, rfl⟩, valueOf?_eq_some.mpr ⟨hq, rfl⟩, valueOf?_eq_some.mpr ⟨hr, rfl⟩,
      unused]

theorem readGroup_four_eq_ok (hr : r < 64) (hs : s < 64) :
    readGroup start [symbolOf p, symbolOf q, symbolOf r, symbolOf s] = .ok bytes ↔
      trio p q r s = bytes := by
  simp [readGroup, trio, collectGroup, symbolOf_ne_fill hp, symbolOf_ne_fill hq, symbolOf_ne_fill hr,
    symbolOf_ne_fill hs, valueOf?_eq_some.mpr ⟨hp, rfl⟩, valueOf?_eq_some.mpr ⟨hq, rfl⟩,
    valueOf?_eq_some.mpr ⟨hr, rfl⟩, valueOf?_eq_some.mpr ⟨hs, rfl⟩]

end

/-! ## Reading exactly what is written -/

theorem encode_triple (a b c : UInt8) : encode [a, b, c] = quartet a b c := by
  rw [encode_group]
  exact List.append_nil _

theorem length_encode_mod (bytes : Bytes) : (encode bytes).length % 4 = 0 := by
  match bytes with
  | [] => rfl
  | [a] => simp [encode, encodeOnto]
  | [a, b] => simp [encode, encodeOnto]
  | a :: b :: c :: rest =>
      have := length_encode_mod rest
      rw [encode_group, List.length_append, quartet]
      simp only [List.length_cons, List.length_nil]
      omega

theorem readGroup_eq_ok {start : Nat} {codes bytes : Bytes} (short : codes.length ≤ 4) :
    readGroup start codes = .ok bytes ↔ codes ≠ [] ∧ codes = encode bytes := by
  constructor
  · intro h
    obtain ⟨few, even, group, collected⟩ := readGroup_length h
    obtain ⟨a, b, c, d, rfl⟩ : ∃ a b c d, codes = [a, b, c, d] := by
      match codes, short, few, even with
      | [a, b, c, d], _, _, _ => exact ⟨a, b, c, d, rfl⟩
    refine ⟨List.cons_ne_nil _ _, ?_⟩
    obtain ⟨p, q, hp, hq, same | ⟨r, hr, same | ⟨s, hs, same⟩⟩⟩ := collectGroup_four collected
    · rw [same] at h ⊢
      obtain ⟨unused, rfl⟩ := (readGroup_two_eq_ok hp hq).mp h
      exact ((encode_single_eq_iff hp hq).mpr ⟨unused, rfl⟩).symm
    · rw [same] at h ⊢
      obtain ⟨unused, rfl⟩ := (readGroup_three_eq_ok hp hq hr).mp h
      exact ((encode_pair_eq_iff hp hq hr).mpr ⟨unused, rfl⟩).symm
    · rw [same] at h ⊢
      obtain rfl := (readGroup_four_eq_ok hp hq hr hs).mp h
      exact ((encode_triple ..).trans ((quartet_eq_iff hp hq hr hs).mpr rfl)).symm
  · rintro ⟨filled, rfl⟩
    match bytes with
    | [] => exact absurd rfl filled
    | [a] =>
        have ha := a.toNat_lt
        have written : encode [a] = [symbolOf (a.toNat / 4), symbolOf (a.toNat % 4 * 16), fill, fill] :=
          rfl
        obtain ⟨unused, same⟩ := (encode_single_eq_iff (by omega) (by omega)).mp written
        rw [written]
        exact (readGroup_two_eq_ok (by omega) (by omega)).mpr ⟨unused, same.symm⟩
    | [a, b] =>
        have ha := a.toNat_lt
        have hb := b.toNat_lt
        have written : encode [a, b] =
            [symbolOf ((a.toNat * 256 + b.toNat) / 1024), symbolOf ((a.toNat * 256 + b.toNat) / 16 % 64),
              symbolOf ((a.toNat * 256 + b.toNat) % 16 * 4), fill] := rfl
        obtain ⟨unused, same⟩ := (encode_pair_eq_iff (by omega) (by omega) (by omega)).mp written
        rw [written]
        exact (readGroup_three_eq_ok (by omega) (by omega) (by omega)).mpr ⟨unused, same.symm⟩
    | [a, b, c] =>
        have ha := a.toNat_lt
        have hb := b.toNat_lt
        have hc := c.toNat_lt
        have written : quartet a b c = _ := rfl
        have same := (quartet_eq_iff (by omega) (by omega) (by omega) (by omega)).mp written
        rw [encode_triple, written]
        exact (readGroup_four_eq_ok (by omega) (by omega) (by omega) (by omega)).mpr same.symm
    | a :: b :: c :: d :: rest =>
        have filled := encode_eq_nil.not.mpr (List.cons_ne_nil d rest)
        have := List.length_pos_iff.mpr filled
        rw [encode_group, List.length_append, quartet] at short
        simp only [List.length_cons, List.length_nil] at short
        omega

/-- What follows whole groups stands for what follows their bytes. -/
theorem readGroups_eq_ok {start : Nat} {done codes bytes : Bytes} :
    readGroups start done codes = .ok bytes ↔
      codes ≠ [] ∧ ∃ more, codes = encode more ∧ bytes = done.reverse ++ more := by
  fun_induction readGroups start done codes generalizing bytes with
  | case1 start done a b c d e rest ih =>
      simp only [bind_eq_ok, readSymbol_eq_ok, ih]
      constructor
      · rintro ⟨p, ⟨hp, rfl⟩, q, ⟨hq, rfl⟩, r, ⟨hr, rfl⟩, s, ⟨hs, rfl⟩, -, more, he, rfl⟩
        have group := (quartet_eq_iff hp hq hr hs).mpr rfl
        refine ⟨List.cons_ne_nil _ _, trio p q r s ++ more, ?_, by simp [trio]⟩
        rw [he]
        exact ((encode_group ..).trans (congrArg (· ++ encode more) group)).symm
      · rintro ⟨-, more, he, rfl⟩
        match more with
        | [] => cases he
        | [_] => cases he
        | [_, _] => cases he
        | x :: y :: z :: more =>
            have hx := x.toNat_lt
            have hy := y.toNat_lt
            have hz := z.toNat_lt
            have written : quartet x y z = _ := rfl
            have same := (quartet_eq_iff (by omega) (by omega) (by omega) (by omega)).mp written
            rw [encode_group] at he
            simp only [quartet, List.cons_append, List.nil_append, List.cons.injEq] at he
            obtain ⟨ha, hb, hc, hd, he⟩ := he
            refine ⟨_, ⟨by omega, ha⟩, _, ⟨by omega, hb⟩, _, ⟨by omega, hc⟩, _, ⟨by omega, hd⟩,
              List.cons_ne_nil _ _, more, he, ?_⟩
            have whole : x :: y :: z :: more = [x, y, z] ++ more := rfl
            rw [whole, same]
            simp [trio]
  | case2 start done codes whole =>
      have short : codes.length ≤ 4 := by
        match codes, whole with
        | [], _ => simp
        | [_], _ => simp
        | [_, _], _ => simp
        | [_, _, _], _ => simp
        | [_, _, _, _], _ => simp
        | a :: b :: c :: d :: e :: rest, whole => exact absurd rfl (whole a b c d e rest)
      simp only [bind_eq_ok, readGroup_eq_ok short]
      constructor
      · rintro ⟨more, ⟨filled, he⟩, h⟩
        exact ⟨filled, more, he, (Except.ok.inj h).symm⟩
      · rintro ⟨filled, more, he, rfl⟩
        exact ⟨more, ⟨filled, he⟩, rfl⟩

theorem decode_eq_ok {codes bytes : Bytes} : decode codes = .ok bytes ↔ codes = encode bytes := by
  have even := length_encode_mod bytes
  unfold decode
  split_ifs with odd empty
  · -- a code too many is refused whatever it is
    have other : codes ≠ encode bytes := fun he => by
      rw [← he] at even
      omega
    have filled : codes ≠ [] := fun he => by simp [he] at odd
    have refused : readGroups 0 [] codes ≠ .ok bytes := fun h => by
      obtain ⟨-, more, he, rfl⟩ := readGroups_eq_ok.mp h
      exact other he
    rw [List.getLast?_eq_some_getLast filled]
    simp only
    split_ifs <;> simp [other, refused]
  · rw [empty, eq_comm (a := []), encode_eq_nil]
    exact ⟨fun h => (Except.ok.inj h).symm, fun h => h ▸ rfl⟩
  · rw [readGroups_eq_ok]
    simp [empty]

/-! ## Texts -/

theorem symbolOf_lt (n : Nat) : (symbolOf n).toNat < 128 := by
  unfold symbolOf
  split_ifs <;> simp only [UInt8.toNat_ofNat', UInt8.reduceToNat] <;> omega

theorem encode_lt (bytes : Bytes) : ∀ code ∈ encode bytes, code.toNat < 128 := by
  have filled : fill.toNat < 128 := by decide
  match bytes with
  | [] => simp [encode, encodeOnto]
  | [a] => simp [encode, encodeOnto, symbolOf_lt, filled]
  | [a, b] => simp [encode, encodeOnto, symbolOf_lt, filled]
  | a :: b :: c :: rest =>
      rw [encode_group, List.forall_mem_append]
      exact ⟨by simp [quartet, symbolOf_lt], encode_lt rest⟩

/-- A code below 128 is the only byte of its character. -/
theorem utf8EncodeChar_ofNat {code : UInt8} (h : code.toNat < 128) :
    String.utf8EncodeChar (Char.ofNat code.toNat) = [code] := by
  have value : (Char.ofNat code.toNat).val.toNat = code.toNat := by
    rw [Char.ofNat, dif_pos (.inl (by omega))]
    rfl
  simp [String.utf8EncodeChar, value, show code.toNat ≤ 127 by omega]

theorem flatMap_utf8EncodeChar {codes : Bytes} (below : ∀ code ∈ codes, code.toNat < 128) :
    (codes.flatMap fun code => String.utf8EncodeChar (Char.ofNat code.toNat)) = codes := by
  induction codes with
  | nil => rfl
  | cons code codes ih =>
      obtain ⟨here, below⟩ := List.forall_mem_cons.mp below
      rw [List.flatMap_cons, utf8EncodeChar_ofNat here, ih below]
      rfl

theorem ofText_toText (bytes : Bytes) : Bytes.ofText (toText bytes) = encode bytes := by
  rw [Bytes.ofText_eq, toText, String.toList_ofList, List.flatMap_map]
  exact flatMap_utf8EncodeChar (encode_lt bytes)

/-- A text is read as some bytes exactly if it is the text of these bytes. -/
theorem ofText_eq_ok {text : String} {bytes : Bytes} :
    ofText text = .ok bytes ↔ text = toText bytes := by
  rw [ofText, decode_eq_ok, ← ofText_toText, Bytes.ofText_injective.eq_iff]

theorem toText_injective : Function.Injective toText := by
  intro a b h
  have read := ofText_eq_ok.mpr h
  rw [ofText_eq_ok.mpr rfl] at read
  exact Except.ok.inj read

end Strongroom.Base64
