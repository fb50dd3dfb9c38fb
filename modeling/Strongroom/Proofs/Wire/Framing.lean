import Mathlib.Data.List.TakeWhile
import Strongroom.Proofs.Vault.Actions
import Strongroom.Wire.Connection
/-!
# Lines of a stream

A connection answers the lines of its stream one after the other.  In which chunks the bytes arrive does
not show, nor does it show that only the first bytes of a long line are looked at.
-/

namespace Strongroom.Connection

/-! ## Lines -/

/-- The lines of a stream, each with its newline.  What follows the last newline is a line too unless
nothing follows it. -/
def lines (stream : Bytes) : List Bytes :=
  let parts := stream.splitOn newline
  (parts.dropLast.map fun part => part ++ [newline]) ++
    parts.getLast?.toList.filter fun part => part != []

/-- A line without its newline. -/
def content (line : Bytes) : Bytes :=
  if line.getLast? = some newline then line.dropLast else line

theorem lines_nil : lines [] = [] := rfl

theorem content_append_newline (text : Bytes) : content (text ++ [newline]) = text := by
  simp [content]

section

variable {text : Bytes} (free : newline ∉ text)
include free

theorem lines_append_newline (rest : Bytes) :
    lines (text ++ newline :: rest) = (text ++ [newline]) :: lines rest := by
  have parts := List.splitOn_ne_nil newline rest
  simp only [lines, List.splitOn_append_cons_self_of_not_mem free]
  rw [List.dropLast_cons_of_ne_nil parts, List.getLast?_cons_of_ne_nil parts, List.map_cons]
  rfl

theorem lines_of_free (filled : text ≠ []) : lines text = [text] := by
  simp [lines, List.splitOn_eq_singleton free, filled]

theorem content_of_free : content text = text := by
  rw [content, if_neg]
  exact fun last => free (List.mem_of_getLast? last)

end

/-- No byte is lost and none is answered in two lines. -/
theorem flatten_lines (stream : Bytes) : (lines stream).flatten = stream := by
  by_cases h : newline ∈ stream
  · obtain ⟨text, rest, rfl, free⟩ := List.eq_append_cons_of_mem h
    rw [lines_append_newline free, List.flatten_cons, flatten_lines rest, List.append_assoc]
    rfl
  · by_cases empty : stream = []
    · rw [empty]
      rfl
    · rw [lines_of_free h empty, List.flatten_singleton]
termination_by stream.length

/-! ## Reading a line from chunks -/

section

variable {s rest : Bytes} {b : UInt8}

theorem cut_of_dropWhile (found : (s.dropWhile fun b => b != newline) = b :: rest) :
    b = newline ∧ newline ∉ (s.takeWhile fun b => b != newline) ∧
      s = (s.takeWhile fun b => b != newline) ++ newline :: rest := by
  have stop : b = newline := by
    have := List.head_dropWhile_not (fun b => b != newline) (l := s) (by simp [found])
    simpa [found] using this
  subst stop
  refine ⟨rfl, fun hm => by simpa using List.mem_takeWhile_imp hm, ?_⟩
  rw [← found, List.takeWhile_append_dropWhile]

theorem free_of_dropWhile (found : (s.dropWhile fun b => b != newline) = []) :
    newline ∉ s ∧ (s.takeWhile fun b => b != newline) = s := by
  have all := List.dropWhile_eq_nil_iff.mp found
  exact ⟨fun hm => by simpa using all newline hm, List.takeWhile_eq_self_iff.mpr all⟩

end

/-- What is taken ends with the first newline, or it has none and is as long as it may be or the last. -/
theorem takeLine_cases (limit : Nat) (chunks : List Bytes) :
    (∃ text, (takeLine limit chunks).1 = text ++ [newline] ∧ newline ∉ text ∧ text.length < limit) ∨
    newline ∉ (takeLine limit chunks).1 ∧ (takeLine limit chunks).1.length ≤ limit ∧
      ((takeLine limit chunks).1.length = limit ∨ (takeLine limit chunks).2.flatten = []) := by
  fun_induction takeLine limit chunks with
  | case1 => exact .inr ⟨List.not_mem_nil, Nat.zero_le _, .inr rfl⟩
  | case2 limit chunk chunks line b rest found =>
      obtain ⟨rfl, free, whole⟩ := cut_of_dropWhile found
      have bound : (line ++ newline :: rest).length ≤ limit :=
        whole ▸ List.length_take_le limit chunk
      rw [List.length_append, List.length_cons] at bound
      exact .inl ⟨line, rfl, free, by omega⟩
  | case3 limit chunk chunks line found fits =>
      obtain ⟨free, whole⟩ := free_of_dropWhile found
      have full : line.length = limit := by
        rw [← Nat.min_eq_left fits, ← List.length_take, ← whole]
      have clear : newline ∉ line := fun hm => free (whole ▸ hm)
      exact .inr ⟨clear, full.le, .inl full⟩
  | case4 limit chunk chunks line found short more rest taken ih =>
      have all : chunk.take limit = chunk := List.take_of_length_le (by omega)
      obtain ⟨free, whole⟩ := free_of_dropWhile (all ▸ found)
      have whole : line = chunk := (congrArg _ all).trans whole
      rw [taken] at ih
      simp only at ih ⊢
      rw [whole, List.length_append]
      rcases ih with ⟨text, rfl, clear, fits⟩ | ⟨clear, fits, last⟩
      · refine .inl ⟨chunk ++ text, (List.append_assoc ..).symm, by simp [free, clear], ?_⟩
        rw [List.length_append]
        omega
      · refine .inr ⟨by simp [free, clear], by omega, ?_⟩
        exact last.imp_left fun full => by omega

/-- What is passed over ends with the first newline or with the last byte. -/
theorem dropLine_cases (chunks : List Bytes) :
    ∃ skipped, newline ∉ skipped ∧
      (chunks.flatten = skipped ++ newline :: (dropLine chunks).flatten ∨
        chunks.flatten = skipped ∧ (dropLine chunks).flatten = []) := by
  fun_induction dropLine chunks with
  | case1 => exact ⟨[], List.not_mem_nil, .inr ⟨rfl, rfl⟩⟩
  | case2 chunk chunks b rest found =>
      obtain ⟨-, free, whole⟩ := cut_of_dropWhile found
      refine ⟨_, free, .inl ?_⟩
      rw [List.flatten_cons, List.flatten_cons]
      conv => lhs; rw [whole]
      simp
  | case3 chunk chunks found ih =>
      obtain ⟨skipped, free, rest⟩ := ih
      refine ⟨chunk ++ skipped, by simp [(free_of_dropWhile found).1, free], ?_⟩
      rw [List.flatten_cons]
      rcases rest with rest | ⟨rest, done⟩
      · exact .inl (by rw [rest, List.append_assoc])
      · exact .inr ⟨by rw [rest], done⟩

/-- A round reads the first line of what is left; of a line that is too long it reads so much that this
shows, and passes over what follows. -/
theorem round_cases (most : Nat) {chunks rest : List Bytes} {line : Bytes}
    (taken : takeLine (most + 1) chunks = (line, rest)) :
    line = [] ∧ lines chunks.flatten = [] ∨
    line ≠ [] ∧ (most < line.length ∧ line.getLast? ≠ some newline) ∧
      (∃ whole, lines chunks.flatten = whole :: lines (dropLine rest).flatten ∧
        most < (content whole).length) ∧
      (dropLine rest).flatten.length < chunks.flatten.length ∨
    line ≠ [] ∧ ¬ (most < line.length ∧ line.getLast? ≠ some newline) ∧
      lines chunks.flatten = line :: lines rest.flatten ∧ (content line).length ≤ most ∧
      rest.flatten.length < chunks.flatten.length := by
  have stream := takeLine_append (most + 1) chunks
  have read := takeLine_cases (most + 1) chunks
  rw [taken] at stream read
  simp only at stream read
  rw [← stream]
  rcases read with ⟨text, rfl, free, fits⟩ | ⟨free, fits, last⟩
  · refine .inr (.inr ⟨by simp, by simp, ?_, ?_, ?_⟩)
    · rw [List.append_assoc]
      exact lines_append_newline free rest.flatten
    · rw [content_append_newline]
      omega
    · simp only [List.length_append, List.length_singleton]
      omega
  by_cases empty : line = []
  · subst empty
    have done : rest.flatten = [] := last.resolve_left (by simp)
    exact .inl ⟨rfl, by rw [done, List.append_nil, lines_nil]⟩
  have filled : 0 < line.length := List.length_pos_iff.mpr empty
  by_cases full : line.length = most + 1
  · have unended : line.getLast? ≠ some newline := fun h => free (List.mem_of_getLast? h)
    obtain ⟨skipped, clear, left⟩ := dropLine_cases rest
    have whole : newline ∉ line ++ skipped := by simp [free, clear]
    refine .inr (.inl ⟨empty, ⟨by omega, unended⟩, ?_⟩)
    rcases left with left | ⟨left, done⟩
    · refine ⟨⟨line ++ skipped ++ [newline], ?_, ?_⟩, ?_⟩
      · rw [left, ← List.append_assoc]
        exact lines_append_newline whole _
      · rw [content_append_newline, List.length_append]
        omega
      · simp only [left, List.length_append, List.length_cons]
        omega
    · refine ⟨⟨line ++ skipped, ?_, ?_⟩, ?_⟩
      · rw [left, done, lines_nil]
        exact lines_of_free whole (by simp [empty])
      · rw [content_of_free whole, List.length_append]
        omega
      · simp only [left, done, List.length_append, List.length_nil]
        omega
  · have done : rest.flatten = [] := last.resolve_left full
    refine .inr (.inr ⟨empty, fun long => by omega, ?_, ?_, ?_⟩)
    · rw [done, List.append_nil, lines_nil]
      exact lines_of_free free empty
    · rw [content_of_free free]
      omega
    · simp only [done, List.length_append, List.length_nil]
      omega

/-! ## Answers -/

theorem trim_eq_nil {text : List Char} : Text.trim text = [] ↔ ∀ c ∈ text, Text.isBlank c = true := by
  rw [Text.trim, Text.trimEnd, List.reverse_eq_nil_iff, List.dropWhile_eq_nil_iff]
  simp only [List.mem_reverse]
  constructor
  · intro blank
    by_cases rest : text.dropWhile Text.isBlank = []
    · exact List.dropWhile_eq_nil_iff.mp rest
    · have first := List.head_dropWhile_not Text.isBlank rest
      rw [blank _ (List.head_mem rest)] at first
      cases first
  · exact fun blank c hm => blank c ((List.dropWhile_suffix _).mem hm)

/-- The answer to a line of a stream; a line of blanks has none. -/
def reply (maxBytes : UInt64) (v : Vault) (line : Bytes) : Option Response × Vault :=
  if maxBytes.toNat < (content line).length then (some (.error .badRequest "request too long"), v)
  else
    match Bytes.toText? line with
    | none => (some (.error .badRequest "request is not valid UTF-8"), v)
    | some text =>
      if text.toList.all Text.isBlank then (none, v)
      else
        match Request.parse text with
        | .error fault =>
          (some (.error .badRequest s!"malformed request: {fault.message}"), v)
        | .ok request => (some (v.dispatch request).1, (v.dispatch request).2)

/-- The answers to some lines, each given by the vault that the line before it left. -/
def replies (maxBytes : UInt64) : Vault → List Bytes → List Response × Vault
  | v, [] => ([], v)
  | v, line :: more =>
    let (response, v) := reply maxBytes v line
    let (responses, v) := replies maxBytes v more
    (response.toList ++ responses, v)

section

variable {maxBytes : UInt64} {line : Bytes}

theorem reply_of_long (long : maxBytes.toNat < (content line).length) (v : Vault) :
    reply maxBytes v line = (some tooLong, v) := by
  rw [reply, if_pos long]
  rfl

theorem reply_of_fits (fits : (content line).length ≤ maxBytes.toNat) (v : Vault) :
    reply maxBytes v line = answer v line := by
  rw [reply, if_neg (by omega), answer]
  cases Bytes.toText? line with
  | none => rfl
  | some text =>
      by_cases blank : Text.trim text.toList = []
      · simp only [if_pos blank, if_pos (List.all_eq_true.mpr (trim_eq_nil.mp blank))]
      · simp only [if_neg blank, if_neg (mt List.all_eq_true.mp (mt trim_eq_nil.mpr blank))]
        cases Request.parse text <;> rfl

end

theorem serveRounds_eq_replies {maxBytes : UInt64} (most : maxBytes.toNat + 1 < UInt64.size) {rounds : Nat}
    {chunks : List Bytes} (enough : chunks.flatten.length < rounds) (v : Vault) :
    serveRounds maxBytes rounds v chunks = replies maxBytes v (lines chunks.flatten) := by
  induction rounds generalizing v chunks with
  | zero => omega
  | succ rounds ih =>
      have limit : (readLimit maxBytes).toNat = maxBytes.toNat + 1 := by
        rw [readLimit, UInt64.toNat_add]
        exact Nat.mod_eq_of_lt most
      cases taken : takeLine (maxBytes.toNat + 1) chunks with
      | mk line rest =>
      rw [serveRounds, limit, taken]
      rcases round_cases maxBytes.toNat taken with
        ⟨empty, done⟩ | ⟨filled, long, ⟨whole, found, exceeds⟩, less⟩ | ⟨filled, short, found, fits, less⟩
      · simp only [if_pos empty, done, replies]
      · have rest := ih (less.trans_le (Nat.le_of_lt_succ enough)) v
        simp only [if_neg filled, if_pos long, found, replies, reply_of_long exceeds, rest]
        rfl
      · have rest := fun v => ih (less.trans_le (Nat.le_of_lt_succ enough)) v
        simp only [if_neg filled, if_neg short, found, replies, reply_of_fits fits, rest]

/-- The answers to a stream are the answers to its lines, each line being answered once and in its turn,
and the lines together are the stream. -/
theorem serve_eq_replies {maxBytes : UInt64} (most : maxBytes.toNat + 1 < UInt64.size) (v : Vault)
    (chunks : List Bytes) :
    serve maxBytes v chunks = replies maxBytes v (lines chunks.flatten) ∧
      (lines chunks.flatten).flatten = chunks.flatten :=
  ⟨serveRounds_eq_replies most (Nat.lt_succ_self _) v, flatten_lines _⟩

/-- Five lines in four chunks: a request of ten bytes, one of eleven, blanks, two bytes that are no text,
and a line that the stream breaks off. -/
def sampleChunks : List Bytes :=
  [Bytes.ofText "[\"pw", Bytes.ofText "d\",\"\"]\n[\"pwd\", \"",
    Bytes.ofText "\"]\n \r\n" ++ [0xC3], 0x28 :: newline :: Bytes.ofText "pwd"]

/-- Four answers, as blanks get none.  The fault of the broken line is told without its place, as `answer` tells
it. -/
theorem serve_eq_replies_sample :
    (10 : UInt64).toNat + 1 < UInt64.size ∧
      (serve 10 (.sample (.maps .empty)) sampleChunks).1 =
        [.error .authentication "authentication failed: missing session token",
          .error .badRequest "request too long", .error .badRequest "request is not valid UTF-8",
          .error .badRequest "malformed request: expected value"] := by
  have most : (10 : UInt64).toNat + 1 < UInt64.size := by decide
  have same := (serve_eq_replies most (.sample (.maps .empty)) sampleChunks).1
  exact ⟨most, (congrArg Prod.fst same).trans (by decide +kernel)⟩

end Strongroom.Connection
