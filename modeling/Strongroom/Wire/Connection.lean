import Strongroom.Vault.Dispatch
import Strongroom.Wire.RequestReader
/-!
# Connections

A client sends lines and is answered line by line.  The bytes arrive in chunks that need not end
where lines end.  A line that is too long is passed over as a whole and answered with a refusal.
-/

namespace Strongroom.Connection

/-- The byte that ends a line. -/
def newline : UInt8 := 10

/-! ## Cutting lines off chunks -/

/-- At most `limit` bytes up to and with the first newline, and the chunks that are left. -/
def takeLine : Nat → List Bytes → Bytes × List Bytes
  | _, [] => ([], [])
  | limit, chunk :: chunks =>
    let line := (chunk.take limit).takeWhile fun b => b != newline
    match (chunk.take limit).dropWhile fun b => b != newline with
    | b :: _ => (line ++ [b], chunk.drop (line.length + 1) :: chunks)
    | [] =>
      if limit ≤ chunk.length then (line, chunk.drop limit :: chunks)
      else
        let (more, rest) := takeLine (limit - chunk.length) chunks
        (line ++ more, rest)

/-- Nothing is lost: the bytes taken and the bytes left are the bytes there were. -/
theorem takeLine_append (limit : Nat) (chunks : List Bytes) :
    (takeLine limit chunks).1 ++ (takeLine limit chunks).2.flatten = chunks.flatten := by
  fun_induction takeLine limit chunks with
  | case1 => rfl
  | case2 limit chunk chunks line b rest found =>
    have taken : chunk.take limit = line ++ b :: rest := by
      rw [← found]
      exact (List.takeWhile_append_dropWhile (p := fun b => b != newline)).symm
    have whole : chunk = line ++ b :: (rest ++ chunk.drop limit) := by
      rw [← List.cons_append, ← List.append_assoc, ← taken, List.take_append_drop]
    have left : chunk.drop (line.length + 1) = rest ++ chunk.drop limit := by
      conv => lhs; rw [whole]
      rw [List.drop_append]
      simp
    simp only [List.flatten_cons, left]
    conv => rhs; rw [whole]
    simp
  | case3 limit chunk chunks line found fits =>
    have taken : line = chunk.take limit := by
      rw [← List.append_nil line, ← found]
      exact List.takeWhile_append_dropWhile
    simp [taken, ← List.append_assoc]
  | case4 limit chunk chunks line found short more rest taken ih =>
    have whole : line = chunk := by
      rw [← List.append_nil line, ← found]
      exact List.takeWhile_append_dropWhile.trans (List.take_of_length_le (by omega))
    rw [taken] at ih
    simp only [List.flatten_cons, List.append_assoc, ih, whole]

/-- The chunks after the first newline. -/
def dropLine : List Bytes → List Bytes
  | [] => []
  | chunk :: chunks =>
    match chunk.dropWhile fun b => b != newline with
    | _ :: rest => rest :: chunks
    | [] => dropLine chunks

/-- The number of bytes in some chunks. -/
def byteCount (chunks : List Bytes) : Nat :=
  chunks.flatten.length

/-! ## Answers -/

/-- A refusal of a line that is no request. -/
def refusal (reason : String) : Response :=
  .error .badRequest reason

/-- The refusal of a line that is too long. -/
def tooLong : Response := refusal "request too long"

/-- The answer to one line; a blank line has none.  The refusal of a line that is no request ends with the text
of the fault, and the place in the line, which a server tells after it, is left out. -/
def answer (v : Vault) (line : Bytes) : Option Response × Vault :=
  match Bytes.toText? line with
  | none => (some (refusal "request is not valid UTF-8"), v)
  | some text =>
    if Text.trim text.toList = [] then (none, v)
    else
      match Request.parse text with
      | .error fault => (some (refusal s!"malformed request: {fault.message}"), v)
      | .ok request =>
        let (response, v) := v.dispatch request
        (some response, v)

/-- How many bytes of a line are looked at: one more than a request may have. -/
def readLimit (maxBytes : UInt64) : UInt64 := maxBytes + 1

/-- Answers the lines in some chunks, at most `rounds` of them.  A round that reads nothing is the
last one. -/
def serveRounds (maxBytes : UInt64) : Nat → Vault → List Bytes → List Response × Vault
  | 0, v, _ => ([], v)
  | rounds + 1, v, chunks =>
    let (line, rest) := takeLine (readLimit maxBytes).toNat chunks
    if line = [] then ([], v)
    else if maxBytes.toNat < line.length ∧ line.getLast? ≠ some newline then
      let (responses, v) := serveRounds maxBytes rounds v (dropLine rest)
      (tooLong :: responses, v)
    else
      let (response, v) := answer v line
      let (responses, v) := serveRounds maxBytes rounds v rest
      (response.toList ++ responses, v)

/-- Answers all lines of a stream that arrives in some chunks and then ends. -/
def serve (maxBytes : UInt64) (v : Vault) (chunks : List Bytes) : List Response × Vault :=
  serveRounds maxBytes (byteCount chunks + 1) v chunks

end Strongroom.Connection
