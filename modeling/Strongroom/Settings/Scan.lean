import Strongroom.Datum.Decode
/-!
# Scanning settings files

The formats of settings files are read by scanners.  A scanner takes something off the front of a
text or refuses the text; why it refuses is not told.
-/

namespace Strongroom

/-- A scanner takes a value off the front of a text. -/
abbrev Scan (α : Type) := List Char → Option (α × List Char)

namespace Scan

/-- A character that has to come next. -/
def exactly (c : Char) (cs : List Char) : Option (List Char) :=
  match cs with
  | d :: rest => if d = c then some rest else none
  | [] => none

/-- What follows a word that comes next. -/
def word? : List Char → List Char → Option (List Char)
  | [], cs => some cs
  | _ :: _, [] => none
  | e :: es, c :: cs => if c = e then word? es cs else none

/-- A run of characters, which must not be empty. -/
def run1 (p : Char → Bool) : Scan (List Char) := fun cs =>
  let run := cs.takeWhile p
  if run = [] then none else some (run, cs.dropWhile p)

/-- The text of a file, in which every line ends in a single character. -/
def foldLineEnds : List Char → List Char
  | '\r' :: '\n' :: rest => '\n' :: foldLineEnds rest
  | c :: rest => c :: foldLineEnds rest
  | [] => []

/-- Runs a step as often as it asks for another one, as long as less is left after it. -/
def untilDoneBy (size : ρ → Nat) (step : σ → ρ → Option ((σ × Bool) × ρ)) (state : σ) (rest : ρ) :
    Option (σ × ρ) :=
  match step state rest with
  | none => none
  | some ((state, true), after) => some (state, after)
  | some ((state, false), after) =>
    if size after < size rest then untilDoneBy size step state after else none
termination_by size rest

/-- Runs a scanner as often as it takes something off the text; stops with what is left once the
scanner says that nothing more comes. -/
def untilDone (step : σ → Scan (σ × Bool)) (state : σ) (cs : List Char) :
    Option (σ × List Char) :=
  untilDoneBy List.length step state cs

/-- The value of some digits in base sixteen. -/
def hexadecimal? (digits : List Char) : Option Nat :=
  if digits.all Char.isAlphanum then
    digits.foldl (fun n c => do return 16 * (← n) + (← digit? c)) (some 0)
  else none
where
  /-- The value of one digit. -/
  digit? (c : Char) : Option Nat :=
    if c.isDigit then some (c.toNat - 48)
    else if 'a' ≤ c ∧ c ≤ 'f' then some (c.toNat - 87)
    else if 'A' ≤ c ∧ c ≤ 'F' then some (c.toNat - 55)
    else none

/-- The character with a number, if there is one. -/
def character? (n : Nat) : Option Char :=
  if n.isValidChar then some (Char.ofNat n) else none

/-- A character given by exactly so many digits in base sixteen. -/
def codePoint (digits : Nat) : Scan Char := fun cs =>
  if cs.length < digits then none
  else
    match (hexadecimal? (cs.take digits)).bind character? with
    | some c => some (c, cs.drop digits)
    | none => none

end Scan

end Strongroom
