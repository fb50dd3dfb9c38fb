import Strongroom.Bytes.Hex
/-!
# Base64

Three bytes are written as four symbols.  One or two bytes at the end are written as two or three
symbols and filled up with `=`.  Reading is exact: only what writing produces is accepted, and a
refusal names the first thing that is wrong.
-/

namespace Strongroom.Base64

/-- What is wrong with a text that is not base64. -/
inductive Fault
  | symbol (code : UInt8) (offset : Nat)
  | lastSymbol (code : UInt8) (offset : Nat)
  | length (symbols : Nat)
  | padding
deriving DecidableEq, Repr

/-- The wording of a fault. -/
def Fault.message : Fault → String
  | .symbol code offset => s!"Invalid symbol {code.toNat}, offset {offset}."
  | .lastSymbol code offset => s!"Invalid last symbol {code.toNat}, offset {offset}."
  | .length symbols => s!"Invalid input length: {symbols}"
  | .padding => "Invalid padding"

/-- The code of the symbol for a number below sixty-four. -/
def symbolOf (n : Nat) : UInt8 :=
  if n < 26 then UInt8.ofNat (65 + n)
  else if n < 52 then UInt8.ofNat (71 + n)
  else if n < 62 then UInt8.ofNat (n - 4)
  else if n = 62 then 43
  else 47

/-- The number that a symbol stands for. -/
def valueOf? (code : UInt8) : Option Nat :=
  let n := code.toNat
  if 65 ≤ n ∧ n ≤ 90 then some (n - 65)
  else if 97 ≤ n ∧ n ≤ 122 then some (n - 71)
  else if 48 ≤ n ∧ n ≤ 57 then some (n + 4)
  else if n = 43 then some 62
  else if n = 47 then some 63
  else none

/-- The code of the fill character `=`. -/
def fill : UInt8 := 61

/-! ## Writing -/

/-- The symbols of some bytes, put in reverse in front of `done`. -/
def encodeOnto (done : Bytes) : Bytes → Bytes
  | [] => done
  | [a] =>
    let n := a.toNat
    fill :: fill :: symbolOf (n % 4 * 16) :: symbolOf (n / 4) :: done
  | [a, b] =>
    let n := a.toNat * 256 + b.toNat
    fill :: symbolOf (n % 16 * 4) :: symbolOf (n / 16 % 64) :: symbolOf (n / 1024) :: done
  | a :: b :: c :: rest =>
    let n := (a.toNat * 256 + b.toNat) * 256 + c.toNat
    encodeOnto (symbolOf (n % 64) :: symbolOf (n / 64 % 64) :: symbolOf (n / 4096 % 64) ::
      symbolOf (n / 262144) :: done) rest

/-- The codes of the symbols of some bytes. -/
def encode (bytes : Bytes) : Bytes :=
  (encodeOnto [] bytes).reverse

/-- The text of some bytes. -/
def toText (bytes : Bytes) : String :=
  String.ofList ((encode bytes).map fun code => Char.ofNat code.toNat)

/-! ## Reading -/

/-- The value of the symbol at an offset. -/
def readSymbol (offset : Nat) (code : UInt8) : Except Fault Nat :=
  match valueOf? code with
  | some value => .ok value
  | none => .error (.symbol code offset)

/-- What has been seen of the last group: the values of its symbols with the last symbol itself,
and the number of fill characters with the offset of the first of them. -/
structure Group where
  values : List Nat
  last : UInt8
  fills : Nat
  firstFill : Nat

/-- Collects the last group, whose first code stands at offset `start`. -/
def collectGroup (start : Nat) : Nat → Group → Bytes → Except Fault Group
  | _, group, [] => .ok group
  | index, group, code :: rest =>
    if code = fill then
      if index < 2 then .error (.symbol code (start + index))
      else
        collectGroup start (index + 1)
          { group with
            fills := group.fills + 1
            firstFill := if group.fills = 0 then index else group.firstFill } rest
    else if group.fills > 0 then .error (.symbol fill (start + group.firstFill))
    else
      match valueOf? code with
      | none => .error (.symbol code (start + index))
      | some value =>
        collectGroup start (index + 1)
          { group with values := group.values ++ [value], last := code } rest

/-- The bytes of the last group: the unused bits of its last symbol have to be zero. -/
def readGroup (start : Nat) (codes : Bytes) : Except Fault Bytes := do
  let group ← collectGroup start 0 ⟨[], 0, 0, 0⟩ codes
  let count := group.values.length
  if count < 2 then throw (.length (start + count))
  if (group.fills + count) % 4 ≠ 0 then throw .padding
  match group.values with
  | [a, b] =>
    let n := a * 64 + b
    if n % 16 ≠ 0 then throw (.lastSymbol group.last (start + 1))
    return [UInt8.ofNat (n / 16)]
  | [a, b, c] =>
    let n := (a * 64 + b) * 64 + c
    if n % 4 ≠ 0 then throw (.lastSymbol group.last (start + 2))
    return [UInt8.ofNat (n / 1024), UInt8.ofNat (n / 4)]
  | [a, b, c, d] =>
    let n := ((a * 64 + b) * 64 + c) * 64 + d
    return [UInt8.ofNat (n / 65536), UInt8.ofNat (n / 256), UInt8.ofNat n]
  | _ => throw .padding

/-- Reads whole groups while something follows them, then the last group; `done` holds the bytes
read so far in reverse. -/
def readGroups (start : Nat) (done : Bytes) : Bytes → Except Fault Bytes
  | a :: b :: c :: d :: e :: rest => do
    let a ← readSymbol start a
    let b ← readSymbol (start + 1) b
    let c ← readSymbol (start + 2) c
    let d ← readSymbol (start + 3) d
    let n := ((a * 64 + b) * 64 + c) * 64 + d
    readGroups (start + 4)
      (UInt8.ofNat n :: UInt8.ofNat (n / 256) :: UInt8.ofNat (n / 65536) :: done) (e :: rest)
  | codes => do
    let bytes ← readGroup start codes
    return done.reverse ++ bytes

/-- The bytes that some codes stand for.  A single code too many that is no symbol is reported
before anything else. -/
def decode (codes : Bytes) : Except Fault Bytes :=
  if codes.length % 4 = 1 then
    match codes.getLast? with
    | some code =>
      if code ≠ fill ∧ valueOf? code = none then .error (.symbol code (codes.length - 1))
      else readGroups 0 [] codes
    | none => .ok []
  else if codes = [] then .ok []
  else readGroups 0 [] codes

/-- The bytes that a text stands for. -/
def ofText (text : String) : Except Fault Bytes :=
  decode (Bytes.ofText text)

end Strongroom.Base64
