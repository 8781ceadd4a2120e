import FirmwareUpgrade.Numeral

/-!
# Reading byte counts

A byte count is a decimal number, possibly with a fraction and an exponent, and possibly with a
unit such as `K`, `MB` or `GiB`.  An `i` in front of the final `b` selects powers of 1024 instead
of powers of 1000.  Underscores and spaces are ignored in front of the unit.

The significant digits are kept in a word of 64 bits.  The first digit that no longer fits rounds
the word; all digits after it only move the decimal point, or are dropped behind it.
-/

namespace FirmwareUpgrade

namespace ByteCount

def wordLimit : Nat := UInt64.size

/-- A written exponent that does not lie below this is too large. -/
def exponentLimit : Int := Int.ofNat 0x80000000

/-- The part of a numeral that is being read. -/
inductive Phase where
  | nothing
  | integer
  | integerFull
  | fraction
  | fractionFull
  | exponent
  | negativeExponent
deriving DecidableEq, Repr, Inhabited

structure Reading where
  phase : Phase
  mantissa : Nat
  /-- How far the digits read move the decimal point. -/
  shift : Int
  exponent : Int
deriving DecidableEq, Repr, Inhabited

def Reading.start : Reading where
  phase := .nothing
  mantissa := 0
  shift := 0
  exponent := 0

namespace Reading

/-- The mantissa after the first digit that does not fit. -/
def rounded (reading : Reading) (digit : Nat) : Nat :=
  if 5 ≤ digit then (reading.mantissa + 1) % wordLimit else reading.mantissa

def digit (reading : Reading) (digit : Nat) : Except NumeralFault Reading :=
  let extended := reading.mantissa * 10 + digit
  match reading.phase with
  | .nothing | .integer =>
    if extended < wordLimit then
      .ok { reading with phase := .integer, mantissa := extended }
    else
      .ok { reading with
        phase := .integerFull
        mantissa := reading.rounded digit
        shift := reading.shift + 1 }
  | .integerFull => .ok { reading with shift := reading.shift + 1 }
  | .fraction =>
    if extended < wordLimit then
      .ok { reading with mantissa := extended, shift := reading.shift - 1 }
    else .ok { reading with phase := .fractionFull, mantissa := reading.rounded digit }
  | .fractionFull => .ok reading
  | .exponent =>
    if reading.exponent * 10 + digit < exponentLimit then
      .ok { reading with exponent := reading.exponent * 10 + digit }
    else .error .tooLarge
  | .negativeExponent =>
    if -exponentLimit ≤ reading.exponent * 10 ∧ reading.exponent * 10 < exponentLimit
        ∧ -exponentLimit ≤ reading.exponent * 10 - digit then
      .ok { reading with exponent := reading.exponent * 10 - digit }
    else .ok reading

def step (reading : Reading) (c : Char) : Except NumeralFault Reading :=
  match Numeral.digitBelow? 10 c with
  | some value => reading.digit value
  | none =>
    match c, reading.phase with
    | '_', _ | ' ', _ | '+', .exponent => .ok reading
    | '.', .integer => .ok { reading with phase := .fraction }
    | '.', .integerFull => .ok { reading with phase := .fractionFull }
    | '-', .exponent => .ok { reading with phase := .negativeExponent }
    | 'e', phase | 'E', phase =>
      if phase = .integer ∨ phase = .integerFull ∨ phase = .fraction ∨ phase = .fractionFull then
        .ok { reading with phase := .exponent }
      else .error .invalidDigit
    | _, _ => .error .invalidDigit

/-- The number of bytes in units of `factor` that has been read, to the nearest; a half goes
up. -/
def value (reading : Reading) (factor : Nat) : Except NumeralFault Nat :=
  let power := reading.exponent + reading.shift
  if 0 ≤ power then
    -- a power beyond the word is too large whatever it multiplies
    if 20 ≤ power then .error .tooLarge
    else
      let scale := factor * Nat.pow 10 power.toNat
      if scale < wordLimit ∧ reading.mantissa * scale < wordLimit then
        .ok (reading.mantissa * scale)
      else .error .tooLarge
  else if -38 ≤ power then
    let scale := Nat.pow 10 (-power).toNat
    let count := (reading.mantissa * factor + scale / 2) / scale
    if count < wordLimit then .ok count else .error .tooLarge
  else .ok 0

end Reading

/-- The position of a unit letter in the order of the units. -/
def unitRank? (c : Char) : Option Nat :=
  match c.toLower with
  | 'k' => some 1
  | 'm' => some 2
  | 'g' => some 3
  | 't' => some 4
  | 'p' => some 5
  | 'e' => some 6
  | _ => none

/-- Takes one of two letters off the front. -/
def dropEither (lower upper : Char) (letters : List Char) : Bool × List Char :=
  match letters with
  | c :: rest => if c = lower ∨ c = upper then (true, rest) else (false, letters)
  | [] => (false, [])

/-- The factor of the unit at the end of a text, and the text in front of it. -/
def splitUnit (text : String) : Nat × List Char :=
  let withoutByte := (dropEither 'b' 'B' text.toList.reverse).2
  let (binary, letters) := dropEither 'i' 'I' withoutByte
  match letters with
  | c :: rest =>
    match unitRank? c with
    | some rank => (Nat.pow (if binary then 1024 else 1000) rank, rest.reverse)
    | none => (1, letters.reverse)
  | [] => (1, [])

def read (text : String) : Except NumeralFault Nat :=
  let (factor, digits) := splitUnit text
  match digits.foldlM Reading.step .start with
  | .error fault => .error fault
  | .ok reading =>
    if reading.phase = .nothing then .error .empty else reading.value factor

end ByteCount

end FirmwareUpgrade
