import FirmwareUpgrade.Hexadecimal

/-!
# Reading numerals

A numeral is an optional plus sign followed by digits in some base.  The digits are read from the
left, and the first thing that is wrong decides: a character that is no digit, or a value that
has grown too large.
-/

namespace FirmwareUpgrade

/-- Why a text is not a number in the range wanted. -/
inductive NumeralFault where
  | empty
  | invalidDigit
  | tooLarge
deriving DecidableEq, Repr, Inhabited

def NumeralFault.message : NumeralFault → String
  | empty => "cannot parse integer from empty string"
  | invalidDigit => "invalid digit found in string"
  | tooLarge => "number too large to fit in target type"

namespace Numeral

/-- The value of a digit below the base. -/
def digitBelow? (base : Nat) (c : Char) : Option Nat :=
  (Hexadecimal.digitValue? c).filter (· < base)

/-- Reads the digits that follow a value already read, up to a largest value. -/
def readDigits (base largest : Nat) : (value : Nat) → List Char → Except NumeralFault Nat
  | value, [] => .ok value
  | value, c :: rest =>
    match digitBelow? base c with
    | none => .error .invalidDigit
    | some digit =>
      if largest < value * base + digit then .error .tooLarge
      else readDigits base largest (value * base + digit) rest

/-- The digits of a numeral, without its sign.  A sign alone is no numeral. -/
def unsigned : List Char → Except NumeralFault (List Char)
  | [] => .error .empty
  | ['+'] | ['-'] => .error .invalidDigit
  | '+' :: digits => .ok digits
  | digits => .ok digits

/-- Reads a number up to a largest one. -/
def read (base largest : Nat) (text : String) : Except NumeralFault Nat :=
  match unsigned text.toList with
  | .ok digits => readDigits base largest 0 digits
  | .error fault => .error fault

/-- Reads a hexadecimal number of sixteen bits. -/
def readHexWord (text : String) : Except NumeralFault UInt16 :=
  (read 16 0xFFFF text).map UInt16.ofNat

/-- Reads a number of sixteen bits, in hexadecimal after `0x` and else in decimal. -/
def readWord (text : String) : Except NumeralFault UInt16 :=
  match text.toList with
  | '0' :: 'x' :: digits | '0' :: 'X' :: digits => readHexWord (String.ofList digits)
  | _ => (read 10 0xFFFF text).map UInt16.ofNat

/-- Reads a decimal number up to a largest one, where zero may carry a minus sign. -/
def readSigned (largest : Nat) (text : String) : Except NumeralFault Nat :=
  match text.toList with
  | '-' :: c :: digits =>
    match readDigits 10 0 0 (c :: digits) with
    | .ok value => .ok value
    | .error fault => .error fault
  | _ => read 10 largest text

end Numeral

end FirmwareUpgrade
