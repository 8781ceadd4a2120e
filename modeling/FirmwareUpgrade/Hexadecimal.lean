/-!
# Hexadecimal numerals

Identifiers and checksums are shown in lower-case hexadecimal, filled with zeros on the left to
a fixed width.
-/

namespace FirmwareUpgrade.Hexadecimal

/-- The lower-case hexadecimal digits of a number, without leading zeros. -/
def digits (number : Nat) : List Char :=
  Nat.toDigits 16 number

/-- A number in hexadecimal with at least `width` digits. -/
def padded (width number : Nat) : String :=
  let shown := digits number
  String.ofList (List.replicate (width - shown.length) '0' ++ shown)

/-- The value of one hexadecimal digit in either case. -/
def digitValue? (c : Char) : Option Nat :=
  if '0' ≤ c ∧ c ≤ '9' then some (c.toNat - '0'.toNat)
  else if 'a' ≤ c ∧ c ≤ 'f' then some (c.toNat - 'a'.toNat + 10)
  else if 'A' ≤ c ∧ c ≤ 'F' then some (c.toNat - 'A'.toNat + 10)
  else none

end FirmwareUpgrade.Hexadecimal
