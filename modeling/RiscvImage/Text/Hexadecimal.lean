/-!
# Hexadecimal text

Addresses, sizes and flags are shown as lower-case hexadecimal numerals after
`0x`.  A numeral is padded with zeros on the left to the width asked for, which
counts the digits only, and is never cut.
-/

namespace RiscvImage.Hexadecimal

/-- The lower-case digits of a number, most significant first. -/
def digits (value : Nat) : List Char :=
  Nat.toDigits 16 value

/-- A numeral of at least `width` digits after `0x`. -/
def padded (width value : Nat) : String :=
  let shown := digits value
  String.ofList ('0' :: 'x' :: (List.replicate (width - shown.length) '0' ++ shown))

/-- A numeral without padding after `0x`. -/
def plain (value : Nat) : String :=
  padded 0 value

/-- An address, as eight digits. -/
def address (value : UInt32) : String :=
  padded 8 value.toNat

/-- The value of a digit in either case. -/
def digitValue? (digit : Char) : Option Nat :=
  if '0' ≤ digit ∧ digit ≤ '9' then some (digit.toNat - '0'.toNat)
  else if 'a' ≤ digit ∧ digit ≤ 'f' then some (digit.toNat - 'a'.toNat + 10)
  else if 'A' ≤ digit ∧ digit ≤ 'F' then some (digit.toNat - 'A'.toNat + 10)
  else none

end RiscvImage.Hexadecimal
