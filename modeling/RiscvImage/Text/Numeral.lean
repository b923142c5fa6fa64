import RiscvImage.Text.Hexadecimal

/-!
# Reading numerals

A numeral is a non-empty run of digits, with an optional plus sign in front, of
a number up to a given bound.  Digits are taken from the left, and the first
thing that goes wrong is what the answer says: a character that is no digit, or
a value beyond the bound.
-/

namespace RiscvImage

/-- Why a text is not a numeral. -/
inductive NumeralError
  | empty
  | invalidDigit
  | tooLarge
  | tooSmall
  deriving DecidableEq, Repr

namespace NumeralError

/-- The wording of the reason. -/
def message : NumeralError → String
  | empty => "cannot parse integer from empty string"
  | invalidDigit => "invalid digit found in string"
  | tooLarge => "number too large to fit in target type"
  | tooSmall => "number too small to fit in target type"

end NumeralError

namespace Numeral

/-- Extend `value` by the digits of a numeral in base `radix`.  A step beyond
`bound` is answered by `beyond`. -/
def readDigits (radix bound : Nat) (beyond : NumeralError) :
    (value : Nat) → List Char → Except NumeralError Nat
  | value, [] => .ok value
  | value, character :: rest =>
    match Hexadecimal.digitValue? character with
    | none => .error .invalidDigit
    | some digit =>
      if radix ≤ digit then .error .invalidDigit
      else if bound < value * radix + digit then .error beyond
      else readDigits radix bound beyond (value * radix + digit) rest

/-- Read a numeral without a minus sign. -/
def read (radix bound : Nat) (text : List Char) : Except NumeralError Nat :=
  match text with
  | [] => .error .empty
  | ['+'] => .error .invalidDigit
  | '+' :: rest => readDigits radix bound .tooLarge 0 rest
  | _ => readDigits radix bound .tooLarge 0 text

/-- Read a numeral that may have a minus sign, of a number from `-bound - 1` to
`bound`. -/
def readSigned (radix bound : Nat) (text : List Char) : Except NumeralError Int :=
  match text with
  | ['-'] => .error .invalidDigit
  | '-' :: rest =>
    (readDigits radix (bound + 1) .tooSmall 0 rest).map fun value => -(value : Int)
  | _ => (read radix bound text).map fun value => (value : Int)

end Numeral

end RiscvImage
