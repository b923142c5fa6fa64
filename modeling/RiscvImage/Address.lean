import RiscvImage.Text.Blank
import RiscvImage.Text.Numeral

/-!
# Addresses given as text

An address is written in hexadecimal, with or without `0x` in front, and may
stand between blanks.
-/

namespace RiscvImage.Address

/-- Drop every leading `0` that is followed by the given marker, together with
the marker. -/
def dropMarkers (marker : Char) : List Char → List Char
  | '0' :: character :: rest =>
    if character = marker then dropMarkers marker rest else '0' :: character :: rest
  | text => text

/-- The digits of an address: the text without blanks at its ends and without
its leading `0x` markers, the lower-case ones first. -/
def numeral (text : String) : List Char :=
  dropMarkers 'X' (dropMarkers 'x' (Blank.trim text.toList))

/-- The address that a text stands for. -/
def read (text : String) : Except NumeralError UInt32 :=
  (Numeral.read 16 0xffffffff (numeral text)).map .ofNat

/-- The wording for a text that is no address. -/
def message (text : String) (reason : NumeralError) : String :=
  s!"invalid hex address '{text}': {reason.message}"

/-- Read an address, or say in words why there is none. -/
def ofText (text : String) : Except String UInt32 :=
  (read text).mapError (message text)

end RiscvImage.Address
