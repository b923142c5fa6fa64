/-!
# UTF-8

Names are stored as UTF-8.  Bytes read from a file need not be well formed, so
decoding splits them into pieces: the characters, and between them the longest
parts that begin like a character and cannot be continued to one.  A strict
reader accepts only characters; a lenient one shows each broken part as one
replacement character.
-/

namespace RiscvImage.Utf8

/-- The bytes of a text. -/
def encode (text : String) : List UInt8 :=
  text.toList.flatMap String.utf8EncodeChar

/-- The character that the front of the sequence encodes. -/
def decodeFront? (bytes : List UInt8) : Option Char :=
  (bytes.take 4).toByteArray.utf8DecodeChar? 0

/-- Which second bytes may follow the lead byte of a multi-byte character, as an
inclusive range, and how many bytes follow the lead byte in all. -/
def following? (lead : UInt8) : Option (UInt8 × UInt8 × Nat) :=
  if 0xc2 ≤ lead ∧ lead ≤ 0xdf then some (0x80, 0xbf, 1)
  else if lead = 0xe0 then some (0xa0, 0xbf, 2)
  else if 0xe1 ≤ lead ∧ lead ≤ 0xec then some (0x80, 0xbf, 2)
  else if lead = 0xed then some (0x80, 0x9f, 2)
  else if 0xee ≤ lead ∧ lead ≤ 0xef then some (0x80, 0xbf, 2)
  else if lead = 0xf0 then some (0x90, 0xbf, 3)
  else if 0xf1 ≤ lead ∧ lead ≤ 0xf3 then some (0x80, 0xbf, 3)
  else if lead = 0xf4 then some (0x80, 0x8f, 3)
  else none

/-- Whether a byte can stand in a multi-byte character after the lead byte. -/
def isContinuation (byte : UInt8) : Bool :=
  0x80 ≤ byte && byte ≤ 0xbf

/-- The length of the broken part at the front of a sequence that does not begin
with a character: the lead byte and the bytes after it that some character with
this lead byte could still have. -/
def brokenLength : List UInt8 → Nat
  | [] => 0
  | [_] => 1
  | lead :: second :: rest =>
    match following? lead with
    | none => 1
    | some (low, high, count) =>
      if low ≤ second ∧ second ≤ high then
        2 + ((rest.take (count - 1)).takeWhile isContinuation).length
      else 1

/-- Pass over `skip` bytes, then split what is left; a broken part is `none`. -/
def piecesAfter : (skip : Nat) → List UInt8 → List (Option Char)
  | _, [] => []
  | skip + 1, _ :: rest => piecesAfter skip rest
  | 0, byte :: rest =>
    match decodeFront? (byte :: rest) with
    | some character => some character :: piecesAfter (character.utf8Size - 1) rest
    | none => none :: piecesAfter (brokenLength (byte :: rest) - 1) rest

/-- The characters and broken parts of a sequence, in order. -/
def pieces (bytes : List UInt8) : List (Option Char) :=
  piecesAfter 0 bytes

/-- The text of a well-formed sequence. -/
def decode? (bytes : List UInt8) : Option String :=
  ((pieces bytes).mapM id).map String.ofList

/-- The text of a sequence with a replacement character for each broken part. -/
def decodeLossy (bytes : List UInt8) : String :=
  String.ofList ((pieces bytes).map (·.getD '\ufffd'))

end RiscvImage.Utf8
