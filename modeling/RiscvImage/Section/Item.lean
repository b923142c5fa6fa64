import RiscvImage.ByteString.Basic
import RiscvImage.LittleEndian

/-!
# Section items

A section is built from items: bytes given as such, reserved space, and the
padding that alignment calls for.  Items keep what they stand for rather than
their bytes, since reserved space may be gigabytes long.
-/

namespace RiscvImage

/-- What alignment padding consists of. -/
inductive Fill
  /-- The instruction word that does nothing. -/
  | nop
  /-- One repeated byte. -/
  | byte (value : UInt8)
  deriving DecidableEq, Repr

namespace Fill

/-- The encoding of `addi x0, x0, 0`. -/
def nopWord : UInt32 :=
  0x13

/-- The bytes whose repetition fills the padding. -/
def pattern : Fill → List UInt8
  | nop => LittleEndian.word nopWord
  | byte value => [value]

end Fill

/-- One piece of section content. -/
inductive Item
  /-- Encoded instructions or initialised data. -/
  | bytes (contents : ByteString)
  /-- Reserved space, zero when loaded. -/
  | zero (size : UInt32)
  /-- Alignment padding. -/
  | padding (fill : Fill) (size : UInt32)
  deriving DecidableEq, Repr

namespace Item

/-- The number of bytes an item takes up. -/
def length : Item → Nat
  | bytes contents => contents.length
  | zero size => size.toNat
  | padding _ size => size.toNat

/-- The bytes an item stands for.  Padding with instructions consists of whole
words, so up to three bytes at its end have no contents. -/
def contents : Item → ByteString
  | bytes contents => contents
  | zero size => .zero size.toNat
  | padding .nop size => .repeated (Fill.pattern .nop) (size.toNat / 4)
  | padding (.byte value) size => .repeated [value] size.toNat

/-- Whether an item's contents make up its whole length: padding with
instructions has to be a whole number of words. -/
def IsWhole : Item → Prop
  | padding .nop size => size % 4 = 0
  | _ => True

instance (item : Item) : Decidable item.IsWhole := by
  unfold IsWhole
  split <;> infer_instance

end Item

end RiscvImage
