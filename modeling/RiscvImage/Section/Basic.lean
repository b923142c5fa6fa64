import RiscvImage.AddressSpace
import RiscvImage.Outcome
import RiscvImage.Section.Item

/-!
# Sections

A section is a run of items from a base address on.  It may fill the address
space up to its very end but not beyond.  Every operation answers with the
section it leaves behind; only padding with instructions, which takes two items,
can fail with its first item in place.
-/

namespace RiscvImage

/-- The two kinds of sections of a program. -/
inductive SectionKind
  | text
  | data
  deriving DecidableEq, Repr

namespace SectionKind

/-- The conventional name of a section of this kind. -/
def name : SectionKind → String
  | text => ".text"
  | data => ".data"

/-- The kinds in the order in which they stand in an image. -/
def all : List SectionKind :=
  [text, data]

end SectionKind

/-- Why a program under construction refuses an operation. -/
inductive ObjectError
  | duplicateLabel (name : String)
  | invalidAlignment (alignment : UInt32)
  | sectionOverflow (kind : SectionKind)
  deriving DecidableEq, Repr

namespace ObjectError

/-- The wording of a refusal. -/
def message : ObjectError → String
  | duplicateLabel name => s!"label `{name}` is already defined"
  | invalidAlignment alignment =>
    s!"alignment must be a non-zero power of two, got {alignment.toNat}"
  | sectionOverflow kind => s!"{kind.name} section exceeds the 32-bit address space"

end ObjectError

/-- A section under construction. -/
structure Section where
  kind : SectionKind
  /-- The address of the first byte. -/
  base : UInt32
  /-- The number of bytes of all items together. -/
  size : UInt32
  /-- The contents, in address order. -/
  items : List Item
  deriving DecidableEq, Repr

namespace Section

/-- A section without items. -/
def empty (kind : SectionKind) (base : UInt32) : Section :=
  ⟨kind, base, 0, []⟩

/-- The address one past the last byte.  A section that fills the address space
to its end has its end at address zero. -/
def endAddress (s : Section) : UInt32 :=
  s.base + s.size

/-- Move a section whose contents still fit at the new base. -/
def setBase (s : Section) (base : UInt32) : Outcome ObjectError Section Unit :=
  if base.toNat + s.size.toNat ≤ addressSpace then ⟨.ok (), { s with base }⟩
  else ⟨.error (.sectionOverflow s.kind), s⟩

/-- Append an item and answer its address. -/
def push (s : Section) (item : Item) : Outcome ObjectError Section UInt32 :=
  let size := s.size.toNat + item.length
  if size < addressSpace ∧ s.base.toNat + size ≤ addressSpace then
    ⟨.ok s.endAddress, { s with size := .ofNat size, items := s.items ++ [item] }⟩
  else ⟨.error (.sectionOverflow s.kind), s⟩

/-- Append bytes and answer their address. -/
def pushBytes (s : Section) (bytes : ByteString) : Outcome ObjectError Section UInt32 :=
  s.push (.bytes bytes)

/-- Append an instruction word and answer its address. -/
def pushWord (s : Section) (word : UInt32) : Outcome ObjectError Section UInt32 :=
  s.pushBytes (.ofList (LittleEndian.word word))

/-- Reserve space and answer its address. -/
def pushZero (s : Section) (size : UInt32) : Outcome ObjectError Section UInt32 :=
  s.push (.zero size)

/-- Append padding unless there is none to append. -/
def pushPadding (s : Section) (fill : Fill) (size : UInt32) : Outcome ObjectError Section Unit :=
  if size = 0 then ⟨.ok (), s⟩ else (s.push (.padding fill size)).map fun _ => ()

/-- Whether a number is a power of two; zero is none. -/
def isPowerOfTwo (number : UInt32) : Bool :=
  1 <<< number.toNat.log2 == number.toNat

/-- The bytes missing from the end of the section to the next multiple of a
power of two. -/
def paddingTo (s : Section) (alignment : UInt32) : UInt32 :=
  let misalignment := s.endAddress % alignment
  if misalignment = 0 then 0 else alignment - misalignment

/-- Pad the section until its end is a multiple of `alignment` and answer how
many bytes that took.  Padding with instructions begins with the zero bytes that
are missing to a whole number of words, so its own item is made of words. -/
def pushAlign (s : Section) (alignment : UInt32) (fill : Fill) :
    Outcome ObjectError Section UInt32 :=
  if isPowerOfTwo alignment then
    let padding := s.paddingTo alignment
    let padded :=
      match fill with
      | .nop =>
        (s.pushPadding (.byte 0) (padding % 4)).andThen fun _ s =>
          s.pushPadding .nop (padding - padding % 4)
      | .byte value => s.pushPadding (.byte value) padding
    padded.map fun _ => padding
  else ⟨.error (.invalidAlignment alignment), s⟩

/-- The bytes of all items, in address order. -/
def contents (s : Section) : ByteString :=
  .concat (s.items.map Item.contents)

end Section

end RiscvImage
