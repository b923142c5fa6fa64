import RiscvImage.Elf.FormatError
import RiscvImage.LittleEndian

/-!
# Section headers

A section header describes a stretch of the file for tools.  Loading an image
does not look at it.
-/

namespace RiscvImage

/-- A section descriptor. -/
structure SectionHeader where
  /-- Offset of the name in the table of section names. -/
  name : UInt32
  sectionType : UInt32
  flags : UInt32
  addr : UInt32
  /-- File offset of the contents. -/
  offset : UInt32
  /-- Number of bytes in the file. -/
  size : UInt32
  link : UInt32
  info : UInt32
  addralign : UInt32
  entsize : UInt32
  deriving DecidableEq, Repr

namespace SectionHeader

/-- The type of a section that holds what the program defines. -/
def contentsType : UInt32 :=
  1

/-- The type of a section that holds names. -/
def stringTableType : UInt32 :=
  3

/-- The flag of a section that is writable in memory. -/
def writeFlag : UInt32 :=
  1

/-- The flag of a section that takes up memory. -/
def allocateFlag : UInt32 :=
  2

/-- The flag of a section that holds instructions. -/
def executeFlag : UInt32 :=
  4

/-- The flag of a section that holds strings. -/
def stringsFlag : UInt32 :=
  0x20

/-- The descriptor whose fields are all zero, which comes first in a table. -/
def null : SectionHeader :=
  ⟨0, 0, 0, 0, 0, 0, 0, 0, 0, 0⟩

open LittleEndian in
/-- The 40 bytes of a descriptor. -/
def encode (header : SectionHeader) : List UInt8 :=
  word header.name ++ word header.sectionType ++ word header.flags ++ word header.addr ++
    word header.offset ++ word header.size ++ word header.link ++ word header.info ++
    word header.addralign ++ word header.entsize

open LittleEndian in
/-- The descriptor that 40 bytes encode. -/
def decode (bytes : List UInt8) : SectionHeader where
  name := wordAt bytes 0
  sectionType := wordAt bytes 4
  flags := wordAt bytes 8
  addr := wordAt bytes 12
  offset := wordAt bytes 16
  size := wordAt bytes 20
  link := wordAt bytes 24
  info := wordAt bytes 28
  addralign := wordAt bytes 32
  entsize := wordAt bytes 36

theorem length_encode (header : SectionHeader) :
    header.encode.length = DescriptorKind.sectionHeader.size := by
  simp [encode, DescriptorKind.size]

end SectionHeader

end RiscvImage
