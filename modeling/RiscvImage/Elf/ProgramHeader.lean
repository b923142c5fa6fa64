import RiscvImage.Elf.FormatError
import RiscvImage.LittleEndian

/-!
# Program headers

A program header describes a segment: a stretch of the file and the stretch of
memory that it fills when the image is loaded.
-/

namespace RiscvImage

/-- A segment descriptor. -/
structure ProgramHeader where
  segmentType : UInt32
  /-- File offset of the contents. -/
  offset : UInt32
  /-- Address of the first byte in memory. -/
  vaddr : UInt32
  paddr : UInt32
  /-- Number of bytes in the file. -/
  filesz : UInt32
  /-- Number of bytes in memory. -/
  memsz : UInt32
  flags : UInt32
  align : UInt32
  deriving DecidableEq, Repr

namespace ProgramHeader

/-- The type of an entry that is not in use. -/
def nullType : UInt32 :=
  0

/-- The type of a segment that is loaded. -/
def loadType : UInt32 :=
  1

/-- The type of a segment that holds notes. -/
def noteType : UInt32 :=
  4

/-- The flag of an executable segment. -/
def executeFlag : UInt32 :=
  1

/-- The flag of a writable segment. -/
def writeFlag : UInt32 :=
  2

/-- The flag of a readable segment. -/
def readFlag : UInt32 :=
  4

/-- The descriptor of a loaded segment that is as long in memory as in the
file. -/
def load (offset vaddr size flags : UInt32) : ProgramHeader where
  segmentType := loadType
  offset := offset
  vaddr := vaddr
  paddr := vaddr
  filesz := size
  memsz := size
  flags := flags
  align := 0

open LittleEndian in
/-- The 32 bytes of a descriptor. -/
def encode (header : ProgramHeader) : List UInt8 :=
  word header.segmentType ++ word header.offset ++ word header.vaddr ++ word header.paddr ++
    word header.filesz ++ word header.memsz ++ word header.flags ++ word header.align

open LittleEndian in
/-- The descriptor that 32 bytes encode. -/
def decode (bytes : List UInt8) : ProgramHeader where
  segmentType := wordAt bytes 0
  offset := wordAt bytes 4
  vaddr := wordAt bytes 8
  paddr := wordAt bytes 12
  filesz := wordAt bytes 16
  memsz := wordAt bytes 20
  flags := wordAt bytes 24
  align := wordAt bytes 28

theorem length_encode (header : ProgramHeader) :
    header.encode.length = DescriptorKind.programHeader.size := by
  simp [encode, DescriptorKind.size]

end ProgramHeader

end RiscvImage
