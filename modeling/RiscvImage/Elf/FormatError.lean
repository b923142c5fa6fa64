import RiscvImage.Text.Hexadecimal

/-!
# Malformed images

The structural faults for which an image file is turned down.
-/

namespace RiscvImage

/-- The parts of an image file that can be cut short. -/
inductive ImagePart
  | fileHeader
  | programHeader
  | segmentContents
  | programHeaderTable
  | sectionHeaderTable
  deriving DecidableEq, Repr

namespace ImagePart

/-- How a part is called in messages. -/
def name : ImagePart → String
  | fileHeader => "ELF header"
  | programHeader => "program header"
  | segmentContents => "segment contents"
  | programHeaderTable => "program header table"
  | sectionHeaderTable => "section header table"

end ImagePart

/-- The two kinds of descriptors that a table in an image file lists. -/
inductive DescriptorKind
  | programHeader
  | sectionHeader
  deriving DecidableEq, Repr

namespace DescriptorKind

/-- How a descriptor is called in messages. -/
def name : DescriptorKind → String
  | programHeader => "program header"
  | sectionHeader => "section header"

/-- The encoded size of a descriptor. -/
def size : DescriptorKind → Nat
  | programHeader => 32
  | sectionHeader => 40

end DescriptorKind

/-- What is wrong with an image file. -/
inductive FormatError
  | truncated (part : ImagePart)
  | invalidMagic
  | unsupportedClass (fileClass : UInt8)
  | notLittleEndian
  | unsupportedVersion (version : UInt32)
  | notExecutable (fileType : UInt16)
  /-- The entries of a table are smaller than the descriptors in them. -/
  | entrySize (kind : DescriptorKind) (size : UInt16)
  | unsupportedSegment (segmentType : UInt32)
  deriving DecidableEq, Repr

namespace FormatError

/-- The wording of a fault. -/
def message : FormatError → String
  | truncated part => s!"file too small to hold the {part.name}"
  | invalidMagic => "invalid ELF magic number"
  | unsupportedClass fileClass => s!"unsupported ELF class: {fileClass.toNat}"
  | notLittleEndian => "only little-endian ELF supported"
  | unsupportedVersion version => s!"unsupported ELF version: {version.toNat}"
  | notExecutable fileType => s!"not an executable image (type {fileType.toNat})"
  | entrySize kind size => s!"{kind.name} entry size {size.toNat} is smaller than {kind.size}"
  | unsupportedSegment segmentType =>
    s!"unsupported segment type {Hexadecimal.plain segmentType.toNat}"

end FormatError

end RiscvImage
