import RiscvImage.ByteString.Window
import RiscvImage.Elf.ProgramHeader
import RiscvImage.Elf.SectionHeader
import RiscvImage.Host.File
import RiscvImage.Loading.LoadError
import RiscvImage.Text.Utf8

/-!
# Inspecting images

Inspection reads all of an image's descriptors, those of the segments and those
of the sections, and the names of the sections.  A table that does not lie in the
file is a fault; names that cannot be found are empty.
-/

namespace RiscvImage

/-- A section descriptor with the name it refers to. -/
structure NamedSection where
  name : String
  header : SectionHeader
  deriving DecidableEq, Repr

/-- The descriptors of an image. -/
structure Inspection where
  header : FileHeader
  programHeaders : List ProgramHeader
  sections : List NamedSection
  deriving DecidableEq, Repr

namespace Inspection

/-- The header at the beginning of a file. -/
def parseHeader (file : ByteString) : Except LoadError FileHeader :=
  match file.slice? 0 FileHeader.size with
  | none => .error (.format (.truncated .fileHeader))
  | some front =>
    let header := FileHeader.decode front.bytes
    (header.validate.mapError LoadError.ofHeaderFault).map fun _ => header

/-- The first `size` bytes of each of `count` entries that stand `stride` bytes
apart. -/
def entries (size stride : Nat) : (count : Nat) → (table : ByteString) → List (List UInt8)
  | 0, _ => []
  | count + 1, table => (table.take size).bytes :: entries size stride count (table.drop stride)

/-- Where the last of `count` entries ends, if there is any.  Entries stand `stride`
bytes apart from `offset` on, and no entry ends behind the last one. -/
def tableStop (size stride offset : Nat) : (count : Nat) → Nat
  | 0 => 0
  | count + 1 => offset + count * stride + size

/-- The entries of a descriptor table. -/
def parseTable (file : ByteString) (kind : DescriptorKind) (part : ImagePart)
    (offset : UInt32) (stride count : UInt16) : Except LoadError (List (List UInt8)) :=
  if 0 < count ∧ stride.toNat < kind.size then .error (.format (.entrySize kind stride))
  else if tableStop kind.size stride.toNat offset.toNat count.toNat ≤ file.length then
    .ok (entries kind.size stride.toNat count.toNat (file.drop offset.toNat))
  else .error (.format (.truncated part))

/-- The bytes of a section, if they lie in the file. -/
def sectionBytes? (file : ByteString) (header : SectionHeader) : Option ByteString :=
  file.slice? header.offset.toNat (header.offset.toNat + header.size.toNat)

/-- The bytes of the table of section names: those of the section that the file
header points at, if it holds strings. -/
def namesTable? (file : ByteString) (header : FileHeader) (sections : List SectionHeader) :
    Option ByteString :=
  (sections[header.shstrndx.toNat]?.filter fun descriptor =>
    descriptor.sectionType = SectionHeader.stringTableType).bind (sectionBytes? file)

/-- The name at an offset of a table: the bytes up to the first zero byte or the
end of the table.  It is empty beyond the table. -/
def nameAt (table : ByteString) (offset : Nat) : String :=
  Utf8.decodeLossy (table.drop offset).untilZero.bytes

/-- Give sections their names. -/
def nameSections (table? : Option ByteString) (sections : List SectionHeader) :
    List NamedSection :=
  sections.map fun header => ⟨(table?.map (nameAt · header.name.toNat)).getD "", header⟩

/-- Read all descriptors of an image. -/
def ofContents (file : ByteString) : Except LoadError Inspection := do
  let header ← parseHeader file
  let segments ← parseTable file .programHeader .programHeaderTable
    header.phoff header.phentsize header.phnum
  let descriptors ← parseTable file .sectionHeader .sectionHeaderTable
    header.shoff header.shentsize header.shnum
  let sections := descriptors.map SectionHeader.decode
  return ⟨header, segments.map ProgramHeader.decode,
    nameSections (namesTable? file header sections) sections⟩

/-- Read all descriptors of the image in an opened file.  A file that is no image
is not read beyond its header. -/
def ofFile (opened : Except IoFault File) : Except LoadError Inspection := do
  let file ← opened.mapError LoadError.io
  let front ← (file.front FileHeader.size).mapError LoadError.io
  let _ ← parseHeader front
  let contents ← file.contents.mapError LoadError.io
  ofContents contents

/-- The index of the first section with a name. -/
def findSection? (inspection : Inspection) (name : String) : Option Nat :=
  inspection.sections.findIdx? (·.name = name)

/-- The segments that are loaded, in file order. -/
def loadSegments (inspection : Inspection) : List ProgramHeader :=
  inspection.programHeaders.filter (·.segmentType = ProgramHeader.loadType)

end Inspection

end RiscvImage
