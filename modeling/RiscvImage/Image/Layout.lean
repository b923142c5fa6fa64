import RiscvImage.Elf.FileHeader
import RiscvImage.Elf.ProgramHeader
import RiscvImage.Elf.SectionHeader
import RiscvImage.Image.StringTable
import RiscvImage.Object

/-!
# The layout of an image

An image is a header block of fixed size followed by the text, the data and the
table of section names, without gaps:

* the file header, 52 bytes;
* two program headers, for text and data, 32 bytes each;
* four section headers, 40 bytes each: the null one, text, data and names;
* the text contents from offset 276 on;
* the data contents;
* the names.

The layout is planned from the section sizes alone, before a byte is written.
-/

namespace RiscvImage

/-- Where the entry address of an image comes from. -/
inductive EntrySource
  /-- From the label that was asked for. -/
  | label
  /-- From the beginning of the text section, since the label is missing. -/
  | textBase
  deriving DecidableEq, Repr

/-- The place of one section in an image. -/
structure Placement where
  kind : SectionKind
  /-- Offset of the section name in the table of names. -/
  name : UInt32
  address : UInt32
  offset : UInt32
  size : UInt32
  deriving DecidableEq, Repr

namespace Placement

/-- The permissions of the segment: text is read and executed, data read and
written. -/
def segmentFlags (placement : Placement) : UInt32 :=
  match placement.kind with
  | .text => ProgramHeader.readFlag ||| ProgramHeader.executeFlag
  | .data => ProgramHeader.readFlag ||| ProgramHeader.writeFlag

/-- The attributes of the section, in agreement with those of the segment. -/
def sectionFlags (placement : Placement) : UInt32 :=
  match placement.kind with
  | .text => SectionHeader.allocateFlag ||| SectionHeader.executeFlag
  | .data => SectionHeader.allocateFlag ||| SectionHeader.writeFlag

/-- The segment descriptor of a placed section. -/
def programHeader (placement : Placement) : ProgramHeader :=
  .load placement.offset placement.address placement.size placement.segmentFlags

/-- The section descriptor of a placed section. -/
def sectionHeader (placement : Placement) : SectionHeader :=
  { SectionHeader.null with
    name := placement.name
    sectionType := SectionHeader.contentsType
    flags := placement.sectionFlags
    addr := placement.address
    offset := placement.offset
    size := placement.size }

end Placement

/-- Where everything in an image is. -/
structure Layout where
  entry : UInt32
  entrySource : EntrySource
  /-- The sections in file order. -/
  placements : List Placement
  /-- Offset of the names' own section name. -/
  namesName : UInt32
  namesOffset : UInt32
  namesSize : UInt32
  /-- The number of bytes of the image. -/
  fileSize : UInt32
  deriving DecidableEq, Repr

namespace Layout

/-- The label that an image starts at unless told otherwise. -/
def defaultEntrySymbol : String :=
  "_start"

/-- The number of segments in an image. -/
def segmentCount : Nat :=
  2

/-- The number of sections in an image. -/
def sectionCount : Nat :=
  4

/-- The index of the section that holds the names. -/
def namesIndex : UInt16 :=
  3

/-- The name of the section that holds the names. -/
def namesSection : String :=
  ".strtab"

/-- The file offset of the program headers. -/
def programHeaderOffset : Nat :=
  FileHeader.size

/-- The file offset of the section headers. -/
def sectionHeaderOffset : Nat :=
  programHeaderOffset + segmentCount * DescriptorKind.programHeader.size

/-- The number of bytes before the text contents. -/
def headerBlockSize : Nat :=
  sectionHeaderOffset + sectionCount * DescriptorKind.sectionHeader.size

/-- The entry address of an object: the address of the label, or the beginning
of the text section if there is no such label. -/
def entryOf (object : Object) (entrySymbol : String) : UInt32 × EntrySource :=
  match object.findLabel? entrySymbol with
  | some address => (address, .label)
  | none => (object.text.base, .textBase)

/-- The offset after `size` bytes at `offset`, if it can be expressed. -/
def advance (offset size : UInt32) : Except WriteError UInt32 :=
  if offset.toNat + size.toNat < UInt32.size then .ok (offset + size) else .error .tooLarge

/-- Place sections one after the other from an offset on, and enter their names
in a table. -/
def place : List Section → (offset : UInt32) → StringTable →
    Except WriteError (List Placement × UInt32 × StringTable)
  | [], offset, names => .ok ([], offset, names)
  | s :: rest, offset, names => do
    let added := names.add s.kind.name
    let name ← added.answer
    let next ← advance offset s.size
    let (placements, stop, names) ← place rest next added.state
    return (⟨s.kind, name, s.base, offset, s.size⟩ :: placements, stop, names)

/-- Plan the image of an object and the table of its section names. -/
def plan (object : Object) (entrySymbol : String) :
    Except WriteError (Layout × StringTable) := do
  let (entry, entrySource) := entryOf object entrySymbol
  let (placements, namesOffset, names) ←
    place object.sections (.ofNat headerBlockSize) .empty
  let added := names.add namesSection
  let namesName ← added.answer
  let namesSize : UInt32 := .ofNat added.state.size
  let fileSize ← advance namesOffset namesSize
  return (⟨entry, entrySource, placements, namesName, namesOffset, namesSize, fileSize⟩,
    added.state)

/-- The file header of an image. -/
def fileHeader (layout : Layout) : FileHeader :=
  { FileHeader.executable layout.entry (.ofNat programHeaderOffset) (.ofNat segmentCount)
      (.ofNat sectionHeaderOffset) (.ofNat sectionCount) with
    shstrndx := namesIndex }

/-- The section descriptor of the table of names. -/
def namesHeader (layout : Layout) : SectionHeader :=
  { SectionHeader.null with
    name := layout.namesName
    sectionType := SectionHeader.stringTableType
    flags := SectionHeader.stringsFlag
    offset := layout.namesOffset
    size := layout.namesSize }

/-- The bytes before the text contents: the file header and both tables. -/
def headerBlock (layout : Layout) : List UInt8 :=
  layout.fileHeader.encode ++
    layout.placements.flatMap (fun placement => placement.programHeader.encode) ++
    SectionHeader.null.encode ++
    layout.placements.flatMap (fun placement => placement.sectionHeader.encode) ++
    layout.namesHeader.encode

end Layout

end RiscvImage
