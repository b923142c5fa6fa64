import RiscvImage.Host.File
import RiscvImage.Loading.LoadError
import RiscvImage.Loading.Source
import RiscvImage.Elf.ProgramHeader
import RiscvImage.Machine

/-!
# Loading segments

An image is loaded by walking its program header table.  Every descriptor of a
loaded segment maps one region, which begins with the segment's bytes in the
file.  The walk stops at the first descriptor that fails and leaves in place what
was mapped until then; only a walk without failures resets the machine.
-/

namespace RiscvImage

/-- The file header of an image whose program header table can be walked. -/
def readHeader (file : ByteString) : Except LoadError FileHeader :=
  match file.window? 0 FileHeader.size with
  | none => .error (.format (.truncated .fileHeader))
  | some front =>
    let header := FileHeader.decode front.bytes
    match header.validate with
    | .error fault => .error (.ofHeaderFault fault)
    | .ok () =>
      if 0 < header.phnum ∧ header.phentsize.toNat < DescriptorKind.programHeader.size then
        .error (.format (.entrySize .programHeader header.phentsize))
      else .ok header

namespace ProgramHeader

/-- The descriptor at the front of a table, if it asks for a segment to be loaded.
Unused entries and notes do not; other types are not supported. -/
def atFront (table : ByteString) : Except FormatError (Option ProgramHeader) :=
  match table.window? 0 DescriptorKind.programHeader.size with
  | none => .error (.truncated .programHeader)
  | some front =>
    let descriptor := decode front.bytes
    if descriptor.segmentType = nullType ∨ descriptor.segmentType = noteType then .ok none
    else if descriptor.segmentType = loadType then .ok (some descriptor)
    else .error (.unsupportedSegment descriptor.segmentType)

/-- The number of bytes that are taken from the file: not more than the segment
has in memory. -/
def payloadSize (descriptor : ProgramHeader) : Nat :=
  min descriptor.filesz.toNat descriptor.memsz.toNat

/-- The bytes of a segment in the file.  A segment without file bytes has none,
wherever its offset points. -/
def payload (descriptor : ProgramHeader) (file : ByteString) : Except FormatError ByteString :=
  if descriptor.filesz = 0 then .ok .empty
  else
    match file.window? descriptor.offset.toNat descriptor.payloadSize with
    | some bytes => .ok bytes
    | none => .error (.truncated .segmentContents)

/-- What is delivered of the bytes of a segment that end beyond the source. -/
def remnant (descriptor : ProgramHeader) (source : ImageSource) : ByteString :=
  source.remnant descriptor.offset.toNat descriptor.payloadSize

end ProgramHeader

namespace Memory

/-- Map a segment and fill it from its source.  Memory is mapped before the source is
read, so a segment whose bytes are missing leaves a region with what was delivered of
them. -/
def loadSegment (memory : Memory) (source : ImageSource) (descriptor : ProgramHeader) :
    Outcome LoadError Memory Unit :=
  if descriptor.memsz = 0 then ⟨.ok (), memory⟩
  else
    match memory.refusal? descriptor.vaddr descriptor.memsz with
    | some error => ⟨.error (.memory error), memory⟩
    | none =>
      let filled (bytes : ByteString) : Memory :=
        memory.insert ⟨descriptor.vaddr, bytes.padded descriptor.memsz.toNat⟩
      match descriptor.payload source.contents with
      | .ok bytes => ⟨.ok (), filled bytes⟩
      | .error error => ⟨.error (.format error), filled (descriptor.remnant source)⟩

/-- Load what the descriptor at the front of a table asks for. -/
def loadFront (memory : Memory) (source : ImageSource) (table : ByteString) :
    Outcome LoadError Memory Unit :=
  match ProgramHeader.atFront table with
  | .error error => ⟨.error (.format error), memory⟩
  | .ok none => ⟨.ok (), memory⟩
  | .ok (some descriptor) => memory.loadSegment source descriptor

/-- Load what a table of `count` descriptors asks for, which stand `stride` bytes
apart. -/
def loadTable (source : ImageSource) (stride : Nat) :
    (count : Nat) → (table : ByteString) → Memory → Outcome LoadError Memory Unit
  | 0, _, memory => ⟨.ok (), memory⟩
  | count + 1, table, memory =>
    (memory.loadFront source table).andThen fun _ memory =>
      loadTable source stride count (table.drop stride) memory

/-- Load the segments of an image. -/
def loadSegments (memory : Memory) (source : ImageSource) (header : FileHeader) :
    Outcome LoadError Memory Unit :=
  loadTable source header.phentsize.toNat header.phnum.toNat
    (source.contents.drop header.phoff.toNat) memory

end Memory

namespace Machine

/-- Load an image, start the machine at its entry address and answer it. -/
def loadImage (machine : Machine) (source : ImageSource) : Outcome LoadError Machine UInt32 :=
  match readHeader source.contents with
  | .error error => ⟨.error error, machine⟩
  | .ok header =>
    (machine.onMemory (·.loadSegments source header)).andThen
      fun _ machine => ⟨.ok header.entry, machine.reset header.entry⟩

/-- Load the image in an opened file.  The header is read first, so a file that is
no image is not read any further. -/
def loadImageFile (machine : Machine) (opened : Except IoFault File) :
    Outcome LoadError Machine UInt32 :=
  let contents : Except LoadError ByteString := do
    let file ← opened.mapError LoadError.io
    let front ← (file.front FileHeader.size).mapError LoadError.io
    let _ ← readHeader front
    file.contents.mapError LoadError.io
  match contents with
  | .error error => ⟨.error error, machine⟩
  | .ok contents => machine.loadImage (.file contents)

end Machine

end RiscvImage
