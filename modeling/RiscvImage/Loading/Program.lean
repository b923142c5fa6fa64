import RiscvImage.Loading.Segments

/-!
# Loading programs

A program is an image if its file begins with the magic bytes of images, and a
raw binary otherwise.  A raw binary is mapped as one region at an address that
the caller chooses, and is turned down before anything is mapped if it is too
long.
-/

namespace RiscvImage

/-- The formats of program files. -/
inductive ProgramFormat
  | elf
  /-- The bytes of memory without any header. -/
  | raw
  deriving DecidableEq, Repr

namespace ProgramFormat

/-- How a format is called. -/
def name : ProgramFormat → String
  | elf => "ELF"
  | raw => "raw binary"

/-- Classify an opened file by its first four bytes.  A file without four bytes
has no format. -/
def detect (opened : Except IoFault File) : Except LoadError ProgramFormat :=
  match opened.bind (File.frontExact · 4) with
  | .error fault => .error (.detection fault)
  | .ok magic => .ok (if magic.bytes = LittleEndian.word FileHeader.elfMagic then elf else raw)

end ProgramFormat

/-- How raw binaries are loaded. -/
structure LoadOptions where
  /-- The address of the first byte. -/
  rawBase : UInt32
  /-- Where execution starts, if not at the first byte. -/
  rawEntry? : Option UInt32
  /-- The largest length accepted. -/
  maxRawSize : Nat
  deriving DecidableEq, Repr

namespace LoadOptions

/-- The largest length of a raw binary unless told otherwise: 128 mebibytes. -/
def defaultMaxRawSize : Nat :=
  0x08000000

/-- Load at address zero and start there, at the usual largest length. -/
def usual : LoadOptions :=
  ⟨0, none, defaultMaxRawSize⟩

/-- Where the execution of a raw binary starts. -/
def rawEntry (options : LoadOptions) : UInt32 :=
  options.rawEntry?.getD options.rawBase

end LoadOptions

/-- What was loaded and where it starts. -/
structure LoadedProgram where
  format : ProgramFormat
  entry : UInt32
  deriving DecidableEq, Repr

namespace Machine

/-- Map a file as one region, without reading it if there is no place for it.  A
file that can be mapped and not be read leaves an empty region. -/
def mapFile (machine : Machine) (file : File) (base : UInt32) : Outcome LoadError Machine Unit :=
  let size : UInt32 := .ofNat file.length
  match machine.memory.refusal? base size with
  | some error => ⟨.error (.memory error), machine⟩
  | none =>
    let filled (contents : ByteString) : Machine :=
      { machine with memory := machine.memory.insert ⟨base, contents⟩ }
    match file.contents with
    | .ok contents => ⟨.ok (), filled contents⟩
    | .error fault => ⟨.error (.io fault), filled (.zero file.length)⟩

/-- Load a raw binary of at most `maxSize` bytes at `base` and start the machine
at `entry`.  An empty file maps nothing. -/
def loadRaw (machine : Machine) (opened : Except IoFault File) (base entry : UInt32)
    (maxSize : Nat) : Outcome LoadError Machine Unit :=
  match opened with
  | .error fault => ⟨.error (.io fault), machine⟩
  | .ok file =>
    let size := file.length
    if maxSize < size ∨ addressSpace ≤ size then ⟨.error (.tooLarge size maxSize), machine⟩
    else
      let mapped := if size = 0 then ⟨.ok (), machine⟩ else machine.mapFile file base
      mapped.andThen fun _ machine => ⟨.ok (), machine.reset entry⟩

/-- Load a program in whichever format it has. -/
def loadProgram (machine : Machine) (opened : Except IoFault File) (options : LoadOptions) :
    Outcome LoadError Machine LoadedProgram :=
  match ProgramFormat.detect opened with
  | .error error => ⟨.error error, machine⟩
  | .ok .elf => (machine.loadImageFile opened).map fun entry => ⟨.elf, entry⟩
  | .ok .raw =>
    (machine.loadRaw opened options.rawBase options.rawEntry options.maxRawSize).map fun _ =>
      ⟨.raw, options.rawEntry⟩

end Machine

end RiscvImage
