import RiscvImage.Elf.FileHeader
import RiscvImage.Host.Fault
import RiscvImage.Memory

/-!
# Programs that cannot be loaded

Every failure to load or inspect a program has a cause and belongs to one of
five coarse categories.
-/

namespace RiscvImage

/-- The coarse category of a failure. -/
inductive LoadFailure
  /-- The file cannot be read or is too long. -/
  | file
  /-- Memory refuses a mapping. -/
  | memory
  /-- The file is no well-formed image. -/
  | invalidFormat
  /-- The image is for another machine. -/
  | invalidArchitecture
  /-- Too little of the file can be read to classify it. -/
  | formatDetection
  deriving DecidableEq, Repr

namespace LoadFailure

/-- The name of a category. -/
def name : LoadFailure → String
  | file => "File"
  | memory => "Memory"
  | invalidFormat => "InvalidFormat"
  | invalidArchitecture => "InvalidArchitecture"
  | formatDetection => "FormatDetection"

end LoadFailure

/-- Why a program is not loaded. -/
inductive LoadError
  | io (fault : IoFault)
  | tooLarge (size limit : Nat)
  | memory (error : MemoryError)
  | format (error : FormatError)
  | architecture (machine : UInt16)
  | detection (fault : IoFault)
  deriving DecidableEq, Repr

namespace LoadError

/-- The category of a failure. -/
def category : LoadError → LoadFailure
  | io _ | tooLarge .. => .file
  | memory _ => .memory
  | format _ => .invalidFormat
  | architecture _ => .invalidArchitecture
  | detection _ => .formatDetection

/-- The wording of a failure. -/
def message : LoadError → String
  | io fault => s!"I/O error: {fault.message}"
  | tooLarge size limit => s!"raw image is {size} bytes, limit is {limit}"
  | memory error => s!"memory error: {error.message}"
  | format error => s!"invalid image: {error.message}"
  | architecture machine =>
    s!"unsupported machine {Hexadecimal.plain machine.toNat}, expected RISC-V"
  | detection fault => s!"cannot detect image format: {fault.message}"

/-- A failure on account of the file header. -/
def ofHeaderFault : HeaderFault → LoadError
  | .format error => format error
  | .architecture machine => architecture machine

end LoadError

end RiscvImage
