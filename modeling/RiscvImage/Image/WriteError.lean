import RiscvImage.Host.Fault

/-!
# Images that cannot be written
-/

namespace RiscvImage

/-- Why an image is not written. -/
inductive WriteError
  | io (fault : IoFault)
  /-- The image would be longer than file offsets can express. -/
  | tooLarge
  /-- Padding with instructions that is not a whole number of words. -/
  | raggedPadding (size : UInt32)
  deriving DecidableEq, Repr

namespace WriteError

/-- The wording of a failure. -/
def message : WriteError → String
  | io fault => s!"I/O error: {fault.message}"
  | tooLarge => "image layout exceeds 32-bit file offsets"
  | raggedPadding size =>
    s!"NOP alignment padding of {size.toNat} bytes is not a whole number of words"

end WriteError

end RiscvImage
