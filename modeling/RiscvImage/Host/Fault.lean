/-!
# Faults of the host

What can go wrong between the program and the files it reads and writes.
-/

namespace RiscvImage

/-- Why reading or writing failed. -/
inductive IoFault
  | notFound
  | notADirectory
  | isADirectory
  /-- A path or one of its components is longer than the host takes. -/
  | nameTooLong
  /-- A path holds a character that the host takes for its end. -/
  | zeroInPath
  /-- The file ended before the bytes asked for. -/
  | unexpectedEnd
  /-- The destination took only a part of the bytes. -/
  | noRoom
  /-- Any other fault, in the host's words. -/
  | other (description : String)
  deriving DecidableEq, Repr

namespace IoFault

/-- The wording of a fault, with the number under which the host knows it. -/
def message : IoFault → String
  | notFound => "No such file or directory (os error 2)"
  | notADirectory => "Not a directory (os error 20)"
  | isADirectory => "Is a directory (os error 21)"
  | nameTooLong => "File name too long (os error 36)"
  | zeroInPath => "file name contained an unexpected NUL byte"
  | unexpectedEnd => "failed to fill whole buffer"
  | noRoom => "failed to write whole buffer"
  | other description => description

end IoFault

end RiscvImage
