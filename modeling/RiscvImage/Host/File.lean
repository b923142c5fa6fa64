import RiscvImage.Host.Fault
import RiscvImage.ByteString.Window

/-!
# Opened files

What a path leads to when it is opened for reading.  A file's length is known
before its bytes are read, so a file can be turned down for its length without
being read.
-/

namespace RiscvImage

/-- What a path leads to. -/
inductive File
  /-- A file of bytes. -/
  | regular (contents : ByteString)
  /-- A directory, which can be opened and has a length but cannot be read. -/
  | directory (length : Nat)
  deriving DecidableEq, Repr

namespace File

/-- The length that the host reports. -/
def length : File → Nat
  | regular contents => contents.length
  | directory length => length

/-- What a file holds. -/
def contents : File → Except IoFault ByteString
  | regular contents => .ok contents
  | directory _ => .error .isADirectory

/-- At most the first `count` bytes of a file. -/
def front (file : File) (count : Nat) : Except IoFault ByteString :=
  file.contents.map (·.take count)

/-- The first `count` bytes of a file that has as many. -/
def frontExact (file : File) (count : Nat) : Except IoFault ByteString :=
  match file.front count with
  | .error fault => .error fault
  | .ok front => if front.length = count then .ok front else .error .unexpectedEnd

end File

end RiscvImage
