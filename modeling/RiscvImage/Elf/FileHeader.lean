import RiscvImage.Elf.FormatError
import RiscvImage.LittleEndian

/-!
# The file header

An image file begins with 52 bytes that tell its format and machine, where
execution starts, and where the two descriptor tables are.  The fields carry the
names that the ELF specification gives them.
-/

namespace RiscvImage

/-- Why a file header is not the header of an image for this machine. -/
inductive HeaderFault
  | format (error : FormatError)
  /-- A well-formed header of an image for another machine. -/
  | architecture (machine : UInt16)
  deriving DecidableEq, Repr

/-- The file header of a 32-bit image. -/
structure FileHeader where
  /-- The first four bytes, read as a word. -/
  magic : UInt32
  fileClass : UInt8
  dataEncoding : UInt8
  identVersion : UInt8
  abi : UInt8
  abiVersion : UInt8
  fileType : UInt16
  machine : UInt16
  version : UInt32
  /-- Where execution starts. -/
  entry : UInt32
  /-- File offset of the program header table. -/
  phoff : UInt32
  /-- File offset of the section header table. -/
  shoff : UInt32
  flags : UInt32
  ehsize : UInt16
  /-- Distance between two program headers in the file. -/
  phentsize : UInt16
  /-- Number of program headers. -/
  phnum : UInt16
  /-- Distance between two section headers in the file. -/
  shentsize : UInt16
  /-- Number of section headers. -/
  shnum : UInt16
  /-- Index of the section that holds the section names. -/
  shstrndx : UInt16
  deriving DecidableEq, Repr

namespace FileHeader

/-- The encoded size. -/
def size : Nat :=
  52

/-- The bytes `7f 45 4c 46`, read as a word. -/
def elfMagic : UInt32 :=
  0x464c457f

/-- The class of 32-bit files. -/
def class32 : UInt8 :=
  1

/-- Numbers are stored least significant byte first. -/
def littleEndian : UInt8 :=
  1

/-- The version of the identification bytes. -/
def currentIdentVersion : UInt8 :=
  1

/-- The type of executable files. -/
def executableType : UInt16 :=
  2

/-- The machine number of RISC-V. -/
def riscv : UInt16 :=
  0xf3

/-- The version of the file format. -/
def currentVersion : UInt32 :=
  1

/-- The header of a RISC-V executable with the given entry and tables. -/
def executable (entry phoff : UInt32) (phnum : UInt16) (shoff : UInt32) (shnum : UInt16) :
    FileHeader where
  magic := elfMagic
  fileClass := class32
  dataEncoding := littleEndian
  identVersion := currentIdentVersion
  abi := 0
  abiVersion := 0
  fileType := executableType
  machine := riscv
  version := currentVersion
  entry := entry
  phoff := phoff
  shoff := shoff
  flags := 0
  ehsize := .ofNat size
  phentsize := .ofNat DescriptorKind.programHeader.size
  phnum := phnum
  shentsize := .ofNat DescriptorKind.sectionHeader.size
  shnum := shnum
  shstrndx := 0

open LittleEndian in
/-- The 52 bytes of a header.  The identification is filled up with zero bytes
to its sixteen bytes. -/
def encode (header : FileHeader) : List UInt8 :=
  word header.magic ++
    [header.fileClass, header.dataEncoding, header.identVersion, header.abi, header.abiVersion] ++
    List.replicate 7 0 ++
    half header.fileType ++ half header.machine ++ word header.version ++
    word header.entry ++ word header.phoff ++ word header.shoff ++ word header.flags ++
    half header.ehsize ++ half header.phentsize ++ half header.phnum ++
    half header.shentsize ++ half header.shnum ++ half header.shstrndx

open LittleEndian in
/-- The header that 52 bytes encode, whatever they are. -/
def decode (bytes : List UInt8) : FileHeader where
  magic := wordAt bytes 0
  fileClass := byteAt bytes 4
  dataEncoding := byteAt bytes 5
  identVersion := byteAt bytes 6
  abi := byteAt bytes 7
  abiVersion := byteAt bytes 8
  fileType := halfAt bytes 16
  machine := halfAt bytes 18
  version := wordAt bytes 20
  entry := wordAt bytes 24
  phoff := wordAt bytes 28
  shoff := wordAt bytes 32
  flags := wordAt bytes 36
  ehsize := halfAt bytes 40
  phentsize := halfAt bytes 42
  phnum := halfAt bytes 44
  shentsize := halfAt bytes 46
  shnum := halfAt bytes 48
  shstrndx := halfAt bytes 50

/-- The first fault of a header, if it is not that of a RISC-V executable.  The
machine is looked at last, so only a header without other faults is called one
for another machine. -/
def fault? (header : FileHeader) : Option HeaderFault :=
  if header.magic ≠ elfMagic then some (.format .invalidMagic)
  else if header.fileClass ≠ class32 then
    some (.format (.unsupportedClass header.fileClass))
  else if header.dataEncoding ≠ littleEndian then some (.format .notLittleEndian)
  else if header.identVersion ≠ currentIdentVersion then
    some (.format (.unsupportedVersion header.identVersion.toUInt32))
  else if header.fileType ≠ executableType then
    some (.format (.notExecutable header.fileType))
  else if header.version ≠ currentVersion then
    some (.format (.unsupportedVersion header.version))
  else if header.machine ≠ riscv then some (.architecture header.machine)
  else none

/-- Accept the header of a RISC-V executable. -/
def validate (header : FileHeader) : Except HeaderFault Unit :=
  match header.fault? with
  | some fault => .error fault
  | none => .ok ()

theorem length_encode (header : FileHeader) : header.encode.length = size := by
  simp [encode, size]

end FileHeader

end RiscvImage
