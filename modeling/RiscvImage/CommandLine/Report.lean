import RiscvImage.CommandLine.Command
import RiscvImage.Elf.Inspection
import RiscvImage.Loading.Narration

/-!
# Carrying out commands

Every command is a session that ends with an exit status.  Results are lines of
output; what else there is to say goes to the user's terminal or into the log.
-/

namespace RiscvImage.CommandLine

/-- The exit status of a command that did its work. -/
def exitSuccess : UInt32 :=
  0

/-- The exit status of a command that failed. -/
def exitFailure : UInt32 :=
  1

/-- The exit status for a command line that is not understood. -/
def exitUsage : UInt32 :=
  2

/-- A text filled up with blanks on the right. -/
def padRight (width : Nat) (text : String) : String :=
  text ++ String.ofList (List.replicate (width - text.length) ' ')

/-- A line with a label in front of a value. -/
def fieldLine (label value : String) : String :=
  s!"  {padRight 12 label} {value}"

/-- Write lines of output. -/
def outputAll (lines : List String) : Session Unit :=
  .tellAll (lines.map .output)

/-- A size or a file offset, as six digits. -/
def shortHex (value : UInt32) : String :=
  Hexadecimal.padded 6 value.toNat

/-- The line on a mapped region. -/
def regionLine (region : Region) : String :=
  let stop := Hexadecimal.padded 8 region.stop
  fieldLine "region"
    s!"{Hexadecimal.address region.base}..{stop} ({region.size.toNat} bytes)"

/-- The lines on a machine after a load. -/
def machineLines (machine : Machine) (entry : UInt32) : List String :=
  [fieldLine "entry" (Hexadecimal.address entry),
    fieldLine "pc" (Hexadecimal.address machine.pc),
    fieldLine "mapped" s!"{machine.memory.mapped.toNat} bytes"] ++
    machine.memory.regions.map regionLine

/-- How a segment type is called. -/
def segmentTypeName (segmentType : UInt32) : String :=
  if segmentType = ProgramHeader.nullType then "NULL"
  else if segmentType = ProgramHeader.loadType then "LOAD"
  else if segmentType = ProgramHeader.noteType then "NOTE"
  else "OTHER"

/-- The permissions of a segment as three letters, with a dash for each one that
is missing. -/
def permissions (flags : UInt32) : String :=
  let letter (flag : UInt32) (shown : Char) : Char := if flags &&& flag = 0 then '-' else shown
  String.ofList
    [letter ProgramHeader.readFlag 'R', letter ProgramHeader.writeFlag 'W',
      letter ProgramHeader.executeFlag 'X']

/-- The line on a segment. -/
def segmentLine (header : ProgramHeader) : String :=
  " ".intercalate
    ["", padRight 7 s!" {segmentTypeName header.segmentType}",
      s!"off={shortHex header.offset}", s!"vaddr={Hexadecimal.address header.vaddr}",
      s!"filesz={shortHex header.filesz}", s!"memsz={shortHex header.memsz}",
      permissions header.flags]

/-- The line on the section with an index. -/
def sectionLine (named : NamedSection) (index : Nat) : String :=
  let header := named.header
  " ".intercalate
    ["", s!" [{index}]", padRight 8 named.name, s!"type={header.sectionType.toNat}",
      s!"flags={Hexadecimal.plain header.flags.toNat}",
      s!"addr={Hexadecimal.address header.addr}", s!"off={shortHex header.offset}",
      s!"size={shortHex header.size}"]

/-- The lines on an image. -/
def inspectionLines (inspection : Inspection) : List String :=
  let header := inspection.header
  ["ELF header",
    fieldLine "entry" (Hexadecimal.address header.entry),
    fieldLine "machine" (Hexadecimal.plain header.machine.toNat),
    fieldLine "phoff" (toString header.phoff.toNat),
    fieldLine "shoff" (toString header.shoff.toNat),
    fieldLine "phnum" (toString header.phnum.toNat),
    fieldLine "shnum" (toString header.shnum.toNat),
    fieldLine "shstrndx" (toString header.shstrndx.toNat),
    "Program headers"] ++
    inspection.programHeaders.map segmentLine ++
    ["Sections"] ++
    inspection.sections.zipIdx.map fun (named, index) => sectionLine named index

namespace Command

/-- Log a failure to load or to inspect. -/
def logLoadError (message path : String) (error : LoadError) : Session Unit :=
  Session.log .error message
    [("error", error.message), ("kind", error.category.name), ("path", path)]

/-- Write an image and say where. -/
def carryOutPack (options : PackOptions) (output : String) : Session UInt32 := do
  match ← (options.pack output).run with
  | .error error =>
    Session.log .error "failed to write image" [("error", error.message), ("path", output)]
    return exitFailure
  | .ok layout =>
    let size := layout.fileSize.toNat
    Session.tell
      (.status s!"✓ wrote {output} ({size} bytes, entry {Hexadecimal.address layout.entry})")
    return exitSuccess

/-- Load a program into a new machine and show what is mapped. -/
def carryOutLoad (path : String) (options : LoadOptions) : Session UInt32 := do
  let opened ← Session.openFile path
  Session.tellAll ((Narration.program Machine.initial path opened options).map .log)
  let loaded := Machine.initial.loadProgram opened options
  match loaded.answer with
  | .error error =>
    logLoadError "failed to load program" path error
    return exitFailure
  | .ok program =>
    Session.tell (.status s!"✓ loaded {path} as {program.format.name}")
    outputAll (machineLines loaded.state program.entry)
    if loaded.state.memory.isEmpty then
      Session.tell (.status "→ nothing was mapped")
    return exitSuccess

/-- Show the descriptors of an image. -/
def carryOutInspect (path : String) : Session UInt32 := do
  match Inspection.ofFile (← Session.openFile path) with
  | .error error =>
    Session.tell (.status s!"✗ {path} is not a loadable image")
    logLoadError "failed to parse ELF" path error
    return exitFailure
  | .ok inspection =>
    outputAll (inspectionLines inspection)
    return exitSuccess

/-- Show the format of a file. -/
def carryOutDetect (path : String) : Session UInt32 := do
  match ProgramFormat.detect (← Session.openFile path) with
  | .error error =>
    Session.log .error "format detection failed" [("error", error.message), ("path", path)]
    return exitFailure
  | .ok format =>
    Session.tell (.output s!"{path}: {format.name}")
    return exitSuccess

/-- Carry out a command. -/
def carryOut : Command → Session UInt32
  | .pack options output => carryOutPack options output
  | .load path options => carryOutLoad path options
  | .inspect path => carryOutInspect path
  | .detect path => carryOutDetect path

end Command

end RiscvImage.CommandLine
