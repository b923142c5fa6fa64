import RiscvImage.Host.Log
import RiscvImage.Loading.Program

/-!
# Telling how a program is loaded

The log entries on loading a program.  They follow the load step by step and end
where it ends.
-/

namespace RiscvImage.Narration

/-- The entry on a region that is mapped, unless it is refused. -/
def mapping (memory : Memory) (base size : UInt32) : List LogEntry :=
  match memory.refusal? base size with
  | some _ => []
  | none =>
    [⟨.debug, "mapped memory region",
      [("base", Hexadecimal.address base), ("size", toString size.toNat)]⟩]

/-- The entries on a segment. -/
def segment (memory : Memory) (descriptor : ProgramHeader) : List LogEntry :=
  ⟨.debug, "loading segment",
    [("offset", Hexadecimal.address descriptor.offset),
      ("filesz", Hexadecimal.address descriptor.filesz),
      ("vaddr", Hexadecimal.address descriptor.vaddr),
      ("memsz", Hexadecimal.address descriptor.memsz)]⟩ ::
    mapping memory descriptor.vaddr descriptor.memsz

/-- The entry on starting the machine. -/
def reset (entry : UInt32) : LogEntry :=
  ⟨.debug, "resetting hart", [("entry", Hexadecimal.address entry)]⟩

/-- The entries on a table of descriptors. -/
def table (source : ImageSource) (stride : Nat) :
    (count : Nat) → (table : ByteString) → Memory → List LogEntry
  | 0, _, _ => []
  | count + 1, front, memory =>
    let here :=
      match ProgramHeader.atFront front with
      | .ok (some descriptor) => segment memory descriptor
      | _ => []
    let loaded := memory.loadFront source front
    match loaded.answer with
    | .error _ => here
    | .ok _ => here ++ table source stride count (front.drop stride) loaded.state

/-- The entries on loading an image. -/
def image (machine : Machine) (source : ImageSource) : List LogEntry :=
  match readHeader source.contents with
  | .error _ => []
  | .ok header =>
    let walked :=
      table source header.phentsize.toNat header.phnum.toNat
        (source.contents.drop header.phoff.toNat) machine.memory
    match (machine.loadImage source).answer with
    | .error _ => walked
    | .ok entry =>
      walked ++
        [⟨.debug, "setting the entry point", [("entry", Hexadecimal.address entry)]⟩, reset entry]

/-- The entries on loading a raw binary. -/
def raw (machine : Machine) (path : String) (file : File) (options : LoadOptions) :
    List LogEntry :=
  let begun : LogEntry :=
    ⟨.debug, "loading raw binary file",
      [("path", path), ("base", Hexadecimal.address options.rawBase)]⟩
  let loaded := machine.loadRaw (.ok file) options.rawBase options.rawEntry options.maxRawSize
  let mapped :=
    if loaded.state.memory.regions.length = machine.memory.regions.length then []
    else mapping machine.memory options.rawBase (.ofNat file.length)
  match loaded.answer with
  | .error _ => begun :: mapped
  | .ok _ => begun :: mapped ++ [reset options.rawEntry]

/-- The entries on loading a program. -/
def program (machine : Machine) (path : String) (opened : Except IoFault File)
    (options : LoadOptions) : List LogEntry :=
  let steps :=
    match ProgramFormat.detect opened, opened with
    | .ok .elf, .ok file =>
      ⟨.debug, "loading ELF file", [("path", path)]⟩ ::
        (match file.contents with
        | .ok contents => image machine (.file contents)
        | .error _ => [])
    | .ok .raw, .ok file => raw machine path file options
    | _, _ => []
  match (machine.loadProgram opened options).answer with
  | .error _ => steps
  | .ok loaded =>
    steps ++
      [⟨.info, "program loaded",
        [("path", path), ("format", loaded.format.name),
          ("entry", Hexadecimal.address loaded.entry)]⟩]

end RiscvImage.Narration
