import RiscvImage.CommandLine.Grammar
import RiscvImage.Loading.Program
import RiscvImage.Packing

/-!
# Commands

The four commands of the program, what each accepts on the command line, and how
much is said while it is carried out.
-/

namespace RiscvImage.CommandLine

/-- What the program is asked to do. -/
inductive Command
  | pack (options : PackOptions) (output : String)
  | load (path : String) (options : LoadOptions)
  | inspect (path : String)
  | detect (path : String)
  deriving DecidableEq, Repr

/-- A command with the wishes on how much to say. -/
structure Invocation where
  verbose : Bool
  silent : Bool
  command : Command
  deriving DecidableEq, Repr

namespace Invocation

/-- The least important level that is still logged. -/
def level (invocation : Invocation) : LogLevel :=
  if invocation.verbose then .debug else if invocation.silent then .error else .info

end Invocation

/-- How the program is called. -/
def programName : String :=
  "rvx"

/-- What the program is for. -/
def programSummary : String :=
  "RISC-V executable images - pack, load, and inspect ELF32 files"

/-- The version of the program. -/
def programVersion : String :=
  "0.1.0"

namespace Parameter

/-- A flag with a letter. -/
def flag (name : String) (letter : Char) : Parameter :=
  ⟨name, some letter, none, false, false⟩

/-- An option that may be left out. -/
def option (name : String) (kind : ValueKind) (value : String) : Parameter :=
  ⟨name, none, some (kind, value), false, false⟩

/-- The path that a command works on. -/
def input (value : String) : Parameter :=
  ⟨"input", none, some (.path, value), true, true⟩

/-- Ask for more to be said. -/
def verbose : Parameter :=
  flag "verbose" 'v'

/-- Ask for less to be said. -/
def silent : Parameter :=
  flag "silent" 's'

/-- Ask how the program is used. -/
def help : Parameter :=
  flag "help" 'h'

/-- Ask for the version. -/
def version : Parameter :=
  flag "version" 'V'

end Parameter

namespace Grammar

/-- The flags that cannot be given together. -/
def exclusive : List String :=
  ["verbose", "silent"]

/-- The flags that every command accepts. -/
def shared : List Parameter :=
  [.verbose, .silent, .help]

/-- What comes before the command. -/
def program : Grammar :=
  ⟨shared ++ [.version], [], ["pack", "load", "inspect", "detect", "help"]⟩

/-- What `pack` accepts. -/
def pack : Grammar where
  named :=
    [{ Parameter.option "text" .path "FILE" with required := true },
      .option "text-base" .address "ADDR",
      .option "data" .path "FILE",
      .option "data-base" .address "ADDR",
      .option "bss" .word "BYTES",
      .option "entry" .address "ADDR",
      .option "entry-symbol" .text "NAME",
      { Parameter.option "output" .path "OUT" with letter? := some 'o', required := true }] ++
      shared
  positional := []
  commands := []

/-- What `load` accepts. -/
def load : Grammar where
  named :=
    [.option "base" .address "ADDR", .option "entry" .address "ADDR",
      .option "max-raw-size" .long "BYTES"] ++ shared
  positional := [.input "FILE"]
  commands := []

/-- What `inspect` accepts. -/
def inspect : Grammar :=
  ⟨shared, [.input "ELF"], []⟩

/-- What `detect` accepts. -/
def detect : Grammar :=
  ⟨shared, [.input "FILE"], []⟩

end Grammar

namespace Progress

/-- The address given for a parameter. -/
def address? (progress : Progress) (name : String) : Option UInt32 :=
  (progress.number? name).map .ofNat

/-- The path that the command works on. -/
def input (progress : Progress) : String :=
  (progress.text? "input").getD ""

end Progress

namespace Command

/-- The command `pack` as it was given. -/
def ofPack (given : Progress) : Command :=
  let text := (given.text? "text").getD ""
  let usual := PackOptions.ofText text
  .pack
    { text
      textBase := (given.address? "text-base").getD usual.textBase
      data? := given.text? "data"
      dataBase := (given.address? "data-base").getD usual.dataBase
      bss := (given.address? "bss").getD usual.bss
      entry? := given.address? "entry"
      entrySymbol := (given.text? "entry-symbol").getD usual.entrySymbol }
    ((given.text? "output").getD "")

/-- The command `load` as it was given. -/
def ofLoad (given : Progress) : Command :=
  let usual := LoadOptions.usual
  .load given.input
    { rawBase := (given.address? "base").getD usual.rawBase
      rawEntry? := given.address? "entry"
      maxRawSize := (given.number? "max-raw-size").getD usual.maxRawSize }

/-- The grammar of the command with a name, and how to make the command out of
what was given. -/
def named? : String → Option (Grammar × (Progress → Command))
  | "pack" => some (.pack, ofPack)
  | "load" => some (.load, ofLoad)
  | "inspect" => some (.inspect, fun given => .inspect given.input)
  | "detect" => some (.detect, fun given => .detect given.input)
  | _ => none

end Command

namespace Invocation

/-- Whether help is to be had on the commands named. -/
def help : List String → Stop
  | [] => .help
  | name :: rest =>
    if name ∉ Grammar.program.commands then .usage (.unknownCommand name)
    else
      match rest with
      | [] => .help
      | nested :: _ => .usage (.unknownCommand nested)

/-- Understand a command line.  The command is read to its end before what stands
in front of it is checked. -/
def parse (arguments : List String) : Except Stop Invocation := do
  let (before, found?) ← Grammar.program.take Grammar.program.start arguments
  match found? with
  | none =>
    let before ← before.settle
    throw (if before.given.isEmpty then .nothingGiven else .usage (.missingCommand programName))
  | some (name, rest) =>
    match Command.named? name with
    | none => throw (help rest)
    | some (grammar, command) =>
      let (given, _) ← grammar.take grammar.start rest
      let given ← grammar.finish Grammar.exclusive given
      let before ← Grammar.program.finish Grammar.exclusive before
      return {
        verbose := before.has "verbose" || given.has "verbose"
        silent := before.has "silent" || given.has "silent"
        command := command given }

end Invocation

end RiscvImage.CommandLine
