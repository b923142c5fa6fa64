import RiscvImage.Address
import RiscvImage.Text.Styled

/-!
# Command-line grammar

A command line consists of flags, of options with a value, and of positional
values.  A value follows its option, or is attached to it: `--base 10`,
`--base=10`, `-o out` and `-oout` are all accepted.  After `--` everything is
positional.

A value is held back until the next flag or option, or the end, and only then
read, so a command line with several faults is answered for the first that comes
to light in this order.
-/

namespace RiscvImage.CommandLine

/-- How the value of a parameter is read. -/
inductive ValueKind
  /-- A hexadecimal address. -/
  | address
  /-- A decimal number below `2 ^ 32`. -/
  | word
  /-- A decimal number below `2 ^ 64`. -/
  | long
  /-- Any text. -/
  | text
  /-- Any text except the empty one. -/
  | path
  deriving DecidableEq, Repr

/-- The value of a parameter. -/
inductive Value
  | flag
  | number (number : Nat)
  | text (text : String)
  deriving DecidableEq, Repr

/-- Something that a command line can give. -/
structure Parameter where
  /-- The long name, or the name within the program for a positional value. -/
  name : String
  /-- The letter that stands for the long name. -/
  letter? : Option Char
  /-- The value and how it is called; a flag has none. -/
  value? : Option (ValueKind × String)
  /-- Whether it is given by its place alone. -/
  positional : Bool
  /-- Whether it has to be given. -/
  required : Bool
  deriving DecidableEq, Repr

namespace Parameter

/-- How a parameter is called in messages. -/
def shown (parameter : Parameter) : String :=
  match parameter.value? with
  | none => s!"--{parameter.name}"
  | some (_, value) =>
    if parameter.positional then s!"<{value}>" else s!"--{parameter.name} <{value}>"

end Parameter

/-- Why a command line is not understood. -/
inductive UsageError
  | unknownArgument (argument : String)
  | unknownCommand (name : String)
  | missingCommand (program : String)
  | missingValue (parameter : Parameter)
  | invalidValue (parameter : Parameter) (value reason : String)
  | unexpectedValue (parameter : Parameter) (value : String)
  | repeated (parameter : Parameter)
  | conflict (first second : Parameter)
  | missingArguments
  deriving DecidableEq, Repr

namespace UsageError

/-- What is wrong.  What the user wrote stands out, except inside the reason for
which a value is refused. -/
def message : UsageError → List Span
  | unknownArgument argument => [.plain "unexpected argument '", .marked argument, .plain "' found"]
  | unknownCommand name => [.plain "unrecognized subcommand '", .marked name, .plain "'"]
  | missingCommand program =>
    [.plain "'", .marked program,
      .plain "' requires a subcommand but one was not provided"]
  | missingValue parameter =>
    [.plain "a value is required for '", .marked parameter.shown,
      .plain "' but none was supplied"]
  | invalidValue parameter value reason =>
    [.plain "invalid value '", .marked value, .plain "' for '", .marked parameter.shown,
      .plain s!"': {reason}"]
  | unexpectedValue parameter value =>
    [.plain "unexpected value '", .marked value, .plain "' for '", .marked parameter.shown,
      .plain "' found; no more were expected"]
  | repeated parameter =>
    [.plain "the argument '", .marked parameter.shown,
      .plain "' cannot be used multiple times"]
  | conflict first second =>
    [.plain "the argument '", .marked first.shown, .plain "' cannot be used with '",
      .marked second.shown, .plain "'"]
  | missingArguments => [.plain "the following required arguments were not provided:"]

/-- The whole message, which ends by pointing to the help. -/
def report (error : UsageError) : List Span :=
  [.marked "error:", .plain " "] ++ error.message ++
    [.plain "\n\nFor more information, try '", .marked "--help", .plain "'."]

end UsageError

/-- How a command line ends before there is a command to carry out. -/
inductive Stop
  | usage (error : UsageError)
  /-- Nothing at all was given where a command is needed. -/
  | nothingGiven
  | help
  | version
  deriving DecidableEq, Repr

namespace ValueKind

/-- Read a decimal number of at most `bound`, or say why there is none.  A number
is read as a signed one first, so that it can be called out of range. -/
def readWord (bound : Nat) (text : String) : Except String Nat :=
  match Numeral.readSigned 10 (UInt64.size / 2 - 1) text.toList with
  | .error reason => .error reason.message
  | .ok number =>
    if 0 ≤ number ∧ number ≤ bound then .ok number.toNat
    else .error s!"{number} is not in 0..={bound}"

end ValueKind

namespace Parameter

/-- Read a value of the parameter. -/
def read (parameter : Parameter) (kind : ValueKind) (text : String) : Except UsageError Value :=
  match kind with
  | .address =>
    ((Address.ofText text).mapError (.invalidValue parameter text)).map (.number ·.toNat)
  | .word =>
    ((ValueKind.readWord (UInt32.size - 1) text).mapError
      (.invalidValue parameter text)).map .number
  | .long =>
    ((Numeral.read 10 (UInt64.size - 1) text.toList).mapError fun reason =>
      .invalidValue parameter text reason.message).map .number
  | .text => .ok (.text text)
  | .path => if text = "" then .error (.missingValue parameter) else .ok (.text text)

end Parameter

/-- What a command accepts. -/
structure Grammar where
  /-- The flags and options. -/
  named : List Parameter
  /-- The values given by their place. -/
  positional : List Parameter
  /-- The names of the commands that may follow. -/
  commands : List String
  deriving DecidableEq, Repr

/-- What has been understood of a command line so far. -/
structure Progress where
  /-- The parameters read, in order, with their values. -/
  given : List (Parameter × Value)
  /-- A parameter whose value is held back or, without one, still to come. -/
  pending? : Option (Parameter × Option String)
  /-- The positional parameters that have not been given. -/
  places : List Parameter
  /-- Whether everything from here on is positional. -/
  trailing : Bool
  deriving DecidableEq, Repr

namespace Progress

/-- Whether a parameter has been read. -/
def has (progress : Progress) (name : String) : Bool :=
  progress.given.any (·.1.name = name)

/-- Record a value.  No parameter is given twice. -/
def record (progress : Progress) (parameter : Parameter) (value : Except UsageError Value) :
    Except Stop Progress :=
  if progress.has parameter.name then .error (.usage (.repeated parameter))
  else
    match value with
    | .error error => .error (.usage error)
    | .ok value => .ok { progress with given := progress.given ++ [(parameter, value)] }

/-- Read the value that is held back. -/
def settle (progress : Progress) : Except Stop Progress :=
  match progress.pending? with
  | none => .ok progress
  | some (parameter, text?) =>
    let progress := { progress with pending? := none }
    match text?, parameter.value? with
    | some text, some (kind, _) => progress.record parameter (parameter.read kind text)
    | _, _ => .error (.usage (.missingValue parameter))

/-- Take a flag.  Asking for help or for the version ends the command line. -/
def flag (progress : Progress) (parameter : Parameter) : Except Stop Progress := do
  let progress ← progress.settle
  if parameter.name = "help" then throw .help
  else if parameter.name = "version" then throw .version
  else progress.record parameter (.ok .flag)

/-- Take an option, with its value if that is attached. -/
def option (progress : Progress) (parameter : Parameter) (kind : ValueKind)
    (attached? : Option String) : Except Stop Progress := do
  let progress ← progress.settle
  match attached? with
  | some text => progress.record parameter (parameter.read kind text)
  | none => return { progress with pending? := some (parameter, none) }

/-- Take a long name, with the text after the equals sign if there is one. -/
def long (progress : Progress) (grammar : Grammar) (name : String) (attached? : Option String) :
    Except Stop Progress :=
  match grammar.named.find? (·.name = name) with
  | none => .error (.usage (.unknownArgument s!"--{name}"))
  | some parameter =>
    match parameter.value?, attached? with
    | some (kind, _), _ => progress.option parameter kind attached?
    | none, some text => .error (.usage (.unexpectedValue parameter text))
    | none, none => progress.flag parameter

/-- Take letters: flags, up to an option that has the rest as its value. -/
def letters (progress : Progress) (grammar : Grammar) : List Char → Except Stop Progress
  | [] => .ok progress
  | letter :: rest =>
    match grammar.named.find? (·.letter? = some letter) with
    | none => .error (.usage (.unknownArgument s!"-{letter}"))
    | some parameter =>
      match parameter.value?, rest with
      | none, _ => do
        let progress ← progress.flag parameter
        progress.letters grammar rest
      | some (kind, _), [] => progress.option parameter kind none
      | some (kind, _), '=' :: text => progress.option parameter kind (some (String.ofList text))
      | some (kind, _), text => progress.option parameter kind (some (String.ofList text))

/-- Take a positional value. -/
def position (progress : Progress) (grammar : Grammar) (text : String) :
    Except Stop Progress :=
  match progress.places with
  | parameter :: places => do
    let progress ← progress.settle
    return { progress with pending? := some (parameter, some text), places }
  | [] =>
    if grammar.commands = [] ∨ (progress.trailing ∧ text ∈ grammar.commands) then
      .error (.usage (.unknownArgument text))
    else .error (.usage (.unknownCommand text))

/-- Take one argument. -/
def argument (progress : Progress) (grammar : Grammar) (text : String) :
    Except Stop Progress :=
  if progress.trailing then progress.position grammar text
  else
    match text.toList with
    | ['-', '-'] => .ok { progress with trailing := true }
    | '-' :: '-' :: body =>
      let name := String.ofList (body.takeWhile (· ≠ '='))
      match body.dropWhile (· ≠ '=') with
      | [] => progress.long grammar name none
      | _ :: attached => progress.long grammar name (some (String.ofList attached))
    | '-' :: letter :: body => progress.letters grammar (letter :: body)
    | _ =>
      match progress.pending? with
      | some (parameter, none) => .ok { progress with pending? := some (parameter, some text) }
      | _ => progress.position grammar text

/-- Whether an option still waits for its value. -/
def awaits (progress : Progress) : Bool :=
  match progress.pending? with
  | some (_, none) => true
  | _ => false

end Progress

namespace Grammar

/-- Nothing has been read yet. -/
def start (grammar : Grammar) : Progress :=
  ⟨[], none, grammar.positional, false⟩

/-- Take arguments up to the end or up to the name of a command, which comes back
with the arguments after it. -/
def take (grammar : Grammar) :
    Progress → List String → Except Stop (Progress × Option (String × List String))
  | progress, [] => .ok (progress, none)
  | progress, text :: rest =>
    if ¬ progress.trailing ∧ ¬ progress.awaits ∧ text ∈ grammar.commands then
      .ok (progress, some (text, rest))
    else do
      let progress ← progress.argument grammar text
      grammar.take progress rest

/-- The first parameter given that excludes another one given, with that one.  The
names that exclude each other are `exclusive`. -/
def conflict? (exclusive : List String) (progress : Progress) : Option (Parameter × Parameter) :=
  match (progress.given.map (·.1)).filter (·.name ∈ exclusive) with
  | first :: second :: _ => some (first, second)
  | _ => none

/-- Check what was given once all of it is read. -/
def finish (grammar : Grammar) (exclusive : List String) (progress : Progress) :
    Except Stop Progress := do
  let progress ← progress.settle
  match conflict? exclusive progress with
  | some (first, second) => throw (.usage (.conflict first second))
  | none =>
    if (grammar.named ++ grammar.positional).all fun parameter =>
        !parameter.required || progress.has parameter.name then
      return progress
    else throw (.usage .missingArguments)

end Grammar

namespace Progress

/-- The number given for a parameter. -/
def number? (progress : Progress) (name : String) : Option Nat :=
  progress.given.findSome? fun
    | (parameter, .number number) => if parameter.name = name then some number else none
    | _ => none

/-- The text given for a parameter. -/
def text? (progress : Progress) (name : String) : Option String :=
  progress.given.findSome? fun
    | (parameter, .text text) => if parameter.name = name then some text else none
    | _ => none

end Progress

end RiscvImage.CommandLine
