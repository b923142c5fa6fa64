import RiscvImage.CommandLine.Report

/-!
# Running the program

A command line is understood, carried out, and what was said along the way is
sorted into the two streams of output.  Log entries appear in the second one as
far as the command line asks for them.
-/

namespace RiscvImage.CommandLine

/-- What the command line asks for, before it is carried out. -/
structure Work where
  /-- The least important level that is logged. -/
  level : LogLevel
  session : Session UInt32

namespace Stop

/-- What is said if there is no command to carry out, and the exit status. -/
def session : Stop → Session UInt32
  | .usage error => do
    Session.tell (.status (Span.unmarked error.report))
    return exitUsage
  | .nothingGiven => do
    Session.tell (.status programSummary)
    return exitUsage
  | .help => do
    outputAll
      [programSummary, "", s!"Usage: {programName} [OPTIONS] <COMMAND>"]
    return exitSuccess
  | .version => do
    Session.tell (.output s!"{programName} {programVersion}")
    return exitSuccess

end Stop

namespace Work

/-- Understand a command line. -/
def ofArguments (arguments : List String) : Work :=
  match Invocation.parse arguments with
  | .error stop => ⟨.info, stop.session⟩
  | .ok invocation => ⟨invocation.level, invocation.command.carryOut⟩

/-- The line of a message on the output stream. -/
def outputLine? : Message → Option String
  | .output line => some line
  | _ => none

/-- The line of a message on the stream beside the output. -/
def statusLine? (work : Work) : Message → Option String
  | .output _ => none
  | .status line => some line
  | .log entry => if work.level.rank ≤ entry.level.rank then some entry.render else none

end Work

/-- What became of a run of the program. -/
structure Finished where
  exit : UInt32
  output : List String
  status : List String
  files : FileSystem

/-- Run the program on a file system. -/
def run (arguments : List String) (files : FileSystem) : Finished :=
  let work := Work.ofArguments arguments
  let record := work.session.run files
  { exit := record.answer
    output := record.messages.filterMap Work.outputLine?
    status := record.messages.filterMap work.statusLine?
    files := record.files }

end RiscvImage.CommandLine
