import RiscvImage.CommandLine.Run

/-!
# The program

Carries out the session that a command line asks for on the files of the real
host, and prints what is said.  Everything else is decided by the session.
-/

namespace RiscvImage

namespace IoFault

/-- The fault that an error of the host stands for.  The host numbers its errors
from one up or, negated, from minus one down. -/
def ofHost (error : IO.Error) : IoFault :=
  match error with
  | .noFileOrDirectory .. => notFound
  | .inappropriateType _ code _ =>
    if code = 20 ∨ code = -20 then notADirectory
    else if code = 21 ∨ code = -21 then isADirectory
    else other (toString error)
  | .invalidArgument _ code _ =>
    if code = 36 ∨ code = -36 then nameTooLong else other (toString error)
  | _ => other (toString error)

end IoFault

namespace Session

/-- Open a file of the host.  A directory shows by the fault of reading it. -/
def openOnHost (path : String) : IO (Except IoFault File) := do
  match ← (IO.FS.readBinFile path).toBaseIO with
  | .ok bytes => return .ok (.regular (.ofList bytes.toList))
  | .error error =>
    match IoFault.ofHost error with
    | .isADirectory => return .ok (.directory FileSystem.directoryLength)
    | fault => return .error fault

/-- Create a file of the host or replace the one that is there. -/
def storeOnHost (path : String) (contents : ByteString) : IO (Except IoFault Unit) := do
  let bytes := contents.foldl ByteArray.push .empty
  match ← (IO.FS.writeBinFile path bytes).toBaseIO with
  | .ok () => return .ok ()
  | .error error => return .error (.ofHost error)

/-- Carry out a session on the host, where every message is passed on. -/
def perform {α : Type} (onMessage : Message → IO Unit) : Session α → IO α
  | done answer => return answer
  | read path next => do
    let opened ← openOnHost path
    (next opened).perform onMessage
  | write path contents next => do
    let stored ← storeOnHost path contents
    (next stored).perform onMessage
  | say message next => do
    onMessage message
    next.perform onMessage

end Session

namespace CommandLine

/-- Print a message on its stream, if it is wanted. -/
def printMessage (work : Work) (message : Message) : IO Unit := do
  for line in (Work.outputLine? message).toList do
    IO.println line
  for line in (work.statusLine? message).toList do
    IO.eprintln line

end CommandLine

end RiscvImage

/-- Run the program on the arguments of the command line. -/
def main (arguments : List String) : IO UInt32 :=
  let work := RiscvImage.CommandLine.Work.ofArguments arguments
  work.session.perform (RiscvImage.CommandLine.printMessage work)
