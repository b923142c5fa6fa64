import RiscvImage.Host.FileSystem
import RiscvImage.Host.Log

/-!
# Sessions with a host

A command works on files and reports on its way.  A `Session` is such a piece of
work, spelled out as the requests it makes of its host, each with what follows
for every answer.  It can be run on a file system given as a value, or carried
out on the real one.
-/

namespace RiscvImage

/-- What a command says. -/
inductive Message
  | log (entry : LogEntry)
  /-- A line of the result. -/
  | output (line : String)
  /-- A line for the user beside the result. -/
  | status (line : String)
  deriving DecidableEq, Repr

/-- A piece of work that may read files, write files and report. -/
inductive Session (α : Type) where
  | done (answer : α)
  | read (path : String) (next : Except IoFault File → Session α)
  | write (path : String) (contents : ByteString) (next : Except IoFault Unit → Session α)
  | say (message : Message) (next : Session α)

namespace Session

/-- Continue with the answer of a session. -/
def bind {α β : Type} : Session α → (α → Session β) → Session β
  | done answer, continuation => continuation answer
  | read path next, continuation => read path fun opened => (next opened).bind continuation
  | write path contents next, continuation =>
    write path contents fun stored => (next stored).bind continuation
  | say message next, continuation => say message (next.bind continuation)

instance : Monad Session where
  pure := done
  bind := bind

/-- Open a file. -/
def openFile (path : String) : Session (Except IoFault File) :=
  read path done

/-- Create a file or replace the one that is there. -/
def storeFile (path : String) (contents : ByteString) : Session (Except IoFault Unit) :=
  write path contents done

/-- Say something. -/
def tell (message : Message) : Session Unit :=
  say message (done ())

/-- Make a log entry. -/
def log (level : LogLevel) (message : String) (fields : List (String × String)) : Session Unit :=
  tell (.log ⟨level, message, fields⟩)

/-- Say several things in turn. -/
def tellAll : List Message → Session Unit
  | [] => done ()
  | message :: rest => say message (tellAll rest)

/-- What became of a session. -/
structure Record (α : Type) where
  answer : α
  /-- What was said, oldest first. -/
  messages : List Message
  /-- The files afterwards. -/
  files : FileSystem

/-- Run a session on a file system. -/
def run {α : Type} : Session α → FileSystem → Record α
  | done answer, files => ⟨answer, [], files⟩
  | read path next, files => (next (files.read path)).run files
  | write path contents next, files =>
    match files.write path contents with
    | .ok files => (next (.ok ())).run files
    | .error fault => (next (.error fault)).run files
  | say message next, files =>
    let record := next.run files
    { record with messages := message :: record.messages }

end Session

end RiscvImage
