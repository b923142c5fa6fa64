/-!
# Log entries

What a program tells about its progress: a message with named values, at one of
four levels of importance.
-/

namespace RiscvImage

/-- How important a log entry is. -/
inductive LogLevel
  | debug
  | info
  | warn
  | error
  deriving DecidableEq, Repr

namespace LogLevel

/-- The place of a level among the others, the most important one last. -/
def rank : LogLevel → Nat
  | debug => 0
  | info => 1
  | warn => 2
  | error => 3

/-- The level in five characters. -/
def label : LogLevel → String
  | debug => "DEBUG"
  | info => " INFO"
  | warn => " WARN"
  | error => "ERROR"

end LogLevel

/-- A message with named values. -/
structure LogEntry where
  level : LogLevel
  message : String
  fields : List (String × String)
  deriving DecidableEq, Repr

namespace LogEntry

/-- The line of an entry. -/
def render (entry : LogEntry) : String :=
  " ".intercalate
    (s!"{entry.level.label} {entry.message}" ::
      entry.fields.map fun (name, value) => s!"{name}={value}")

end LogEntry

end RiscvImage
