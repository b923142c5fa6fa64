import RiscvImage.Host.File

/-!
# File systems

A tree of directories and files, seen from a working directory.  Paths are
resolved component by component, and every component before the last has to lead
to a directory.

Only what is below the working directory is known.  Above it there are
directories up to the root, which hold nothing else.
-/

namespace RiscvImage

/-- The files and directories below a working directory. -/
structure FileSystem where
  /-- What each location holds.  A location is the list of names that lead there
  from the working directory.  It begins with `..` for every step above it, or
  with `/` if it is reached from the root. -/
  entries : List (List String × File)
  deriving Repr

namespace FileSystem

/-- The length that a directory reports. -/
def directoryLength : Nat :=
  4096

/-- A working directory without entries. -/
def empty : FileSystem :=
  ⟨[]⟩

/-- Where paths from the root begin. -/
def root : List String :=
  ["/"]

/-- Whether a location is a directory by itself: the root, the working directory
or one above it. -/
def isBase (location : List String) : Bool :=
  location = root || location.all (· = "..")

/-- The location of the directory that holds a location.  The root is held by
itself. -/
def parent (location : List String) : List String :=
  if location = root then root
  else if isBase location then location ++ [".."]
  else location.dropLast

/-- What a location holds. -/
def lookup? (files : FileSystem) (location : List String) : Option File :=
  if isBase location then some (.directory directoryLength) else files.entries.lookup location

/-- The file system with something else at a location. -/
def put (files : FileSystem) (location : List String) (file : File) : FileSystem :=
  ⟨(location, file) :: files.entries.filter fun entry => entry.1 != location⟩

/-- The largest number of bytes in the name of an entry. -/
def maxNameSize : Nat :=
  255

/-- The number of bytes from which on a path is too long. -/
def pathSizeLimit : Nat :=
  4096

/-- Whether a location cannot hold anything because of its name. -/
def isUnnameable (location : List String) : Bool :=
  location.getLast?.any fun name => maxNameSize < name.utf8ByteSize

/-- Why nothing is found at a location that holds nothing. -/
def absence (location : List String) : IoFault :=
  if isUnnameable location then .nameTooLong else .notFound

/-- Require a location to be a directory. -/
def requireDirectory (files : FileSystem) (location : List String) : Except IoFault Unit :=
  match files.lookup? location with
  | some (.directory _) => .ok ()
  | some _ => .error .notADirectory
  | none => .error (absence location)

/-- Follow path components from a location on.  The place that the last one leads
to need not exist. -/
def walk (files : FileSystem) (location : List String) :
    List String → Except IoFault (List String)
  | [] => .ok location
  | component :: rest => do
    files.requireDirectory location
    if component = "" ∨ component = "." then files.walk location rest
    else if component = ".." then files.walk (parent location) rest
    else files.walk (location ++ [component]) rest

/-- The location that a path leads to.  The empty path leads to the working
directory. -/
def locate (files : FileSystem) (path : String) : Except IoFault (List String) :=
  match path.splitOn "/" with
  | "" :: first :: rest => files.walk root (first :: rest)
  | components => files.walk [] components

/-- Require a path to be one that the host takes at all. -/
def requireAdmissible (path : String) : Except IoFault Unit :=
  if path.contains '\x00' then .error .zeroInPath
  else if pathSizeLimit ≤ path.utf8ByteSize then .error .nameTooLong
  else .ok ()

/-- Open what a path leads to. -/
def read (files : FileSystem) (path : String) : Except IoFault File := do
  requireAdmissible path
  let location ← files.locate path
  match files.lookup? location with
  | some file => return file
  | none => throw (absence location)

/-- A path without the slashes at its end. -/
def withoutFinalSlashes (path : String) : String :=
  String.ofList (path.toList.reverse.dropWhile (· = '/')).reverse

/-- Store contents at a path, in place of a file that may be there.  A path that ends
with a slash asks for a directory, whether there is one or not. -/
def write (files : FileSystem) (path : String) (contents : ByteString) :
    Except IoFault FileSystem := do
  requireAdmissible path
  let name := withoutFinalSlashes path
  let location ← files.locate name
  match files.lookup? location with
  | some (.directory _) => throw .isADirectory
  | _ =>
    if name ≠ path then throw .isADirectory
    else if isUnnameable location then throw .nameTooLong
    else return files.put location (.regular contents)

end FileSystem

end RiscvImage
