import RiscvImage.Image.Storing

/-!
# Packing

Packing makes an image out of files that hold the bytes of the sections as such.
Space without initial contents follows the data, and the entry address, if one is
given, is bound to the entry label.
-/

namespace RiscvImage

/-- What to pack. -/
structure PackOptions where
  /-- Path of the text section's bytes. -/
  text : String
  textBase : UInt32
  /-- Path of the initialised data's bytes. -/
  data? : Option String
  dataBase : UInt32
  /-- Number of zero bytes after the initialised data. -/
  bss : UInt32
  entry? : Option UInt32
  entrySymbol : String
  deriving DecidableEq, Repr

/-- Why nothing is packed. -/
inductive PackError
  | object (error : ObjectError)
  | write (error : WriteError)
  | readInput (path : String) (fault : IoFault)
  deriving DecidableEq, Repr

namespace PackError

/-- The wording of a failure. -/
def message : PackError → String
  | object error => s!"object error: {error.message}"
  | write error => s!"write error: {error.message}"
  | readInput path fault => s!"failed to read {path}: {fault.message}"

end PackError

namespace PackOptions

/-- Pack a text file and nothing else, at the usual addresses. -/
def ofText (text : String) : PackOptions where
  text := text
  textBase := Object.defaultTextBase
  data? := none
  dataBase := Object.defaultDataBase
  bss := 0
  entry? := none
  entrySymbol := Layout.defaultEntrySymbol

/-- The contents of an input file. -/
def readInput (name path : String) : ExceptT PackError Session ByteString := do
  match (← Session.openFile path).bind File.contents with
  | .error fault => throw (.readInput path fault)
  | .ok contents =>
    Session.log .debug s!"{name} input" [("path", path), ("size", toString contents.length)]
    return contents

/-- The object after an operation that has to succeed. -/
def require {α : Type} (outcome : Outcome ObjectError Object α) :
    ExceptT PackError Session Object :=
  match outcome.answer with
  | .ok _ => return outcome.state
  | .error error => throw (.object error)

/-- The object that the options describe. -/
def assemble (options : PackOptions) : ExceptT PackError Session Object := do
  let object := Object.empty options.textBase options.dataBase
  let text ← readInput "text" options.text
  let object ← require (object.edit .text (·.pushBytes text))
  let object ←
    match options.data? with
    | none => pure object
    | some path => do
      let data ← readInput "data" path
      require (object.edit .data (·.pushBytes data))
  let object ←
    if options.bss = 0 then pure object
    else require (object.edit .data (·.pushZero options.bss))
  match options.entry? with
  | none => return object
  | some entry => require (object.defineLabel options.entrySymbol entry)

/-- Write the image that the options describe. -/
def pack (options : PackOptions) (output : String) : ExceptT PackError Session Layout := do
  let object ← options.assemble
  match ← object.store options.entrySymbol output with
  | .ok layout => return layout
  | .error error => throw (.write error)

end PackOptions

end RiscvImage
