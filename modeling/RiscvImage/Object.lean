import RiscvImage.Section.Basic

/-!
# Program objects

A finished program is a text section, a data section and the labels defined in
them.  A label keeps the address it was given, also when its section moves.
-/

namespace RiscvImage

/-- A program under construction. -/
structure Object where
  text : Section
  data : Section
  /-- Names and addresses, in the order of definition; no name occurs twice. -/
  labels : List (String × UInt32)
  deriving DecidableEq, Repr

namespace Object

/-- Where the text section begins unless told otherwise. -/
def defaultTextBase : UInt32 :=
  0

/-- Where the data section begins unless told otherwise. -/
def defaultDataBase : UInt32 :=
  0x10000000

/-- A program without contents and labels. -/
def empty (textBase dataBase : UInt32) : Object :=
  ⟨.empty .text textBase, .empty .data dataBase, []⟩

/-- The section of a kind. -/
def get (object : Object) : SectionKind → Section
  | .text => object.text
  | .data => object.data

/-- The program with another section in place of the one of this kind. -/
def set (object : Object) (kind : SectionKind) (s : Section) : Object :=
  match kind with
  | .text => { object with text := s }
  | .data => { object with data := s }

/-- Carry out an operation on one section. -/
def edit {α : Type} (object : Object) (kind : SectionKind)
    (operation : Section → Outcome ObjectError Section α) : Outcome ObjectError Object α :=
  let outcome := operation (object.get kind)
  ⟨outcome.answer, object.set kind outcome.state⟩

/-- The sections in image order. -/
def sections (object : Object) : List Section :=
  SectionKind.all.map object.get

/-- The address of a label. -/
def findLabel? (object : Object) (name : String) : Option UInt32 :=
  object.labels.lookup name

/-- Give a name to an address. -/
def defineLabel (object : Object) (name : String) (address : UInt32) :
    Outcome ObjectError Object Unit :=
  match object.findLabel? name with
  | some _ => ⟨.error (.duplicateLabel name), object⟩
  | none => ⟨.ok (), { object with labels := object.labels ++ [(name, address)] }⟩

/-- Give a name to the end of a section and answer that address. -/
def defineLabelHere (object : Object) (name : String) (kind : SectionKind) :
    Outcome ObjectError Object UInt32 :=
  let address := (object.get kind).endAddress
  (object.defineLabel name address).map fun _ => address

/-- The labels ordered by name. -/
def sortedLabels (object : Object) : List (String × UInt32) :=
  object.labels.mergeSort fun first second => first.1 ≤ second.1

end Object

end RiscvImage
