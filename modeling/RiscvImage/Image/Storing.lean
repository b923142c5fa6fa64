import RiscvImage.Host.Session
import RiscvImage.Image.Emission

/-!
# Storing images in files

The file is created before the image is planned, so an image that turns out too
long leaves an empty file behind.
-/

namespace RiscvImage

namespace Layout

/-- The log entries on writing an image, one for each section. -/
def narration (layout : Layout) : List Message :=
  layout.placements.map fun placement =>
    .log ⟨.debug, "writing section",
      [("section", placement.kind.name), ("offset", toString placement.offset.toNat),
        ("size", toString placement.size.toNat), ("addr", Hexadecimal.address placement.address)]⟩

end Layout

namespace Object

/-- The warning that an object lacks the label it should start at. -/
def entryWarning (object : Object) (entrySymbol : String) : List Message :=
  match Layout.entryOf object entrySymbol with
  | (_, .label) => []
  | (entry, .textBase) =>
    [.log ⟨.warn, "entry symbol not found, entry will be start of .text section",
      [("symbol", entrySymbol), ("entry", Hexadecimal.address entry)]⟩]

/-- Write the image of an object to a file, creating it or replacing the one that
is there.  A file that cannot be created ends the work before it has begun. -/
def store (object : Object) (entrySymbol path : String) : Session (Except WriteError Layout) := do
  match ← Session.storeFile path .empty with
  | .error fault => return .error (.io fault)
  | .ok () =>
    Session.tellAll (object.entryWarning entrySymbol)
    let written := object.emit entrySymbol .empty
    match ← Session.storeFile path written.state.contents, written.answer with
    | .error fault, _ => return .error (.io fault)
    | .ok (), .error error => return .error error
    | .ok (), .ok layout =>
      Session.tellAll layout.narration
      Session.log .info "wrote image"
        [("path", path), ("entry", Hexadecimal.address layout.entry),
          ("size", toString layout.fileSize.toNat)]
      return .ok layout

end Object

end RiscvImage
