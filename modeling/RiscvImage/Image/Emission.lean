import RiscvImage.Image.Layout

/-!
# Writing images

An image is written to a sink part by part: the header block, the items of both
sections, and the names.  Every part is placed at its planned offset.  Repeated
bytes are written in chunks of bounded size, however long the stretch is.
-/

namespace RiscvImage

/-- The first `count` bytes of the endless repetition of a pattern. -/
def ByteString.cyclic (pattern : List UInt8) (count : Nat) : ByteString :=
  (ByteString.repeated pattern (count / pattern.length + 1)).take count

/-- The largest number of repeated bytes written at once. -/
def chunkSize : Nat :=
  4096

/-- The chunks in which `total` bytes of a repeated pattern are written: full
ones as long as they fit, and one for what is left. -/
def repeatedChunks (pattern : List UInt8) (total : Nat) : List ByteString :=
  let chunk := ByteString.cyclic pattern (min chunkSize total)
  List.replicate (total / chunkSize) chunk ++ [chunk.take (total % chunkSize)]

namespace Sink

/-- Write `total` bytes of a repeated pattern. -/
def writeRepeated (sink : Sink) (pattern : List UInt8) (total : Nat) : Outcome IoFault Sink Unit :=
  sink.writeEach (repeatedChunks pattern total)

end Sink

/-- See a fault of the host as a failure to write an image. -/
def Outcome.writing (outcome : Outcome IoFault Sink Unit) : Outcome WriteError Sink Unit :=
  ⟨outcome.answer.mapError WriteError.io, outcome.state⟩

namespace Item

/-- Write the bytes of an item.  Padding with instructions has to be a whole
number of words. -/
def emit (item : Item) (sink : Sink) : Outcome WriteError Sink Unit :=
  match item with
  | .bytes contents => (sink.write contents).writing
  | .zero size => (sink.writeRepeated [0] size.toNat).writing
  | .padding .nop size =>
    if size % 4 = 0 then (sink.writeRepeated (Fill.pattern .nop) size.toNat).writing
    else ⟨.error (.raggedPadding size), sink⟩
  | .padding (.byte value) size => (sink.writeRepeated [value] size.toNat).writing

/-- Write several items one after the other, up to the first that fails. -/
def emitEach (sink : Sink) : List Item → Outcome WriteError Sink Unit
  | [] => ⟨.ok (), sink⟩
  | item :: rest => (item.emit sink).andThen fun _ sink => emitEach sink rest

end Item

namespace Object

/-- Write the sections at their places, up to the first that fails. -/
def emitSections (object : Object) (sink : Sink) : List Placement → Outcome WriteError Sink Unit
  | [] => ⟨.ok (), sink⟩
  | placement :: rest =>
    (Item.emitEach (sink.seek placement.offset.toNat) (object.get placement.kind).items).andThen
      fun _ sink => object.emitSections sink rest

/-- Write the image of an object to a sink.  Nothing is written if the image
cannot be planned. -/
def emit (object : Object) (entrySymbol : String) (sink : Sink) : Outcome WriteError Sink Layout :=
  match Layout.plan object entrySymbol with
  | .error error => ⟨.error error, sink⟩
  | .ok (layout, names) =>
    let written :=
      ((sink.seek 0).write (.ofList layout.headerBlock)).writing.andThen fun _ sink =>
      (object.emitSections sink layout.placements).andThen fun _ sink =>
      (names.writeTo sink layout.namesOffset.toNat).writing
    written.map fun _ => layout

/-- The image of an object. -/
def encode (object : Object) (entrySymbol : String) : Except WriteError ByteString :=
  let written := object.emit entrySymbol .empty
  written.answer.map fun _ => written.state.contents

end Object

end RiscvImage
