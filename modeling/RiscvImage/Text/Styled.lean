import RiscvImage.Text.ControlSequence

/-!
# Styled messages

A message for a user consists of spans, some of which are marked: emphasised or
set off from the words around them.  Where marks cannot be shown, only the
characters are, without control sequences.
-/

namespace RiscvImage

/-- A part of a message. -/
inductive Span
  | plain (text : String)
  /-- A part that stands out. -/
  | marked (text : String)
  deriving DecidableEq, Repr

namespace Span

open ControlSequence in
/-- The characters of a message that are seen.  A sequence that a plain span leaves
open goes on in the next one; a mark ends it at either of its sides. -/
def visibleFrom (reader : Reader) : List Span → List Char
  | [] => []
  | plain text :: rest =>
    let (seen, after) := reader.read text.toList
    seen ++ visibleFrom after rest
  | marked text :: rest =>
    (Reader.start.read text.toList).1 ++ visibleFrom Reader.start rest

/-- A message without its marks. -/
def unmarked (spans : List Span) : String :=
  String.ofList (visibleFrom ControlSequence.Reader.start spans)

end Span

end RiscvImage
