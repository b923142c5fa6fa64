import RiscvImage.Host.Sink
import RiscvImage.Image.WriteError
import RiscvImage.Text.Utf8

/-!
# String tables

A string table holds names one after the other, each closed by a zero byte, and
is asked for them by offset.  Offset zero is always the empty name.  The table
is only ever extended, so an offset once handed out stays good.

Room is set aside in large steps: a table that runs out of it asks for twice
what it had and the new name on top.
-/

namespace RiscvImage

/-- An append-only table of names. -/
structure StringTable where
  /-- The names with their closing zero bytes. -/
  contents : ByteString
  /-- The number of bytes for which there is room. -/
  capacity : Nat
  deriving DecidableEq, Repr

namespace StringTable

/-- The room of a new table. -/
def initialCapacity : Nat :=
  64

/-- A table that holds the empty name only. -/
def empty : StringTable :=
  ⟨.zero 1, initialCapacity⟩

/-- The number of bytes in use. -/
def size (table : StringTable) : Nat :=
  table.contents.length

/-- The room of a table after `needed` more bytes. -/
def grownCapacity (table : StringTable) (needed : Nat) : Nat :=
  if table.capacity - table.size < needed then table.capacity * 2 + needed
  else table.capacity

/-- Append a name and answer its offset.  A name is stored up to its first zero
character.  The whole table has to stay within reach of 32-bit offsets. -/
def add (table : StringTable) (name : String) : Outcome WriteError StringTable UInt32 :=
  let entry := (ByteString.ofList (Utf8.encode name)).untilZero ++ .zero 1
  if table.size + entry.length < UInt32.size then
    ⟨.ok (.ofNat table.size), ⟨table.contents ++ entry, table.grownCapacity entry.length⟩⟩
  else ⟨.error .tooLarge, table⟩

/-- The name that begins at an offset, if it is closed and well formed. -/
def get? (table : StringTable) (offset : Nat) : Option String :=
  let tail := table.contents.drop offset
  let name := tail.untilZero
  if name.length < tail.length then Utf8.decode? name.bytes else none

/-- Write the bytes in use at an offset of a sink. -/
def writeTo (table : StringTable) (sink : Sink) (offset : Nat) : Outcome IoFault Sink Unit :=
  (sink.seek offset).write table.contents

end StringTable

end RiscvImage
