import RiscvImage.ByteString.Window

/-!
# Sources of images

An image is loaded from memory or from an opened file.  Both deliver the same
bytes; they differ in what is left of a read that ends beyond the last one.
-/

namespace RiscvImage

/-- Where an image is read from. -/
inductive ImageSource
  /-- Bytes in memory.  A read delivers all that it asks for or nothing. -/
  | memory (contents : ByteString)
  /-- An opened file.  A read that asks for too much still delivers what there is. -/
  | file (contents : ByteString)
  deriving DecidableEq, Repr

namespace ImageSource

/-- All bytes of a source. -/
def contents : ImageSource → ByteString
  | memory contents => contents
  | file contents => contents

/-- What is delivered of `count` bytes at `offset` that cannot all be delivered. -/
def remnant (source : ImageSource) (offset count : Nat) : ByteString :=
  match source with
  | memory _ => .empty
  | file contents => contents.window offset count

theorem length_remnant_le (source : ImageSource) (offset count : Nat) :
    (source.remnant offset count).length ≤ count := by
  cases source with
  | memory contents => exact Nat.zero_le count
  | file contents =>
    rw [remnant, ByteString.window, ByteString.length_take]
    exact Nat.min_le_left _ _

end ImageSource

end RiscvImage
