import Mathlib.Algebra.GroupWithZero.Nat
import RiscvImage.Elf.FileHeader
import RiscvImage.Elf.ProgramHeader
import RiscvImage.Elf.SectionHeader

/-!
# Decoding what was encoded

A field is read at its offset in a record.  The fields before it are skipped by their
widths, and the number that then stands in front is the one that was written.
-/

namespace RiscvImage

namespace LittleEndian

/-- Reading takes back what writing put down, up to the width written. -/
theorem decode_encode (width value : Nat) :
    decode (encode width value) = value % 256 ^ width := by
  induction width generalizing value with
  | zero => simp [encode, decode, Nat.mod_one]
  | succ width ih =>
      have split : value % 256 ^ (width + 1) = value % 256 + 256 * (value / 256 % 256 ^ width) := by
        rw [Nat.pow_succ, Nat.mul_comm, Nat.mod_mul]
      rw [encode, decode, ih, split]
      rfl

theorem wordAt_append {front : List UInt8} {offset : Nat} (skipped : front.length ≤ offset)
    (rest : List UInt8) : wordAt (front ++ rest) offset = wordAt rest (offset - front.length) := by
  rw [wordAt, wordAt, List.drop_append, List.drop_of_length_le skipped, List.nil_append]

theorem halfAt_append {front : List UInt8} {offset : Nat} (skipped : front.length ≤ offset)
    (rest : List UInt8) : halfAt (front ++ rest) offset = halfAt rest (offset - front.length) := by
  rw [halfAt, halfAt, List.drop_append, List.drop_of_length_le skipped, List.nil_append]

theorem byteAt_append {front : List UInt8} {offset : Nat} (skipped : front.length ≤ offset)
    (rest : List UInt8) : byteAt (front ++ rest) offset = byteAt rest (offset - front.length) := by
  simp [byteAt, List.getElem?_append_right skipped]

theorem wordAt_word (value : UInt32) (rest : List UInt8) :
    wordAt (word value ++ rest) 0 = value := by
  have bytes : ((word value ++ rest).drop 0).take 4 = word value := by
    rw [List.drop_zero, ← length_word value, List.take_left]
  rw [wordAt, bytes, word, decode_encode]
  apply UInt32.toNat_inj.mp
  simp

theorem halfAt_half (value : UInt16) (rest : List UInt8) :
    halfAt (half value ++ rest) 0 = value := by
  have bytes : ((half value ++ rest).drop 0).take 2 = half value := by
    rw [List.drop_zero, ← length_half value, List.take_left]
  rw [halfAt, bytes, half, decode_encode]
  apply UInt16.toNat_inj.mp
  simp

end LittleEndian

open LittleEndian

namespace FileHeader

theorem decode_encode (header : FileHeader) : decode header.encode = header := by
  have whole : header.encode = header.encode ++ [] := (List.append_nil _).symm
  rw [whole]
  simp only [decode, encode, List.append_assoc, wordAt_append, halfAt_append, byteAt_append,
    wordAt_word, halfAt_half, length_word, length_half, List.length_cons, List.length_nil,
    List.length_replicate, Nat.reduceAdd, Nat.reduceLeDiff, Nat.reduceSub]
  rfl

end FileHeader

namespace ProgramHeader

theorem decode_encode (header : ProgramHeader) : decode header.encode = header := by
  have whole : header.encode = header.encode ++ [] := (List.append_nil _).symm
  rw [whole]
  simp only [decode, encode, List.append_assoc, wordAt_append, wordAt_word, length_word,
    Nat.reduceLeDiff, Nat.reduceSub]

end ProgramHeader

namespace SectionHeader

theorem decode_encode (header : SectionHeader) : decode header.encode = header := by
  have whole : header.encode = header.encode ++ [] := (List.append_nil _).symm
  rw [whole]
  simp only [decode, encode, List.append_assoc, wordAt_append, wordAt_word, length_word,
    Nat.reduceLeDiff, Nat.reduceSub]

end SectionHeader

end RiscvImage
