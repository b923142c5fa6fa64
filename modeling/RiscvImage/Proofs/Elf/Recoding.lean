import RiscvImage.Proofs.Elf.Codec

/-!
# Encoding what was decoded

The fields of a record stand next to each other, so a record that was decoded from some bytes
is encoded as these bytes again.  The file header alone has bytes that belong to no field,
those which fill up its identification; decoding skips them, and encoding makes them zero.

Together with the way back this makes the three records codecs of their sizes.
-/

namespace RiscvImage

namespace LittleEndian

theorem decode_lt (bytes : List UInt8) : decode bytes < 256 ^ bytes.length := by
  have bounded : decode (encode bytes.length (decode bytes)) < 256 ^ bytes.length := by
    rw [decode_encode]
    exact Nat.mod_lt _ (Nat.pow_pos (by decide))
  rwa [encode_decode] at bounded

variable {bytes : List UInt8} {offset : Nat}

theorem length_take_drop {count : Nat} (inside : offset + count ≤ bytes.length) :
    ((bytes.drop offset).take count).length = count := by
  rw [List.length_take, List.length_drop]
  omega

theorem word_wordAt (inside : offset + 4 ≤ bytes.length) :
    word (wordAt bytes offset) = (bytes.drop offset).take 4 := by
  have length := length_take_drop inside
  have small := decode_lt ((bytes.drop offset).take 4)
  rw [length] at small
  have found := encode_decode ((bytes.drop offset).take 4)
  rwa [length, ← UInt32.toNat_ofNat_of_lt small] at found

theorem half_halfAt (inside : offset + 2 ≤ bytes.length) :
    half (halfAt bytes offset) = (bytes.drop offset).take 2 := by
  have length := length_take_drop inside
  have small := decode_lt ((bytes.drop offset).take 2)
  rw [length] at small
  have found := encode_decode ((bytes.drop offset).take 2)
  rwa [length, ← UInt16.toNat_ofNat_of_lt small] at found

/-- A byte and the stretch behind it are one stretch. -/
theorem byteAt_cons_take (inside : offset < bytes.length) (count : Nat) :
    byteAt bytes offset :: (bytes.drop (offset + 1)).take count =
      (bytes.drop offset).take (count + 1) := by
  rw [List.drop_eq_getElem_cons inside, List.take_succ_cons, byteAt, List.getD_eq_getElem?_getD,
    List.getElem?_eq_getElem inside, Option.getD_some]

/-- Two stretches that touch are one. -/
theorem take_drop_append_take_drop {next : Nat} (count more : Nat) (touch : offset + count = next) :
    (bytes.drop offset).take count ++ (bytes.drop next).take more =
      (bytes.drop offset).take (count + more) := by
  rw [← touch, List.take_add, List.drop_drop]

end LittleEndian

open LittleEndian

/-- A pair of functions that write records as `size` bytes and read them.  What is written
stands behind what was there before, and is read as the record again.  Bytes that are read and
written are settled: they become those that a record has there. -/
structure IsCodec {Record : Type} (size : Nat) (encode : Record → List UInt8)
    (decode : List UInt8 → Record) (settle : List UInt8 → List UInt8) : Prop where
  length_append : ∀ (written : List UInt8) (record : Record),
    (written ++ encode record).length = written.length + size
  take_append : ∀ (written : List UInt8) (record : Record),
    (written ++ encode record).take written.length = written
  decode_drop : ∀ (written : List UInt8) (record : Record),
    decode ((written ++ encode record).drop written.length) = record
  encode_decode : ∀ bytes : List UInt8, bytes.length = size →
    encode (decode bytes) = settle bytes

/-- A codec is given by the size of what it writes and the two round trips. -/
theorem isCodec_of_roundTrips {Record : Type} {size : Nat} {encode : Record → List UInt8}
    {decode : List UInt8 → Record} {settle : List UInt8 → List UInt8}
    (length : ∀ record, (encode record).length = size)
    (decoded : ∀ record, decode (encode record) = record)
    (encoded : ∀ bytes, bytes.length = size → encode (decode bytes) = settle bytes) :
    IsCodec size encode decode settle where
  length_append written record := by rw [List.length_append, length]
  take_append written record := List.take_left
  decode_drop written record := by rw [List.drop_left, decoded]
  encode_decode := encoded

theorem ProgramHeader.encode_decode {bytes : List UInt8} (length : bytes.length = 32) :
    (decode bytes).encode = bytes := by
  simp only [encode, decode, word_wordAt, take_drop_append_take_drop, length, Nat.reduceAdd,
    Nat.reduceLeDiff]
  rw [← length, List.drop_zero, List.take_length]

theorem SectionHeader.encode_decode {bytes : List UInt8} (length : bytes.length = 40) :
    (decode bytes).encode = bytes := by
  simp only [encode, decode, word_wordAt, take_drop_append_take_drop, length, Nat.reduceAdd,
    Nat.reduceLeDiff]
  rw [← length, List.drop_zero, List.take_length]

namespace FileHeader

/-- Make the bytes zero that fill up the identification. -/
def clearFill (bytes : List UInt8) : List UInt8 :=
  bytes.take 9 ++ List.replicate 7 0 ++ bytes.drop 16

theorem encode_decode {bytes : List UInt8} (length : bytes.length = size) :
    (decode bytes).encode = clearFill bytes := by
  have inside {offset : Nat} (low : offset < size) : offset < bytes.length := length ▸ low
  have single : [byteAt bytes 4, byteAt bytes 5, byteAt bytes 6, byteAt bytes 7,
      byteAt bytes 8] = (bytes.drop 4).take 5 := by
    rw [← byteAt_cons_take (inside (by decide)) 4, ← byteAt_cons_take (inside (by decide)) 3,
      ← byteAt_cons_take (inside (by decide)) 2, ← byteAt_cons_take (inside (by decide)) 1,
      ← byteAt_cons_take (inside (by decide)) 0, List.take_zero]
  have last : (bytes.drop 16).take 36 = bytes.drop 16 := by
    apply List.take_of_length_le
    rw [List.length_drop, length]
    decide
  simp only [encode, decode, List.append_assoc, word_wordAt, half_halfAt, single,
    take_drop_append_take_drop, length, size, Nat.reduceAdd, Nat.reduceLeDiff]
  rw [clearFill, last, List.drop_zero, List.append_assoc]

/-- Only bytes that belong to no field can be changed by decoding and encoding. -/
theorem clearFill_eq_self_iff {bytes : List UInt8} :
    clearFill bytes = bytes ↔ (bytes.drop 9).take 7 = List.replicate 7 0 := by
  have parts : bytes = bytes.take 9 ++ (bytes.drop 9).take 7 ++ bytes.drop 16 := by
    rw [← List.take_add, List.take_append_drop]
  have compared : clearFill bytes = bytes ↔
      clearFill bytes = bytes.take 9 ++ (bytes.drop 9).take 7 ++ bytes.drop 16 := by
    rw [← parts]
  rw [compared, clearFill, List.append_left_inj, List.append_right_inj, eq_comm]

end FileHeader

/-- The three kinds of headers are written as 52, 32 and 40 bytes and read back as what they
were.  Bytes in turn that are read as a header are written as they were, except for the fill of
the file header, which is written as zero bytes. -/
theorem isCodec_headers :
    IsCodec 52 FileHeader.encode FileHeader.decode FileHeader.clearFill ∧
      IsCodec 32 ProgramHeader.encode ProgramHeader.decode id ∧
      IsCodec 40 SectionHeader.encode SectionHeader.decode id ∧
      ∀ bytes : List UInt8, bytes.length = 52 →
        ((FileHeader.decode bytes).encode = bytes ↔
          (bytes.drop 9).take 7 = List.replicate 7 0) := by
  refine ⟨?fileHeader, ?programHeader, ?sectionHeader, ?fill⟩
  case fileHeader =>
    exact isCodec_of_roundTrips FileHeader.length_encode FileHeader.decode_encode
      fun _ => FileHeader.encode_decode
  case programHeader =>
    exact isCodec_of_roundTrips ProgramHeader.length_encode ProgramHeader.decode_encode
      fun _ => ProgramHeader.encode_decode
  case sectionHeader =>
    exact isCodec_of_roundTrips SectionHeader.length_encode SectionHeader.decode_encode
      fun _ => SectionHeader.encode_decode
  case fill =>
    intro bytes length
    rw [FileHeader.encode_decode length, FileHeader.clearFill_eq_self_iff]

/-- Fifty-two bytes that differ from each other, and so are not zero where a file header has
its fill. -/
def countedBytes : List UInt8 :=
  (List.range 52).map UInt8.ofNat

/-- The fill is lost by decoding and encoding, and a section header behind other bytes is
not. -/
theorem isCodec_headers_countedBytes :
    countedBytes.length = 52 ∧
      (FileHeader.decode countedBytes).encode = FileHeader.clearFill countedBytes ∧
      (FileHeader.decode countedBytes).encode ≠ countedBytes ∧
      SectionHeader.decode ((countedBytes ++ SectionHeader.null.encode).drop
        countedBytes.length) = SectionHeader.null := by
  obtain ⟨fileHeader, -, sectionHeader, fill⟩ := isCodec_headers
  have length : countedBytes.length = 52 := rfl
  exact ⟨length, fileHeader.encode_decode _ length, mt (fill _ length).mp (by decide),
    sectionHeader.decode_drop _ _⟩

end RiscvImage
