/-!
# Little-endian numerals

Every number in an image is stored with its least significant byte first.
Writing takes back what reading found.
-/

namespace RiscvImage.LittleEndian

/-- The `width` low-order bytes of `value`, least significant first. -/
def encode : (width value : Nat) → List UInt8
  | 0, _ => []
  | width + 1, value => UInt8.ofNat value :: encode width (value / 256)

/-- The number that a byte sequence stands for, least significant byte first. -/
def decode : List UInt8 → Nat
  | [] => 0
  | byte :: rest => byte.toNat + 256 * decode rest

/-- The two bytes of a half word. -/
def half (value : UInt16) : List UInt8 :=
  encode 2 value.toNat

/-- The four bytes of a word. -/
def word (value : UInt32) : List UInt8 :=
  encode 4 value.toNat

/-- The half word at `offset`. -/
def halfAt (bytes : List UInt8) (offset : Nat) : UInt16 :=
  .ofNat (decode ((bytes.drop offset).take 2))

/-- The word at `offset`. -/
def wordAt (bytes : List UInt8) (offset : Nat) : UInt32 :=
  .ofNat (decode ((bytes.drop offset).take 4))

/-- The byte at `offset`. -/
def byteAt (bytes : List UInt8) (offset : Nat) : UInt8 :=
  bytes.getD offset 0

@[simp]
theorem length_encode (width value : Nat) : (encode width value).length = width := by
  induction width generalizing value with
  | zero => rfl
  | succ width ih => simp [encode, ih]

theorem encode_decode (bytes : List UInt8) : encode bytes.length (decode bytes) = bytes := by
  induction bytes with
  | nil => rfl
  | cons byte rest ih =>
      have low : byte.toNat < 256 := byte.toNat_lt
      have front : UInt8.ofNat (byte.toNat + 256 * decode rest) = byte := by
        apply UInt8.toNat_inj.mp
        simp
      have back : (byte.toNat + 256 * decode rest) / 256 = decode rest := by omega
      simp only [List.length_cons, decode, encode, front, back, ih]

@[simp]
theorem length_half (value : UInt16) : (half value).length = 2 :=
  length_encode 2 _

@[simp]
theorem length_word (value : UInt32) : (word value).length = 4 :=
  length_encode 4 _

end RiscvImage.LittleEndian
