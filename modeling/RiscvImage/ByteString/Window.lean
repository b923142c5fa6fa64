import RiscvImage.ByteString.Basic

/-!
# Windows on byte strings

Byte strings are read through windows and changed by overwriting a stretch of
them.  A window that has to be complete is complete or absent: it is never part of
what was asked.
-/

namespace RiscvImage.ByteString

/-- As many of the `count` bytes from `offset` on as there are. -/
def window (s : ByteString) (offset count : Nat) : ByteString :=
  (s.drop offset).take count

/-- The `count` bytes from `offset` on, or nothing if the byte string ends before
the last of them.  Asking for no bytes succeeds at every offset. -/
def window? (s : ByteString) (offset count : Nat) : Option ByteString :=
  let window := s.window offset count
  if window.length = count then some window else none

/-- The bytes of the half-open range `[start, stop)`, provided that the range
is well formed and lies inside the byte string. -/
def slice? (s : ByteString) (start stop : Nat) : Option ByteString :=
  if start ≤ stop ∧ stop ≤ s.length then some (s.window start (stop - start)) else none

/-- Exactly `size` bytes: the front of a byte string, continued by zero bytes. -/
def padded (s : ByteString) (size : Nat) : ByteString :=
  s.take size ++ zero (size - s.length)

/-- The byte string with `patch` in the place of the bytes from `offset` on.  A
patch that reaches past the end lengthens the byte string, and a gap before it is
filled with zero bytes. -/
def overwrite (s : ByteString) (offset : Nat) (patch : ByteString) : ByteString :=
  s.padded offset ++ patch ++ s.drop (offset + patch.length)

/-- The bytes before the first zero byte. -/
def untilZero (s : ByteString) : ByteString :=
  s.takeWhile (· != 0)

@[simp]
theorem bytes_window (s : ByteString) (offset count : Nat) :
    (s.window offset count).bytes = (s.bytes.drop offset).take count := by
  simp [window]

@[simp]
theorem bytes_padded (s : ByteString) (size : Nat) :
    (s.padded size).bytes = s.bytes.take size ++ List.replicate (size - s.length) 0 := by
  simp [padded]

@[simp]
theorem bytes_overwrite (s : ByteString) (offset : Nat) (patch : ByteString) :
    (s.overwrite offset patch).bytes =
      (s.padded offset).bytes ++ patch.bytes ++ s.bytes.drop (offset + patch.length) := by
  simp [overwrite]

@[simp]
theorem bytes_untilZero (s : ByteString) : s.untilZero.bytes = s.bytes.takeWhile (· != 0) := by
  simp [untilZero]

@[simp]
theorem length_padded (s : ByteString) (size : Nat) : (s.padded size).length = size := by
  simp only [padded, length_append, length_take, length_zero]
  omega

@[simp]
theorem length_window (s : ByteString) (offset count : Nat) :
    (s.window offset count).length = min count (s.length - offset) := by
  simp [window]

/-- A window of some bytes is there if it ends inside the byte string. -/
theorem window?_eq_ite (s : ByteString) (offset : Nat) {count : Nat} (pos : 0 < count) :
    s.window? offset count =
      if offset + count ≤ s.length then some (s.window offset count) else none := by
  have complete : (s.window offset count).length = count ↔ offset + count ≤ s.length := by
    rw [length_window]
    omega
  simp only [window?, complete]

theorem window_drop (s : ByteString) (skipped offset count : Nat) :
    (s.drop skipped).window offset count = s.window (skipped + offset) count := by
  ext1
  simp

/-- Padding is zero from where the byte string ends. -/
theorem drop_padded {s : ByteString} {size start : Nat} (ended : s.length ≤ start) :
    (s.padded size).drop start = zero (size - start) := by
  have none : (s.bytes.take size).drop start = [] :=
    List.drop_of_length_le (by rw [List.length_take, length_bytes]; omega)
  have rest : size - s.length - (start - (s.bytes.take size).length) = size - start := by
    rw [List.length_take, length_bytes]
    omega
  ext1
  rw [bytes_drop, bytes_padded, List.drop_append, none, List.nil_append, List.drop_replicate, rest,
    bytes_zero]

theorem overwrite_empty {s : ByteString} {offset : Nat} (inside : offset ≤ s.length) :
    s.overwrite offset .empty = s := by
  have none : offset - s.length = 0 := by omega
  ext1
  simp [none]

theorem empty_overwrite_zero (patch : ByteString) : empty.overwrite 0 patch = patch := by
  ext1
  simp

theorem length_overwrite {s : ByteString} {offset : Nat} {patch : ByteString}
    (inside : offset + patch.length ≤ s.length) : (s.overwrite offset patch).length = s.length := by
  simp only [overwrite, length_append, length_padded, length_drop]
  omega

theorem slice?_eq_some_iff {s window : ByteString} {start stop : Nat} :
    s.slice? start stop = some window ↔
      (start ≤ stop ∧ stop ≤ s.length) ∧ window = s.window start (stop - start) := by
  simp only [slice?]
  split <;> grind

end RiscvImage.ByteString
