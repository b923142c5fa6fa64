import RiscvImage.ByteString.Window

/-!
# What windows show

Windows are taken from byte strings that are put together, padded and overwritten, and
each of them shows what stands there.  A byte string agrees with another on a window if
it has all of its bytes and they are the same; it then agrees on every part of the window.
Changing a byte string elsewhere leaves the windows on it as they were.
-/

namespace RiscvImage

/-- What stands in the middle of a list is found by its offset and length. -/
theorem take_drop_middle {front middle rest : List UInt8} {offset count : Nat}
    (starts : front.length = offset) (ends : middle.length = count) :
    ((front ++ middle ++ rest).drop offset).take count = middle := by
  rw [List.append_assoc, List.drop_left' starts, List.take_left' ends]

/-- The `count` positions from `offset` on and the `size` positions from `start` on have
none in common. -/
def RangesApart (offset count start size : Nat) : Prop :=
  count = 0 ∨ size = 0 ∨ offset + count ≤ start ∨ start + size ≤ offset

instance (offset count start size : Nat) : Decidable (RangesApart offset count start size) :=
  inferInstanceAs (Decidable (_ ∨ _))

theorem RangesApart.not_mem {offset count start size position : Nat}
    (apart : RangesApart offset count start size) (after : offset ≤ position)
    (before : position < offset + count) : position < start ∨ start + size ≤ position := by
  simp only [RangesApart] at apart
  omega

namespace ByteString

variable {s other : ByteString}

@[simp]
theorem window_zero (s : ByteString) (offset : Nat) : s.window offset 0 = empty :=
  take_zero _

theorem window_length (s : ByteString) : s.window 0 s.length = s := by
  ext1
  rw [bytes_window, List.drop_zero, ← length_bytes, List.take_length]

theorem window_append_left {front : ByteString} {offset count : Nat}
    (inside : offset + count ≤ front.length) (rest : ByteString) :
    (front ++ rest).window offset count = front.window offset count := by
  have long : offset ≤ front.bytes.length := by
    rw [length_bytes]
    omega
  have short : count ≤ (front.bytes.drop offset).length := by
    rw [List.length_drop, length_bytes]
    omega
  ext1
  rw [bytes_window, bytes_window, bytes_append, List.drop_append_of_le_length long,
    List.take_append_of_le_length short]

/-- What stands in the middle of a byte string is found by its offset and length. -/
theorem window_middle {front middle rest : ByteString} {offset count : Nat}
    (starts : front.length = offset) (ends : middle.length = count) :
    (front ++ middle ++ rest).window offset count = middle := by
  ext1
  rw [bytes_window, bytes_append, bytes_append]
  exact take_drop_middle ((length_bytes front).trans starts) ((length_bytes middle).trans ends)

/-- A window on a window is one on the whole. -/
theorem window_window {offset count size : Nat} (inside : offset + count ≤ size)
    (s : ByteString) (start : Nat) :
    (s.window start size).window offset count = s.window (start + offset) count := by
  have short : min count (size - offset) = count := by omega
  ext1
  rw [bytes_window, bytes_window, bytes_window, List.drop_take, List.take_take, List.drop_drop,
    short]

theorem window_eq_of_getElem? {offset count : Nat}
    (same : ∀ position, offset ≤ position → position < offset + count →
      other.bytes[position]? = s.bytes[position]?) :
    other.window offset count = s.window offset count := by
  ext1
  refine List.ext_getElem? fun index => ?_
  rw [bytes_window, bytes_window, List.getElem?_take, List.getElem?_take, List.getElem?_drop,
    List.getElem?_drop]
  split
  case isTrue within => exact same (offset + index) (Nat.le_add_right _ _) (by omega)
  case isFalse => rfl

theorem length_concat_of_forall {parts : List ByteString} {size : Nat}
    (sizes : ∀ part ∈ parts, part.length = size) : (concat parts).length = parts.length * size := by
  induction parts with
  | nil => simp
  | cons part rest ih =>
      have first := sizes part List.mem_cons_self
      have others := ih fun later member => sizes later (List.mem_cons_of_mem part member)
      rw [concat_cons, length_append, first, others, List.length_cons, Nat.succ_mul, Nat.add_comm]

/-- Parts of the same size that follow a front are found at its multiples from there on. -/
theorem window_concat {front : ByteString} {parts : List ByteString} {offset size index : Nat}
    (starts : front.length = offset) (sizes : ∀ part ∈ parts, part.length = size)
    (index_lt : index < parts.length) (rest : ByteString) :
    (front ++ concat parts ++ rest).window (offset + index * size) size = parts[index] := by
  have whole : parts = parts.take index ++ parts[index] :: parts.drop (index + 1) := by
    rw [← List.drop_eq_getElem_cons index_lt, List.take_append_drop]
  have split : front ++ concat parts ++ rest =
      front ++ concat (parts.take index) ++ parts[index] ++
        (concat (parts.drop (index + 1)) ++ rest) := by
    refine (congrArg (front ++ concat · ++ rest) whole).trans ?_
    simp only [concat_append, concat_cons, append_assoc]
  have before : (front ++ concat (parts.take index)).length = offset + index * size := by
    rw [length_append, starts,
      length_concat_of_forall fun part member => sizes part (List.mem_of_mem_take member),
      List.length_take_of_le (Nat.le_of_lt index_lt)]
  rw [split]
  exact window_middle before (sizes _ (List.getElem_mem index_lt))

@[simp]
theorem padded_length (s : ByteString) : s.padded s.length = s := by
  ext1
  rw [bytes_padded, Nat.sub_self, List.replicate_zero, List.append_nil, ← length_bytes,
    List.take_length]

/-- A patch at the beginning is followed by what it does not reach. -/
theorem overwrite_zero (s patch : ByteString) :
    s.overwrite 0 patch = patch ++ s.drop patch.length := by
  ext1
  simp

/-- Outside of a patch the bytes are those of before. -/
theorem getElem?_overwrite {offset position : Nat} {patch : ByteString}
    (inside : offset + patch.length ≤ s.length)
    (outside : position < offset ∨ offset + patch.length ≤ position) :
    (s.overwrite offset patch).bytes[position]? = s.bytes[position]? := by
  have none : offset - s.length = 0 := by omega
  have front : (s.bytes.take offset).length = offset := by
    rw [List.length_take, length_bytes]
    omega
  rw [bytes_overwrite, bytes_padded, none, List.replicate_zero, List.append_nil, List.append_assoc]
  rcases outside with before | after
  · rw [List.getElem?_append_left (by omega), List.getElem?_take_of_lt before]
  · have rest : position - offset - patch.length = position - (offset + patch.length) := by omega
    have back : offset + patch.length + (position - (offset + patch.length)) = position := by omega
    rw [List.getElem?_append_right (by omega), front,
      List.getElem?_append_right (by rw [length_bytes]; omega), length_bytes, List.getElem?_drop,
      rest, back]

/-- The other byte string has all of the `count` bytes from `offset` on, and they are the
same there. -/
def AgreesAt (s other : ByteString) (offset count : Nat) : Prop :=
  offset + count ≤ other.length ∧ other.window offset count = s.window offset count

instance (s other : ByteString) (offset count : Nat) : Decidable (s.AgreesAt other offset count) :=
  inferInstanceAs (Decidable (_ ∧ _))

/-- Agreement on a window is agreement on each part of it. -/
theorem AgreesAt.part {start size offset count : Nat} (agrees : s.AgreesAt other start size)
    (begins : start ≤ offset) (ends : offset + count ≤ start + size) :
    s.AgreesAt other offset count := by
  obtain ⟨complete, same⟩ := agrees
  have whole : start + (offset - start) = offset := by omega
  have part (file : ByteString) :
      (file.window start size).window (offset - start) count = file.window offset count := by
    rw [window_window (by omega), whole]
  refine ⟨by omega, ?_⟩
  rw [← part other, ← part s, same]

theorem agreesAt_append {offset count : Nat} (inside : offset + count ≤ s.length)
    (rest : ByteString) : s.AgreesAt (s ++ rest) offset count := by
  refine ⟨?_, window_append_left inside rest⟩
  rw [length_append]
  omega

/-- What is left of a byte string that is cut short agrees with all of it. -/
theorem agreesAt_take {offset count size : Nat} (inside : offset + count ≤ (s.take size).length) :
    s.AgreesAt (s.take size) offset count := by
  have left : offset + count ≤ size := by
    rw [length_take] at inside
    omega
  refine ⟨inside, ?_⟩
  have front : s.take size = s.window 0 size := by
    ext1
    rw [bytes_take, bytes_window, List.drop_zero]
  rw [front, window_window left, Nat.zero_add]

/-- A patch leaves what does not meet it as it was. -/
theorem agreesAt_overwrite {offset start count : Nat} {patch : ByteString}
    (inside : offset + patch.length ≤ s.length) (complete : start + count ≤ s.length)
    (apart : RangesApart start count offset patch.length) :
    s.AgreesAt (s.overwrite offset patch) start count := by
  refine ⟨?_, window_eq_of_getElem? ?_⟩
  · rwa [length_overwrite inside]
  · intro position after before
    exact getElem?_overwrite inside (apart.not_mem after before)

end ByteString

end RiscvImage
