import RiscvImage.Proofs.Section.Reachable

/-!
# Padding

Padding is made of at most two items.  With instructions these are zero bytes up to a word
and then the words; with bytes it is a single item.  If padding does not fit in the section,
it is its last item that is refused, and by then the zero bytes are in place.
-/

namespace RiscvImage

namespace Fill

/-- The bytes of padding.  Padding with instructions begins with the zero bytes that are
missing to a whole number of words. -/
def contents : Fill → (padding : Nat) → ByteString
  | nop, padding => .zero (padding % 4) ++ .repeated (pattern nop) (padding / 4)
  | byte value, padding => .repeated [value] padding

/-- The item of a stretch of padding, or none if there is nothing to pad. -/
def stretch (fill : Fill) (size : UInt32) : List Item :=
  if size = 0 then [] else [.padding fill size]

/-- The items of padding. -/
def items : Fill → (padding : UInt32) → List Item
  | nop, padding => (byte 0).stretch (padding % 4) ++ nop.stretch (padding - padding % 4)
  | byte value, padding => (byte value).stretch padding

/-- How many zero bytes stay in place of padding that does not fit. -/
def remnant : Fill → (padding : UInt32) → UInt32
  | nop, padding => if padding < 4 then 0 else padding % 4
  | byte _, _ => 0

theorem toNat_mod_four (padding : UInt32) : (padding % 4).toNat = padding.toNat % 4 :=
  UInt32.toNat_mod padding 4

theorem toNat_sub_mod_four (padding : UInt32) :
    (padding - padding % 4).toNat = padding.toNat - padding.toNat % 4 := by
  have le : padding % 4 ≤ padding := by
    rw [UInt32.le_iff_toNat_le, toNat_mod_four]
    exact Nat.mod_le _ _
  rw [UInt32.toNat_sub_of_le _ _ le, toNat_mod_four]

theorem sum_length_stretch (fill : Fill) (size : UInt32) :
    ((fill.stretch size).map Item.length).sum = size.toNat := by
  rw [stretch]
  split
  case isTrue none =>
    rw [none]
    rfl
  case isFalse => exact Nat.add_zero _

theorem concat_contents_stretch_byte (value : UInt8) (size : UInt32) :
    ByteString.concat (((byte value).stretch size).map Item.contents) =
      .repeated [value] size.toNat := by
  rw [stretch]
  split
  case isTrue none =>
    ext1
    simp [none]
  case isFalse => exact ByteString.append_empty _

theorem concat_contents_stretch_nop (size : UInt32) :
    ByteString.concat ((nop.stretch size).map Item.contents) =
      .repeated (pattern nop) (size.toNat / 4) := by
  rw [stretch]
  split
  case isTrue none =>
    ext1
    simp [none]
  case isFalse => exact ByteString.append_empty _

/-- The items of padding stand for its bytes. -/
theorem concat_contents_items (fill : Fill) (padding : UInt32) :
    ByteString.concat ((fill.items padding).map Item.contents) = fill.contents padding.toNat := by
  cases fill with
  | byte value => exact concat_contents_stretch_byte _ _
  | nop =>
      have words : (padding.toNat - padding.toNat % 4) / 4 = padding.toNat / 4 := by omega
      rw [items, List.map_append, ByteString.concat_append, concat_contents_stretch_byte,
        concat_contents_stretch_nop, toNat_mod_four, toNat_sub_mod_four, words, contents,
        ByteString.zero]

theorem remnant_eq_zero_iff {fill : Fill} {padding : UInt32} :
    fill.remnant padding = 0 ↔ fill ≠ .nop ∨ padding.toNat % 4 = 0 ∨ padding.toNat < 4 := by
  cases fill with
  | byte value => simp [remnant]
  | nop =>
      have zeros : padding % 4 = 0 ↔ padding.toNat % 4 = 0 := by
        rw [← UInt32.toNat_inj, toNat_mod_four]
        rfl
      have short : padding < 4 ↔ padding.toNat < 4 := UInt32.lt_iff_toNat_lt
      by_cases few : padding < 4
      · simp [remnant, few, short.mp few]
      · simp [remnant, few, zeros, mt short.mpr few]

theorem toNat_remnant {fill : Fill} {padding : UInt32} (some : fill.remnant padding ≠ 0) :
    (fill.remnant padding).toNat = padding.toNat % 4 := by
  cases fill with
  | byte value => exact absurd rfl some
  | nop =>
      rw [remnant] at some ⊢
      split
      case isTrue few => exact absurd (if_pos few) some
      case isFalse => exact toNat_mod_four padding

/-- A stretch has no other item than its own. -/
theorem eq_of_stretch_eq_append {fill other : Fill} {total size : UInt32} {front rest : List Item}
    (parts : fill.stretch total = front ++ .padding other size :: rest) :
    front = [] ∧ other = fill ∧ size = total := by
  rw [stretch] at parts
  split at parts
  case isTrue =>
    have member : Item.padding other size ∈ ([] : List Item) :=
      parts ▸ List.mem_append_right _ List.mem_cons_self
    contradiction
  case isFalse =>
    cases front with
    | nil =>
        obtain ⟨same, -⟩ := List.cons.inj parts
        obtain ⟨rfl, rfl⟩ := Item.padding.inj same
        exact ⟨rfl, rfl, rfl⟩
    | cons first front =>
        have member : Item.padding other size ∈ ([] : List Item) :=
          (List.cons.inj parts).2 ▸ List.mem_append_right _ List.mem_cons_self
        contradiction

/-- Instructions among the items of padding come last, behind less than a word of zero
bytes. -/
theorem eq_of_items_eq_append {fill : Fill} {padding size : UInt32} {front rest : List Item}
    (parts : fill.items padding = front ++ .padding .nop size :: rest) :
    (front.map Item.length).sum = padding.toNat % 4 ∧ size = padding - padding % 4 := by
  cases fill with
  | byte value =>
      obtain ⟨-, other, -⟩ := eq_of_stretch_eq_append parts
      contradiction
  | nop =>
      rw [← toNat_mod_four, ← sum_length_stretch (byte 0) (padding % 4)]
      -- What stands in front reaches as far as the zero bytes: they are no instructions.
      rcases List.append_eq_append_iff.mp parts with
        ⟨more, rfl, words⟩ | ⟨_ | ⟨first, left⟩, zeros, here⟩
      · obtain ⟨rfl, -, rfl⟩ := eq_of_stretch_eq_append words
        rw [List.append_nil]
        exact ⟨rfl, rfl⟩
      · have words : nop.stretch (padding - padding % 4) = [] ++ .padding .nop size :: rest :=
          here.symm
        obtain ⟨-, -, rfl⟩ := eq_of_stretch_eq_append words
        rw [zeros, List.append_nil]
        exact ⟨rfl, rfl⟩
      · obtain rfl := (List.cons.inj here).1
        obtain ⟨-, other, -⟩ := eq_of_stretch_eq_append zeros
        contradiction

end Fill

namespace Section

variable {s : Section}

/-- The section with further items of `size` bytes in all. -/
def extend (s : Section) (size : UInt32) (items : List Item) : Section :=
  { s with size := s.size + size, items := s.items ++ items }

theorem extend_nil (s : Section) : s.extend 0 [] = s := by
  rw [extend, UInt32.add_zero, List.append_nil]

theorem extend_stretch_eq_self_iff {fill : Fill} {size : UInt32} :
    s.extend size (fill.stretch size) = s ↔ size = 0 := by
  constructor
  case mp =>
    intro same
    have items : s.items ++ fill.stretch size = s.items := congrArg Section.items same
    rw [List.append_right_eq_self, Fill.stretch, ite_eq_left_iff] at items
    exact Decidable.of_not_not fun some => List.cons_ne_nil _ _ (items some)
  case mpr =>
    rintro rfl
    exact s.extend_nil

theorem extend_extend (s : Section) (first second : UInt32) (items more : List Item) :
    (s.extend first items).extend second more = s.extend (first + second) (items ++ more) := by
  simp only [extend, UInt32.add_assoc, List.append_assoc]

theorem base_extend (s : Section) (size : UInt32) (items : List Item) :
    (s.extend size items).base = s.base :=
  rfl

theorem toNat_size_extend {size : UInt32} (short : s.size.toNat + size.toNat < addressSpace)
    (items : List Item) : (s.extend size items).size.toNat = s.size.toNat + size.toNat := by
  rw [extend, UInt32.toNat_add]
  exact Nat.mod_eq_of_lt short

theorem contents_extend (s : Section) (size : UInt32) (items : List Item) :
    (s.extend size items).contents = s.contents ++ .concat (items.map Item.contents) := by
  rw [contents, extend, List.map_append, ByteString.concat_append]
  rfl

/-- Padding that fits is appended. -/
theorem pushPadding_of_fits {size : UInt32} (short : s.size.toNat + size.toNat < addressSpace)
    (inside : s.base.toNat + (s.size.toNat + size.toNat) ≤ addressSpace) (fill : Fill) :
    s.pushPadding fill size = ⟨.ok (), s.extend size (fill.stretch size)⟩ := by
  rw [pushPadding, Fill.stretch]
  split
  case isTrue none => rw [none, extend_nil]
  case isFalse =>
    have sum : UInt32.ofNat (s.size.toNat + size.toNat) = s.size + size := by
      rw [UInt32.ofNat_add, UInt32.ofNat_toNat, UInt32.ofNat_toNat]
    simp only [push, Item.length, short, inside, and_self, if_true, sum]
    rfl

theorem pushPadding_of_overflow {size : UInt32} (nonzero : 0 < size.toNat)
    (long : addressSpace ≤ s.size.toNat + size.toNat) (fill : Fill) :
    s.pushPadding fill size = ⟨.error (.sectionOverflow s.kind), s⟩ := by
  have overflows : ¬ s.size.toNat + size.toNat < addressSpace := Nat.not_lt.mpr long
  have some : size ≠ 0 := by
    rintro rfl
    exact Nat.lt_irrefl 0 nonzero
  simp only [pushPadding, some, if_false, push, Item.length, overflows, false_and]
  rfl

/-- Append the items of padding in their order. -/
def pad (s : Section) : Fill → (padding : UInt32) → Outcome ObjectError Section Unit
  | .nop, padding => (s.pushPadding (.byte 0) (padding % 4)).andThen fun _ s =>
      s.pushPadding .nop (padding - padding % 4)
  | .byte value, padding => s.pushPadding (.byte value) padding

/-- Padding that fits is appended as a whole. -/
theorem pad_of_fits {padding : UInt32} (short : s.size.toNat + padding.toNat < addressSpace)
    (inside : s.base.toNat + (s.size.toNat + padding.toNat) ≤ addressSpace) (fill : Fill) :
    s.pad fill padding = ⟨.ok (), s.extend padding (fill.items padding)⟩ := by
  cases fill with
  | byte value => exact pushPadding_of_fits short inside _
  | nop =>
      have zeros := Fill.toNat_mod_four padding
      have words := Fill.toNat_sub_mod_four padding
      have size : (s.extend (padding % 4) ((Fill.byte 0).stretch (padding % 4))).size.toNat = _ :=
        toNat_size_extend (by omega) _
      have total : padding % 4 + (padding - padding % 4) = padding := by
        rw [UInt32.add_comm, UInt32.sub_add_cancel]
      rw [pad, pushPadding_of_fits (by omega) (by omega), Outcome.andThen_ok,
        pushPadding_of_fits (by omega) (by rw [base_extend]; omega), extend_extend, total]
      rfl

/-- Padding that would fill the whole address space is refused.  Of padding with
instructions that has a word among it, it is the words that are refused. -/
theorem pad_of_overflow {padding : UInt32}
    (whole : s.size.toNat + padding.toNat = addressSpace) (start : s.base = 0) (fill : Fill) :
    s.pad fill padding = ⟨.error (.sectionOverflow s.kind),
      s.extend (fill.remnant padding) ((Fill.byte 0).stretch (fill.remnant padding))⟩ := by
  have size := s.size.toNat_lt
  have space : addressSpace = 2 ^ 32 := rfl
  cases fill with
  | byte value =>
      rw [pad, pushPadding_of_overflow (by omega) (by omega)]
      exact congrArg (Outcome.mk _) s.extend_nil.symm
  | nop =>
      have zeros := Fill.toNat_mod_four padding
      have words := Fill.toNat_sub_mod_four padding
      rw [pad, Fill.remnant]
      split
      case isTrue short =>
        have short : padding.toNat < 4 := UInt32.lt_iff_toNat_lt.mp short
        rw [pushPadding_of_overflow (by omega) (by omega), Outcome.andThen_error]
        exact congrArg (Outcome.mk _) s.extend_nil.symm
      case isFalse long =>
        have long : 4 ≤ padding.toNat := UInt32.le_iff_toNat_le.mp (UInt32.not_lt.mp long)
        have size : (s.extend (padding % 4) ((Fill.byte 0).stretch (padding % 4))).size.toNat = _ :=
          toNat_size_extend (by omega) _
        rw [pushPadding_of_fits (by omega) (by rw [start, UInt32.toNat_zero]; omega),
          Outcome.andThen_ok, pushPadding_of_overflow (by omega) (by omega)]
        rfl

end Section

end RiscvImage
