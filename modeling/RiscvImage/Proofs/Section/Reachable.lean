import Mathlib.Algebra.GroupWithZero.Nat
import RiscvImage.Section.Basic

/-!
# Reachable sections

A section is built by a sequence of operations, of which any may fail.  Whatever is
done, its size is the sum of the lengths of its items and it ends within the address
space.  Alignment never pushes padding with instructions that is not made of whole
words, so such padding can only come from a push of an item as it is.
-/

namespace RiscvImage

theorem ByteString.length_concat (parts : List ByteString) :
    (concat parts).length = (parts.map length).sum := by
  induction parts with
  | nil => rfl
  | cons part parts ih =>
      rw [List.map_cons, List.sum_cons, ← ih, concat_cons, length_append]

namespace Item

theorem isWhole_padding_byte (value : UInt8) (size : UInt32) :
    (padding (.byte value) size).IsWhole :=
  trivial

/-- What is left of a size without its remainder is a whole number of words. -/
theorem isWhole_padding_nop (size : UInt32) : (padding .nop (size - size % 4)).IsWhole := by
  have le : size % 4 ≤ size := by
    rw [UInt32.le_iff_toNat_le, UInt32.toNat_mod]
    exact Nat.mod_le _ _
  apply UInt32.toNat_inj.mp
  rw [UInt32.toNat_mod, UInt32.toNat_sub_of_le _ _ le, UInt32.toNat_mod]
  change (size.toNat - size.toNat % 4) % 4 = 0
  omega

theorem length_contents {item : Item} (whole : item.IsWhole) :
    item.contents.length = item.length := by
  cases item with
  | bytes contents => rfl
  | zero size => exact ByteString.length_zero _
  | padding fill size =>
      cases fill with
      | byte value => simp [contents, length]
      | nop =>
          have multiple : size.toNat % 4 = 0 := congrArg UInt32.toNat whole
          have pattern : (Fill.pattern .nop).length = 4 := rfl
          rw [contents, ByteString.length_repeated, pattern, length]
          omega

end Item

namespace Section

/-- What can be done to a section. -/
inductive Operation
  | push (item : Item)
  | pushBytes (bytes : ByteString)
  | pushWord (word : UInt32)
  | pushZero (size : UInt32)
  | pushAlign (alignment : UInt32) (fill : Fill)
  | setBase (base : UInt32)
  deriving DecidableEq, Repr

/-- The section that an operation leaves behind, whether or not it succeeds. -/
def apply (s : Section) : Operation → Section
  | .push item => (s.push item).state
  | .pushBytes bytes => (s.pushBytes bytes).state
  | .pushWord word => (s.pushWord word).state
  | .pushZero size => (s.pushZero size).state
  | .pushAlign alignment fill => (s.pushAlign alignment fill).state
  | .setBase base => (s.setBase base).state

/-- The section after a sequence of operations. -/
def run (s : Section) (operations : List Operation) : Section :=
  operations.foldl apply s

/-- Some sequence of operations leads to the section from one without items. -/
def Reachable (s : Section) : Prop :=
  ∃ (kind : SectionKind) (base : UInt32) (operations : List Operation),
    s = (empty kind base).run operations

/-- A section as the operations on it keep it. -/
structure WellFormed (s : Section) : Prop where
  counted : s.size.toNat = (s.items.map Item.length).sum
  inside : s.base.toNat + s.size.toNat ≤ addressSpace

/-- All padding with instructions is made of whole words. -/
def IsWhole (s : Section) : Prop :=
  ∀ item ∈ s.items, item.IsWhole

instance (s : Section) : Decidable s.IsWhole :=
  inferInstanceAs (Decidable (∀ item ∈ s.items, item.IsWhole))

/-- An operation that pushes no item as it is, or one that is made of whole words. -/
def Operation.IsWhole : Operation → Prop
  | .push item => item.IsWhole
  | _ => True

variable {s : Section}

/-- What every push of padding preserves, alignment preserves. -/
theorem pushAlign_induction {motive : Section → Prop} (alignment : UInt32) (fill : Fill)
    (start : motive s)
    (pad : ∀ s fill size, (Item.padding fill size).IsWhole → motive s →
      motive (s.push (.padding fill size)).state) :
    motive (s.pushAlign alignment fill).state := by
  have padding {fill size} (whole : (Item.padding fill size).IsWhole) (s : Section)
      (before : motive s) : motive (s.pushPadding fill size).state := by
    rw [pushPadding]
    split
    · exact before
    · exact pad s fill size whole before
  rw [pushAlign]
  split
  case isFalse => exact start
  case isTrue =>
    rw [Outcome.state_map]
    cases fill with
    | byte value => exact padding (Item.isWhole_padding_byte value _) s start
    | nop =>
        have first := padding (Item.isWhole_padding_byte 0 (s.paddingTo alignment % 4)) s start
        generalize s.pushPadding (.byte 0) (s.paddingTo alignment % 4) = outcome at first
        rcases outcome with ⟨answer | answer, left⟩
        · exact first
        · exact padding (Item.isWhole_padding_nop _) left first

/-- What every push and every move preserves, all operations preserve. -/
theorem apply_induction {motive : Section → Prop} (operation : Operation) (start : motive s)
    (push : ∀ s item, (operation.IsWhole → item.IsWhole) → motive s → motive (s.push item).state)
    (move : ∀ s base, operation = .setBase base → motive s → motive (s.setBase base).state) :
    motive (s.apply operation) := by
  cases operation with
  | push item => exact push s item id start
  | pushBytes bytes => exact push s (.bytes bytes) (fun _ => trivial) start
  | pushWord word => exact push s (.bytes _) (fun _ => trivial) start
  | pushZero size => exact push s (.zero size) (fun _ => trivial) start
  | pushAlign alignment fill =>
      exact pushAlign_induction alignment fill start fun s fill size whole =>
        push s (.padding fill size) fun _ => whole
  | setBase base => exact move s base rfl start

theorem wellFormed_empty (kind : SectionKind) (base : UInt32) : (empty kind base).WellFormed where
  counted := rfl
  inside := by
    have := base.toNat_lt
    simp only [empty, addressSpace, UInt32.toNat_zero]
    omega

theorem WellFormed.push (wellFormed : s.WellFormed) (item : Item) :
    (s.push item).state.WellFormed := by
  rw [Section.push]
  split
  case isFalse => exact wellFormed
  case isTrue fits =>
    have size : (UInt32.ofNat (s.size.toNat + item.length)).toNat = s.size.toNat + item.length :=
      UInt32.toNat_ofNat_of_lt fits.1
    constructor
    case counted =>
      rw [size, List.map_append, List.sum_append, wellFormed.counted]
      rfl
    case inside =>
      rw [size]
      exact fits.2

theorem WellFormed.setBase (wellFormed : s.WellFormed) (base : UInt32) :
    (s.setBase base).state.WellFormed := by
  rw [Section.setBase]
  split
  case isFalse => exact wellFormed
  case isTrue fits => exact ⟨wellFormed.counted, fits⟩

theorem WellFormed.apply (wellFormed : s.WellFormed) (operation : Operation) :
    (s.apply operation).WellFormed :=
  apply_induction operation wellFormed (fun _ item _ before => before.push item)
    fun _ base _ before => before.setBase base

theorem WellFormed.run (wellFormed : s.WellFormed) (operations : List Operation) :
    (s.run operations).WellFormed := by
  induction operations generalizing s with
  | nil => exact wellFormed
  | cons operation rest ih => exact ih (wellFormed.apply operation)

theorem Reachable.wellFormed (reachable : s.Reachable) : s.WellFormed := by
  obtain ⟨kind, base, operations, rfl⟩ := reachable
  exact (wellFormed_empty kind base).run operations

theorem kind_push (s : Section) (item : Item) : (s.push item).state.kind = s.kind := by
  rw [push]
  split <;> rfl

theorem kind_setBase (s : Section) (base : UInt32) : (s.setBase base).state.kind = s.kind := by
  rw [setBase]
  split <;> rfl

@[simp]
theorem kind_apply (s : Section) (operation : Operation) : (s.apply operation).kind = s.kind :=
  apply_induction (motive := fun left => left.kind = s.kind) operation rfl
    (fun left item _ same => (left.kind_push item).trans same)
    fun left base _ same => (left.kind_setBase base).trans same

theorem IsWhole.push (whole : s.IsWhole) {item : Item} (isWhole : item.IsWhole) :
    (s.push item).state.IsWhole := by
  rw [Section.push]
  split
  case isFalse => exact whole
  case isTrue =>
    intro other member
    rcases List.mem_append.mp member with earlier | last
    · exact whole other earlier
    · rw [List.mem_singleton.mp last]
      exact isWhole

theorem IsWhole.setBase (whole : s.IsWhole) (base : UInt32) : (s.setBase base).state.IsWhole := by
  rw [Section.setBase]
  split <;> exact whole

/-- Unless an item is pushed as it is, all padding stays made of whole words. -/
theorem IsWhole.apply (whole : s.IsWhole) {operation : Operation} (isWhole : operation.IsWhole) :
    (s.apply operation).IsWhole :=
  apply_induction operation whole (fun _ _ itemWhole before => before.push (itemWhole isWhole))
    fun _ base _ before => before.setBase base

/-- Whole items are as long together as their contents. -/
theorem IsWhole.length_contents (whole : s.IsWhole) :
    s.contents.length = (s.items.map Item.length).sum := by
  have lengths : s.items.map (·.contents.length) = s.items.map Item.length :=
    List.map_congr_left fun item member => Item.length_contents (whole item member)
  rw [← lengths, contents, ByteString.length_concat, List.map_map]
  rfl

/-- A section made of whole items has as many bytes of contents as its size tells. -/
theorem WellFormed.length_contents (wellFormed : s.WellFormed) (whole : s.IsWhole) :
    s.contents.length = s.size.toNat :=
  whole.length_contents.trans wellFormed.counted.symm

end Section

end RiscvImage
