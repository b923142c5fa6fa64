import RiscvImage.Proofs.Section.Reachable

/-!
# What a section keeps account of

The size of a section is kept beside its items, and all that is decided about the section
is decided by its size: whether there is room for another item, whether the section can be
moved, and at which address the next item stands.  The size can be relied on, since it is
the sum of the lengths of the items after every history, whether or not the operations in
it succeeded.

There is room for an item if two bounds are kept.  The new size has to be a word, and the
new end must not lie beyond the address space; neither of them implies the other.
-/

namespace RiscvImage.Section

variable {s : Section}

/-- The pushes of a single item, each with its item and its outcome. -/
inductive PushOf (s : Section) : Item → Outcome ObjectError Section UInt32 → Prop
  | item (item : Item) : PushOf s item (s.push item)
  | bytes (bytes : ByteString) : PushOf s (.bytes bytes) (s.pushBytes bytes)
  | word (word : UInt32) : PushOf s (.bytes (.ofList (LittleEndian.word word))) (s.pushWord word)
  | zero (size : UInt32) : PushOf s (.zero size) (s.pushZero size)

/-- There is room for so many bytes more. -/
def HasRoom (s : Section) (length : Nat) : Prop :=
  s.size.toNat + length < addressSpace ∧ s.base.toNat + (s.size.toNat + length) ≤ addressSpace

/-- The item is appended behind all others, and its address is answered.  An address behind
the last one of the address space is zero. -/
structure Appends (s : Section) (item : Item) (outcome : Outcome ObjectError Section UInt32) :
    Prop where
  answer : ∃ address : UInt32, outcome.answer = .ok address ∧
    address.toNat = (s.base.toNat + (s.items.map Item.length).sum) % addressSpace
  items : outcome.state.items = s.items ++ [item]
  size : outcome.state.size.toNat = s.size.toNat + item.length
  base : outcome.state.base = s.base
  kind : outcome.state.kind = s.kind

/-- A section that can be relied on: its size is right, it ends within the address space,
and its size decides what is accepted from here on. -/
structure Sound (s : Section) : Prop where
  counted : s.size.toNat = (s.items.map Item.length).sum
  short : (s.items.map Item.length).sum < addressSpace
  inside : s.base.toNat + s.size.toNat ≤ addressSpace
  pushed : ∀ {item outcome}, s.PushOf item outcome → s.HasRoom item.length →
    s.Appends item outcome
  refused : ∀ {item outcome}, s.PushOf item outcome → ¬ s.HasRoom item.length →
    outcome = ⟨.error (.sectionOverflow s.kind), s⟩
  moved : ∀ base : UInt32, base.toNat + s.size.toNat ≤ addressSpace →
    s.setBase base = ⟨.ok (), { s with base }⟩
  kept : ∀ base : UInt32, ¬ base.toNat + s.size.toNat ≤ addressSpace →
    s.setBase base = ⟨.error (.sectionOverflow s.kind), s⟩

theorem PushOf.eq_push {item : Item} {outcome : Outcome ObjectError Section UInt32}
    (push : s.PushOf item outcome) : outcome = s.push item := by
  cases push <;> rfl

theorem WellFormed.appends_push (wellFormed : s.WellFormed) {item : Item}
    (room : s.HasRoom item.length) : s.Appends item (s.push item) := by
  have size : (UInt32.ofNat (s.size.toNat + item.length)).toNat = s.size.toNat + item.length :=
    UInt32.toNat_ofNat_of_lt room.1
  have address : s.endAddress.toNat =
      (s.base.toNat + (s.items.map Item.length).sum) % addressSpace := by
    rw [endAddress, UInt32.toNat_add, wellFormed.counted]
    rfl
  have outcome : s.push item = ⟨.ok s.endAddress,
      { s with size := .ofNat (s.size.toNat + item.length), items := s.items ++ [item] }⟩ :=
    if_pos room
  rw [outcome]
  exact ⟨⟨s.endAddress, rfl, address⟩, rfl, size, rfl, rfl⟩

theorem push_of_not_hasRoom {item : Item} (full : ¬ s.HasRoom item.length) :
    s.push item = ⟨.error (.sectionOverflow s.kind), s⟩ :=
  if_neg full

/-- The size is a word, so what it counts is short. -/
theorem WellFormed.sound (wellFormed : s.WellFormed) : s.Sound where
  counted := wellFormed.counted
  short := wellFormed.counted ▸ s.size.toNat_lt
  inside := wellFormed.inside
  pushed push room := push.eq_push ▸ wellFormed.appends_push room
  refused push full := push.eq_push.trans (push_of_not_hasRoom full)
  moved _ fits := if_pos fits
  kept _ fits := if_neg fits

end RiscvImage.Section
