import RiscvImage.Proofs.ByteString.Windows
import RiscvImage.Proofs.Section.Reachable

/-!
# Growing sections

A push answers the address at which its item stands.  Items are only ever appended, so
the item stays where it is as long as the section is not moved: the address tells how
many bytes of other items come before it, and there its bytes are among the contents.
-/

namespace RiscvImage

namespace Section

/-- The operation moves the section. -/
def Operation.Moves : Operation → Prop
  | .setBase _ => True
  | _ => False

/-- The operation appends one item, and answers its address. -/
inductive Pushes (s : Section) : Operation → Item → UInt32 → Prop
  | item {item : Item} {address : UInt32} (accepted : (s.push item).answer = .ok address) :
      Pushes s (.push item) item address
  | bytes {bytes : ByteString} {address : UInt32}
      (accepted : (s.pushBytes bytes).answer = .ok address) :
      Pushes s (.pushBytes bytes) (.bytes bytes) address
  | word {word address : UInt32} (accepted : (s.pushWord word).answer = .ok address) :
      Pushes s (.pushWord word) (.bytes (.ofList (LittleEndian.word word))) address
  | zero {size address : UInt32} (accepted : (s.pushZero size).answer = .ok address) :
      Pushes s (.pushZero size) (.zero size) address

/-- The item is in the section and begins at the address, as the items before it tell. -/
def StandsAt (s : Section) (item : Item) (address : UInt32) : Prop :=
  ∃ front rest, s.items = front ++ item :: rest ∧
    address = s.base + .ofNat (front.map Item.length).sum

/-- The later section begins where the earlier one does and with the same items. -/
structure Extends (later earlier : Section) : Prop where
  base : later.base = earlier.base
  items : earlier.items <+: later.items

variable {s later : Section} {item : Item} {address : UInt32}

theorem Pushes.push {operation : Operation} (pushes : s.Pushes operation item address) :
    (s.push item).answer = .ok address ∧ s.apply operation = (s.push item).state := by
  cases pushes with
  | item accepted => exact ⟨accepted, rfl⟩
  | bytes accepted => exact ⟨accepted, rfl⟩
  | word accepted => exact ⟨accepted, rfl⟩
  | zero accepted => exact ⟨accepted, rfl⟩

/-- A push does not move the section. -/
theorem Pushes.not_moves {operation : Operation} (pushes : s.Pushes operation item address) :
    ¬ operation.Moves := by
  cases pushes <;> exact id

/-- A push that is accepted answers the end of the section and appends its item there. -/
theorem push_of_ok (accepted : (s.push item).answer = .ok address) :
    address = s.endAddress ∧ (s.push item).state.base = s.base ∧
      (s.push item).state.items = s.items ++ [item] := by
  rw [Section.push] at accepted ⊢
  split at accepted
  case isTrue fits =>
    rw [if_pos fits]
    exact ⟨(Except.ok.inj accepted).symm, rfl, rfl⟩
  case isFalse => contradiction

namespace Extends

theorem refl (s : Section) : s.Extends s :=
  ⟨rfl, List.prefix_rfl⟩

theorem trans {last : Section} (second : last.Extends later) (first : later.Extends s) :
    last.Extends s :=
  ⟨second.base.trans first.base, first.items.trans second.items⟩

end Extends

theorem extends_push (s : Section) (item : Item) : (s.push item).state.Extends s := by
  rw [push]
  split
  case isTrue => exact ⟨rfl, List.prefix_append _ _⟩
  case isFalse => exact .refl s

/-- Unless it is moved, a section only grows. -/
theorem extends_apply {operation : Operation} (stays : ¬ operation.Moves) :
    (s.apply operation).Extends s := by
  refine apply_induction (motive := (Extends · s)) operation (.refl s) ?push ?move
  case push => exact fun left item _ before => (left.extends_push item).trans before
  case move =>
    rintro _ base rfl _
    exact absurd trivial stays

/-- The item of a push that is accepted stands at the address that is answered. -/
theorem WellFormed.standsAt_push (wellFormed : s.WellFormed)
    (accepted : (s.push item).answer = .ok address) :
    (s.push item).state.StandsAt item address := by
  obtain ⟨stop, base, items⟩ := push_of_ok accepted
  refine ⟨s.items, [], items, ?_⟩
  rw [stop, base, endAddress, ← wellFormed.counted, UInt32.ofNat_toNat]

/-- Items stay where they are while the section grows. -/
theorem StandsAt.of_extends (stands : s.StandsAt item address) (extended : later.Extends s) :
    later.StandsAt item address := by
  obtain ⟨front, rest, items, address_eq⟩ := stands
  obtain ⟨more, appended⟩ := extended.items
  refine ⟨front, rest ++ more, ?_, ?_⟩
  · rw [← appended, items, List.append_assoc, List.cons_append]
  · rw [extended.base, address_eq]

/-- An item with bytes has them among the contents, as far behind the base as its address
tells.  The section ends within the address space, so the address has not wrapped. -/
theorem WellFormed.window_of_standsAt (wellFormed : s.WellFormed) (whole : s.IsWhole)
    (stands : s.StandsAt item address) (nonempty : 0 < item.length) :
    ∃ offset, address.toNat = s.base.toNat + offset ∧ offset + item.length ≤ s.contents.length ∧
      s.contents.window offset item.length = item.contents := by
  obtain ⟨front, rest, items, address_eq⟩ := stands
  have wholeFront : ∀ other ∈ front, other.IsWhole := fun other member =>
    whole other (items ▸ List.mem_append_left _ member)
  have wholeItem : item.IsWhole :=
    whole item (items ▸ List.mem_append_right _ List.mem_cons_self)
  have lengths : front.map (·.contents.length) = front.map Item.length :=
    List.map_congr_left fun other member => Item.length_contents (wholeFront other member)
  have before : (ByteString.concat (front.map Item.contents)).length =
      (front.map Item.length).sum := by
    rw [← lengths, ByteString.length_concat, List.map_map]
    rfl
  have contents : s.contents = .concat (front.map Item.contents) ++ item.contents ++
      .concat (rest.map Item.contents) := by
    rw [Section.contents, items, List.map_append, List.map_cons, ByteString.concat_append,
      ByteString.concat_cons, ByteString.append_assoc]
  have size : (front.map Item.length).sum + item.length ≤ s.size.toNat := by
    rw [wellFormed.counted, items, List.map_append, List.map_cons, List.sum_append_nat,
      List.sum_cons, ← Nat.add_assoc]
    exact Nat.le_add_right _ _
  have inside := wellFormed.inside
  have space : addressSpace = 2 ^ 32 := rfl
  refine ⟨(front.map Item.length).sum, ?position, ?ends, ?window⟩
  case position =>
    have offset : (UInt32.ofNat (front.map Item.length).sum).toNat =
        (front.map Item.length).sum :=
      UInt32.toNat_ofNat_of_lt (by rw [UInt32.size]; omega)
    rw [address_eq, UInt32.toNat_add, offset, Nat.mod_eq_of_lt (by omega)]
  case ends =>
    rw [wellFormed.length_contents whole]
    exact size
  case window =>
    rw [contents]
    exact ByteString.window_middle before (Item.length_contents wholeItem)

end Section

end RiscvImage
