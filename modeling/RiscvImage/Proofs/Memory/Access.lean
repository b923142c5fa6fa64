import RiscvImage.Proofs.ByteString.Windows
import RiscvImage.Proofs.Memory.WellFormed

/-!
# Accesses to well-formed memory

An address is looked up in one region only, the last of those that begin at the address or
below it.  In well-formed memory the regions in front of this one end before it begins, and
the regions behind it begin above the address.  So whichever region contains the address is
the one that is found, and what is read is a window on the contents of that region.
-/

namespace RiscvImage

namespace Region

theorem contains_iff {region : Region} {address : UInt32} :
    region.contains address = true ↔
      region.base.toNat ≤ address.toNat ∧ address.toNat < region.stop := by
  rw [contains, Bool.and_eq_true, decide_eq_true_eq, decide_eq_true_eq, UInt32.le_iff_toNat_le]

/-- From the base on, the distance of an address does not wrap around. -/
theorem offsetOf_eq {region : Region} {address : UInt32}
    (above : region.base.toNat ≤ address.toNat) :
    region.offsetOf address = address.toNat - region.base.toNat :=
  UInt32.toNat_sub_of_le _ _ (UInt32.le_iff_toNat_le.mpr above)

end Region

namespace Memory

variable {memory : Memory}

theorem contains_of_regionAt? {address : UInt32} {region : Region}
    (found : memory.regionAt? address = some region) : region.contains address = true :=
  (Option.filter_eq_some_iff.mp found).2

/-- Of the regions that begin at an address or below it, the one that contains the address
is the last. -/
theorem WellFormed.takeWhile_base_le (wellFormed : memory.WellFormed) {address : UInt32}
    {region : Region} {front rest : List Region} (split : memory.regions = front ++ region :: rest)
    (contained : region.contains address = true) :
    (memory.regions.takeWhile fun region => region.base ≤ address) = front ++ [region] := by
  obtain ⟨above, below⟩ := Region.contains_iff.mp contained
  have ordered := wellFormed.ordered
  rw [split] at ordered ⊢
  obtain ⟨-, orderedRest, before⟩ := List.pairwise_append.mp ordered
  have frontBegins : ∀ other ∈ front, decide (other.base ≤ address) = true := by
    intro other member
    have ends : other.stop ≤ region.base.toNat := before other member region List.mem_cons_self
    have begins := other.base_le_stop
    exact decide_eq_true (UInt32.le_iff_toNat_le.mpr (by omega))
  have begins : decide (region.base ≤ address) = true :=
    decide_eq_true (UInt32.le_iff_toNat_le.mpr above)
  have nothing : (rest.takeWhile fun region => region.base ≤ address) = [] := by
    cases rest with
    | nil => rfl
    | cons next later =>
        have ends : region.stop ≤ next.base.toNat :=
          (List.pairwise_cons.mp orderedRest).1 next List.mem_cons_self
        have higher : ¬ next.base ≤ address := by
          rw [UInt32.le_iff_toNat_le]
          omega
        exact List.takeWhile_cons_of_neg (by simpa using higher)
  rw [List.takeWhile_append_of_pos frontBegins, List.takeWhile_cons, if_pos begins, nothing]

/-- The region that contains an address is the one that is found. -/
theorem WellFormed.regionAt?_eq_some_iff (wellFormed : memory.WellFormed) {address : UInt32}
    {region : Region} :
    memory.regionAt? address = some region ↔
      region ∈ memory.regions ∧ region.contains address = true := by
  constructor
  · intro found
    exact ⟨mem_of_regionAt? found, contains_of_regionAt? found⟩
  · rintro ⟨member, contained⟩
    obtain ⟨front, rest, split⟩ := List.append_of_mem member
    rw [regionAt?, wellFormed.takeWhile_base_le split contained, List.getLast?_concat]
    exact Option.filter_some_pos contained

/-- A read that stays inside a region shows a window on its contents. -/
theorem WellFormed.read_eq_window (wellFormed : memory.WellFormed) {region : Region}
    (member : region ∈ memory.regions) {address : UInt32} {offset count : Nat}
    (position : address.toNat = region.base.toNat + offset) (begins : offset < region.length)
    (ends : offset + count ≤ region.length) :
    memory.read address count = .ok (region.contents.window offset count) := by
  have above : region.base.toNat ≤ address.toNat := by omega
  have contained : region.contains address = true := by
    rw [Region.contains_iff, Region.stop]
    omega
  have distance : region.offsetOf address = offset := by
    rw [Region.offsetOf_eq above]
    omega
  rw [read, regionFor, wellFormed.regionAt?_eq_some_iff.mpr ⟨member, contained⟩]
  simp only [distance, if_pos ends, Except.map]

end Memory

end RiscvImage
