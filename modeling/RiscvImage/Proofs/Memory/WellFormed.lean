import Mathlib.Algebra.GroupWithZero.Nat
import RiscvImage.Proofs.Memory.Regions

/-!
# Well-formed memory

In well-formed memory the regions stand in address order without meeting, the
count of mapped bytes is the sum of their lengths, and that count respects the
limit.  Disjointness bounds the count by the size of the address space, so the
64-bit sum in the check of the limit never wraps around, however high the limit.

Mapping and writing keep memory well formed.
-/

namespace RiscvImage

namespace Region

/-- Where a region begins and how long it is. -/
def extent (region : Region) : UInt32 × Nat :=
  (region.base, region.length)

/-- Regions in order fit between the lowest of their bases and the highest of
their ends. -/
theorem add_sum_length_le {regions : List Region} (ordered : regions.Pairwise Before)
    {low high : Nat} (above : ∀ region ∈ regions, low ≤ region.base.toNat)
    (inside : ∀ region ∈ regions, region.stop ≤ high) (low_le : low ≤ high) :
    low + (regions.map length).sum ≤ high := by
  induction regions generalizing low with
  | nil => exact low_le
  | cons region rest ih =>
      obtain ⟨before, orderedRest⟩ := List.pairwise_cons.mp ordered
      have insideRest : ∀ later ∈ rest, later.stop ≤ high := by
        intro later member
        exact inside later (List.mem_cons_of_mem region member)
      have bounded := ih orderedRest before insideRest (inside region List.mem_cons_self)
      have begins : low ≤ region.base.toNat := above region List.mem_cons_self
      simp only [List.map_cons, List.sum_cons, stop] at bounded ⊢
      omega

end Region

namespace Memory

/-- Memory as the operations on it keep it. -/
structure WellFormed (memory : Memory) : Prop where
  ordered : memory.regions.Pairwise Region.Before
  regions : ∀ region ∈ memory.regions, region.WellFormed
  counted : memory.mapped.toNat = (memory.regions.map Region.length).sum
  limited : memory.mapped ≤ memory.limit

/-- A region for which there is a place among the others and room under the
limit. -/
structure Admits (memory : Memory) (region : Region) : Prop where
  nonempty : 0 < region.length
  inside : region.stop ≤ addressSpace
  apart : ∀ other ∈ memory.regions, other.Apart region
  room : memory.mapped.toNat + region.length ≤ memory.limit.toNat

theorem wellFormed_empty (limit : UInt64) : (empty limit).WellFormed where
  ordered := List.Pairwise.nil
  regions := by simp [empty]
  counted := rfl
  limited := UInt64.zero_le

/-- Disjoint regions cannot fill more than the address space. -/
theorem WellFormed.mapped_le {memory : Memory} (wellFormed : memory.WellFormed) :
    memory.mapped.toNat ≤ addressSpace := by
  have inside : ∀ region ∈ memory.regions, region.stop ≤ addressSpace := by
    intro region member
    exact (wellFormed.regions region member).inside
  have bounded := Region.add_sum_length_le wellFormed.ordered
    (fun region _ => Nat.zero_le region.base.toNat) inside (Nat.zero_le addressSpace)
  rw [wellFormed.counted]
  omega

/-- The check of the limit adds without wrapping around. -/
theorem WellFormed.toNat_mapped_add {memory : Memory} (wellFormed : memory.WellFormed)
    (size : UInt32) :
    (memory.mapped + size.toUInt64).toNat = memory.mapped.toNat + size.toNat := by
  have mapped := wellFormed.mapped_le
  have small : size.toNat < 2 ^ 32 := size.toNat_lt
  have space : addressSpace = 2 ^ 32 := rfl
  rw [UInt64.toNat_add, UInt32.toNat_toUInt64]
  exact Nat.mod_eq_of_lt (by omega)

/-- A mapping is refused for the first of these reasons: it is empty, it leaves the
address space, it meets a region, the lowest of which is named, or it exceeds the
limit. -/
theorem WellFormed.refusal?_eq {memory : Memory} (wellFormed : memory.WellFormed)
    (base size : UInt32) :
    memory.refusal? base size =
      if size = 0 then some (.invalidSize size)
      else if addressSpace < base.toNat + size.toNat then some (.outOfRange base size)
      else
        match memory.regions.find? (·.meets base size) with
        | some region => some (.overlap base size region.base)
        | none =>
          if memory.limit.toNat < memory.mapped.toNat + size.toNat then
            some (.limitExceeded size memory.limit)
          else none := by
  have neighbour := neighbour?_eq_find? wellFormed.ordered wellFormed.regions base size
  rw [refusal?]
  by_cases empty : size = 0
  · rw [if_pos empty, if_pos empty]
  · rw [if_neg empty, if_neg empty]
    by_cases outside : addressSpace < base.toNat + size.toNat
    · rw [if_pos outside, if_pos outside]
    · rw [if_neg outside, if_neg outside, neighbour]
      cases memory.regions.find? (·.meets base size) with
      | some region => rfl
      | none => simp only [UInt64.lt_iff_toNat_lt, wellFormed.toNat_mapped_add]

/-- A mapping is refused unless there is a place for its region. -/
theorem WellFormed.refusal?_eq_none_iff {memory : Memory} (wellFormed : memory.WellFormed)
    {region : Region} {size : UInt32} (length : region.length = size.toNat) :
    memory.refusal? region.base size = none ↔ memory.Admits region := by
  have space := neighbour?_eq_none_iff wellFormed.ordered wellFormed.regions length
  have stop : region.stop = region.base.toNat + size.toNat := by rw [Region.stop, length]
  have sum := wellFormed.toNat_mapped_add size
  have empty : size = 0 ↔ size.toNat = 0 := UInt32.toNat_inj.symm
  simp only [refusal?]
  split
  case isTrue zero =>
    simp only [reduceCtorEq, false_iff]
    intro admits
    have := admits.nonempty
    have := empty.mp zero
    omega
  case isFalse nonzero =>
    have := mt empty.mpr nonzero
    split
    case isTrue beyond =>
      simp only [reduceCtorEq, false_iff]
      intro admits
      have := admits.inside
      omega
    case isFalse within =>
      split
      case h_1 met found =>
        simp only [reduceCtorEq, false_iff]
        intro admits
        rw [space.mpr admits.apart] at found
        contradiction
      case h_2 alone =>
        split
        case isTrue exceeds =>
          simp only [reduceCtorEq, false_iff]
          intro admits
          have := admits.room
          have := UInt64.lt_iff_toNat_lt.mp exceeds
          omega
        case isFalse fits =>
          simp only [true_iff]
          have := mt UInt64.lt_iff_toNat_lt.mpr fits
          exact ⟨by omega, by omega, space.mp alone, by omega⟩

/-- A new region is one more among those there were. -/
theorem regions_insert_perm (memory : Memory) (region : Region) :
    (memory.insert region).regions.Perm (memory.regions ++ [region]) := by
  have moved : (memory.insert region).regions.Perm
      (memory.below region.base ++ (memory.fromAddress region.base ++ [region])) :=
    (List.perm_append_singleton region _).symm.append_left _
  rwa [← List.append_assoc, below_append_fromAddress] at moved

/-- Every mapping that is not refused leaves memory well formed. -/
theorem WellFormed.insert {memory : Memory} (wellFormed : memory.WellFormed) {region : Region}
    (admits : memory.Admits region) (short : region.length < addressSpace) :
    (memory.insert region).WellFormed := by
  have regionWellFormed : region.WellFormed := ⟨admits.nonempty, short, admits.inside⟩
  have parts := memory.below_append_fromAddress region.base
  have orderedParts := wellFormed.ordered
  rw [← parts] at orderedParts
  obtain ⟨orderedBelow, orderedFrom, across⟩ := List.pairwise_append.mp orderedParts
  have apartBelow : ∀ other ∈ memory.below region.base, other.Before region := by
    intro other member
    have low := base_lt_of_mem_below member
    have stop := region.base_le_stop
    rcases admits.apart other (parts ▸ List.mem_append_left _ member) with before | after
    · exact before
    · simp only [Region.Before] at after
      omega
  have apartFrom : ∀ other ∈ memory.fromAddress region.base, region.Before other := by
    intro other member
    have high := le_base_of_mem_fromAddress wellFormed.ordered member
    have inRegions : other ∈ memory.regions := parts ▸ List.mem_append_right _ member
    have stop := (wellFormed.regions other inRegions).base_lt_stop
    rcases admits.apart other inRegions with before | after
    · simp only [Region.Before] at before
      omega
    · exact after
  have permuted := memory.regions_insert_perm region
  have size : region.size.toNat = region.length := regionWellFormed.toNat_size
  have sum := wellFormed.toNat_mapped_add region.size
  constructor
  case ordered =>
    refine List.pairwise_append.mpr
      ⟨orderedBelow, List.pairwise_cons.mpr ⟨apartFrom, orderedFrom⟩, ?_⟩
    intro other otherMem next nextMem
    rcases List.mem_cons.mp nextMem with rfl | nextMem
    · exact apartBelow other otherMem
    · exact across other otherMem next nextMem
  case regions =>
    intro other member
    rcases List.mem_append.mp (permuted.mem_iff.mp member) with member | member
    · exact wellFormed.regions other member
    · exact List.mem_singleton.mp member ▸ regionWellFormed
  case counted =>
    rw [(permuted.map Region.length).sum_nat, List.map_append, List.sum_append_nat,
      ← wellFormed.counted]
    simp only [Memory.insert, List.map_cons, List.map_nil, List.sum_cons, List.sum_nil, sum]
    omega
  case limited =>
    have := admits.room
    rw [UInt64.le_iff_toNat_le]
    simp only [Memory.insert, sum]
    omega

theorem WellFormed.insert_of_refusal? {memory : Memory} (wellFormed : memory.WellFormed)
    {region : Region} {size : UInt32} (length : region.length = size.toNat)
    (admitted : memory.refusal? region.base size = none) : (memory.insert region).WellFormed :=
  wellFormed.insert ((wellFormed.refusal?_eq_none_iff length).mp admitted)
    (length ▸ size.toNat_lt)

theorem WellFormed.map {memory : Memory} (wellFormed : memory.WellFormed) (base size : UInt32)
    (contents : ByteString) : (memory.map base size contents).state.WellFormed := by
  rw [Memory.map]
  cases refusal : memory.refusal? base size with
  | some error => exact wellFormed
  | none => exact wellFormed.insert_of_refusal? (ByteString.length_padded _ _) refusal

/-- Memory whose regions lie as those of well-formed memory do is well formed. -/
theorem WellFormed.of_extents {memory changed : Memory} (wellFormed : memory.WellFormed)
    (extents : changed.regions.map Region.extent = memory.regions.map Region.extent)
    (mapped : changed.mapped = memory.mapped) (limit : changed.limit = memory.limit) :
    changed.WellFormed := by
  have lengths : changed.regions.map Region.length = memory.regions.map Region.length := by
    have := congrArg (List.map Prod.snd) extents
    simpa [List.map_map, Function.comp_def, Region.extent] using this
  constructor
  case ordered =>
    have ordered : (memory.regions.map Region.extent).Pairwise fun first second =>
        first.1.toNat + first.2 ≤ second.1.toNat := List.pairwise_map.mpr wellFormed.ordered
    rw [← extents, List.pairwise_map] at ordered
    exact ordered
  case regions =>
    intro region member
    obtain ⟨other, otherMem, same⟩ :=
      List.mem_map.mp (extents ▸ List.mem_map_of_mem (f := Region.extent) member)
    obtain ⟨base, length⟩ := Prod.mk.inj same
    obtain ⟨nonempty, short, inside⟩ := wellFormed.regions other otherMem
    exact ⟨length ▸ nonempty, length ▸ short, by rwa [Region.stop, ← base, ← length]⟩
  case counted => rw [mapped, lengths, wellFormed.counted]
  case limited => rw [mapped, limit]; exact wellFormed.limited

/-- Regions of well-formed memory are told apart by their bases. -/
theorem WellFormed.eq_of_base_eq {memory : Memory} (wellFormed : memory.WellFormed)
    {first second : Region} (firstMem : first ∈ memory.regions)
    (secondMem : second ∈ memory.regions) (same : first.base = second.base) : first = second := by
  have distinct : ∀ {lower upper : Region}, lower ∈ memory.regions → lower.Before upper →
      lower.base ≠ upper.base := by
    intro lower upper member before same
    have nonempty := (wellFormed.regions lower member).base_lt_stop
    rw [Region.Before, ← same] at before
    omega
  have below : memory.regions.Pairwise fun lower upper => lower.base = upper.base → lower = upper :=
    wellFormed.ordered.imp_of_mem fun member _ before same =>
      absurd same (distinct member before)
  have above : memory.regions.Pairwise fun lower upper => upper.base = lower.base → upper = lower :=
    below.imp fun equal same => (equal same.symm).symm
  exact below.forall_of_forall_of_flip (fun _ _ _ => rfl) above firstMem secondMem same

/-- Well-formed memory is told by its limit and its regions, in whatever order these are
listed. -/
theorem WellFormed.eq_of_perm {first second : Memory} (firstWellFormed : first.WellFormed)
    (secondWellFormed : second.WellFormed) (perm : first.regions.Perm second.regions)
    (limit : first.limit = second.limit) : first = second := by
  have regions : first.regions = second.regions := by
    refine perm.eq_of_pairwise ?_ firstWellFormed.ordered secondWellFormed.ordered
    intro lower upper lowerMem upperMem before after
    have lowerNonempty := (firstWellFormed.regions lower lowerMem).base_lt_stop
    have upperNonempty := (secondWellFormed.regions upper upperMem).base_lt_stop
    simp only [Region.Before] at before after
    omega
  have mapped : first.mapped = second.mapped := by
    apply UInt64.toNat_inj.mp
    rw [firstWellFormed.counted, secondWellFormed.counted, regions]
  rcases first with ⟨_, _, _⟩
  rcases second with ⟨_, _, _⟩
  simp only at regions mapped limit
  rw [regions, mapped, limit]

/-- The region that is found for an address is one of the regions. -/
theorem mem_of_regionAt? {memory : Memory} {address : UInt32} {region : Region}
    (found : memory.regionAt? address = some region) : region ∈ memory.regions := by
  obtain ⟨last, -⟩ := Option.filter_eq_some_iff.mp found
  exact (List.takeWhile_prefix _).subset (List.mem_of_getLast? last)

/-- Writing changes no region but for its contents. -/
theorem WellFormed.extent_regions_write {memory : Memory} (wellFormed : memory.WellFormed)
    (address : UInt32) (bytes : ByteString) :
    (memory.write address bytes).state.regions.map Region.extent =
      memory.regions.map Region.extent := by
  rw [write]
  cases found : memory.regionFor address bytes.length with
  | error error => rfl
  | ok target =>
      obtain ⟨inside, member⟩ : target.offsetOf address + bytes.length ≤ target.length ∧
          target ∈ memory.regions := by
        rw [regionFor] at found
        cases at? : memory.regionAt? address with
        | none => simp [at?] at found
        | some region =>
            simp only [at?] at found
            split at found
            case isTrue fits =>
              obtain rfl := Except.ok.inj found
              exact ⟨fits, mem_of_regionAt? at?⟩
            case isFalse => contradiction
      rw [List.map_map]
      refine List.map_congr_left fun region regionMem => ?_
      simp only [Function.comp_apply]
      split
      case isTrue same =>
        obtain rfl := wellFormed.eq_of_base_eq regionMem member same
        exact Prod.ext rfl (ByteString.length_overwrite inside)
      case isFalse => rfl

theorem mapped_write (memory : Memory) (address : UInt32) (bytes : ByteString) :
    (memory.write address bytes).state.mapped = memory.mapped := by
  rw [write]
  cases memory.regionFor address bytes.length <;> rfl

theorem limit_write (memory : Memory) (address : UInt32) (bytes : ByteString) :
    (memory.write address bytes).state.limit = memory.limit := by
  rw [write]
  cases memory.regionFor address bytes.length <;> rfl

theorem WellFormed.write {memory : Memory} (wellFormed : memory.WellFormed) (address : UInt32)
    (bytes : ByteString) : (memory.write address bytes).state.WellFormed :=
  wellFormed.of_extents (wellFormed.extent_regions_write address bytes)
    (memory.mapped_write address bytes) (memory.limit_write address bytes)

end Memory

end RiscvImage
