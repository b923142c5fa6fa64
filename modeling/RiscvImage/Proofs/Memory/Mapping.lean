import RiscvImage.Proofs.Memory.ByteMap

/-!
# Mapping free ranges

A range of addresses is mapped exactly if it is not empty, ends within the address space, has
no address that is mapped already and does not take the mapped bytes beyond the limit.  A
range that fails in several ways is refused for the first of them.  If it meets regions, the
lowest of these is named, although no more than two of them are ever looked at.

Mapping adds zero bytes at the addresses of the range.  At all others memory stays what it
was.
-/

namespace RiscvImage

/-- The address is one of the `size` addresses from `base` on. -/
def InRange (base size address : UInt32) : Prop :=
  base.toNat ≤ address.toNat ∧ address.toNat < base.toNat + size.toNat

instance (base size address : UInt32) : Decidable (InRange base size address) :=
  inferInstanceAs (Decidable (_ ∧ _))

namespace Region

variable {region : Region} {base size : UInt32}

/-- The region has an address in the range. -/
def Shares (region : Region) (base size : UInt32) : Prop :=
  ∃ address, InRange base size address ∧ region.contains address = true

/-- Unless one of them is empty, a region and a range that meet share the higher of their two
bases. -/
theorem meets_iff_shares (nonempty : 0 < region.length) (some : 0 < size.toNat) :
    region.meets base size = true ↔ region.Shares base size := by
  rw [meets, Bool.and_eq_true, decide_eq_true_eq, decide_eq_true_eq]
  constructor
  · rintro ⟨begins, reaches⟩
    by_cases lower : region.base.toNat ≤ base.toNat
    · exact ⟨base, ⟨Nat.le_refl _, by omega⟩, contains_iff.mpr ⟨lower, reaches⟩⟩
    · refine ⟨region.base, ⟨by omega, begins⟩, contains_iff.mpr ⟨Nat.le_refl _, ?_⟩⟩
      exact Nat.lt_add_of_pos_right nonempty
  · rintro ⟨address, ⟨above, below⟩, contained⟩
    have bounds := contains_iff.mp contained
    exact ⟨by omega, by omega⟩

/-- A region without contents of its own is zero everywhere. -/
theorem byteAt_padded_empty (base : UInt32) (count : Nat) (address : UInt32) :
    (Region.mk base (ByteString.empty.padded count)).byteAt address = 0 := by
  have zeros : (ByteString.empty.padded count).bytes = List.replicate count 0 := by simp
  rw [byteAt, LittleEndian.byteAt, zeros, List.getD_eq_getElem?_getD, List.getElem?_replicate]
  split <;> rfl

end Region

namespace Memory

variable {memory : Memory} {base size : UInt32}

/-- There is a place for `size` bytes at `base`. -/
structure HasPlace (memory : Memory) (base size : UInt32) : Prop where
  nonempty : 0 < size.toNat
  inside : base.toNat + size.toNat ≤ addressSpace
  free : ∀ address, InRange base size address → ¬ memory.Maps address
  room : memory.mapped.toNat + size.toNat ≤ memory.limit.toNat

/-- Of all regions with an address in the range, this is the one with the lowest base. -/
structure LowestIn (memory : Memory) (base size : UInt32) (region : Region) : Prop where
  member : region ∈ memory.regions
  shares : region.Shares base size
  lowest : ∀ other ∈ memory.regions, other.Shares base size → region.base ≤ other.base

/-- The first reason there is for not mapping `size` bytes at `base`. -/
inductive Refuses (memory : Memory) (base size : UInt32) : MemoryError → Prop
  | invalidSize (empty : size.toNat = 0) : Refuses memory base size (.invalidSize size)
  | outOfRange (nonempty : 0 < size.toNat) (outside : addressSpace < base.toNat + size.toNat) :
      Refuses memory base size (.outOfRange base size)
  | overlap (nonempty : 0 < size.toNat) (inside : base.toNat + size.toNat ≤ addressSpace)
      {region : Region} (lowest : memory.LowestIn base size region) :
      Refuses memory base size (.overlap base size region.base)
  | limitExceeded (nonempty : 0 < size.toNat) (inside : base.toNat + size.toNat ≤ addressSpace)
      (free : ∀ address, InRange base size address → ¬ memory.Maps address)
      (exceeds : memory.limit.toNat < memory.mapped.toNat + size.toNat) :
      Refuses memory base size (.limitExceeded size memory.limit)

/-- What is left after `size` bytes have been mapped at `base`: they are zero, and nothing
else has changed. -/
structure Extended (memory : Memory) (base size : UInt32) (after : Memory) : Prop where
  maps : ∀ address, after.Maps address ↔ memory.Maps address ∨ InRange base size address
  fresh : ∀ address, InRange base size address → after.readByte address = .ok 0
  elsewhere : ∀ address, ¬ InRange base size address →
    after.readByte address = memory.readByte address
  mapped : after.mapped.toNat = memory.mapped.toNat + size.toNat
  limit : after.limit = memory.limit

/-- A new region adds its addresses to those that are mapped. -/
theorem maps_insert_iff {region : Region} {address : UInt32} :
    (memory.insert region).Maps address ↔
      memory.Maps address ∨ region.contains address = true := by
  simp only [Maps, (memory.regions_insert_perm region).mem_iff, List.mem_append,
    List.mem_singleton, or_and_right, exists_or, exists_eq_left]

/-- There is no place for what is refused. -/
theorem Refuses.not_hasPlace {error : MemoryError} (refuses : memory.Refuses base size error) :
    ¬ memory.HasPlace base size := by
  rintro ⟨some, within, unmapped, room⟩
  cases refuses with
  | invalidSize empty => omega
  | outOfRange nonempty outside => omega
  | overlap nonempty inside lowest =>
      obtain ⟨address, inRange, contained⟩ := lowest.shares
      exact unmapped address inRange ⟨_, lowest.member, contained⟩
  | limitExceeded nonempty inside free exceeds => omega

namespace WellFormed

/-- The first region that meets a range is the lowest one. -/
theorem lowestIn_of_find? (wellFormed : memory.WellFormed) (some : 0 < size.toNat)
    {region : Region} (found : memory.regions.find? (·.meets base size) = .some region) :
    memory.LowestIn base size region := by
  have meets_iff {other : Region} (member : other ∈ memory.regions) :
      other.meets base size = true ↔ other.Shares base size :=
    Region.meets_iff_shares (wellFormed.regions other member).nonempty some
  obtain ⟨meets, front, rest, split, before⟩ := List.find?_eq_some_iff_append.mp found
  have member : region ∈ memory.regions := List.mem_of_find?_eq_some found
  refine ⟨member, (meets_iff member).mp meets, fun other otherMem shares => ?_⟩
  have also := (meets_iff otherMem).mpr shares
  have ordered := wellFormed.ordered
  rw [split] at otherMem ordered
  rcases List.mem_append.mp otherMem with earlier | here
  · have apart := before other earlier
    rw [also] at apart
    contradiction
  -- What comes later in the list begins where the region found ends, or higher.
  · rcases List.mem_cons.mp here with rfl | later
    · exact UInt32.le_refl _
    · have ends : region.stop ≤ other.base.toNat :=
        (List.pairwise_cons.mp (List.pairwise_append.mp ordered).2.1).1 other later
      exact UInt32.le_iff_toNat_le.mpr (Nat.le_trans region.base_le_stop ends)

/-- A range that meets no region has no mapped address. -/
theorem free_of_find? (wellFormed : memory.WellFormed) (some : 0 < size.toNat)
    (none : memory.regions.find? (·.meets base size) = .none) (address : UInt32)
    (inRange : InRange base size address) : ¬ memory.Maps address := by
  rintro ⟨region, member, contained⟩
  have nonempty := (wellFormed.regions region member).nonempty
  exact List.find?_eq_none.mp none region member
    ((Region.meets_iff_shares nonempty some).mpr ⟨address, inRange, contained⟩)

/-- A mapping is refused for the first reason there is, or there is a place for it. -/
theorem refusal?_cases (wellFormed : memory.WellFormed) (base size : UInt32) :
    (memory.HasPlace base size ∧ memory.refusal? base size = none) ∨
      ∃ error, memory.Refuses base size error ∧ memory.refusal? base size = some error := by
  rw [wellFormed.refusal?_eq]
  by_cases empty : size = 0
  · exact .inr ⟨_, .invalidSize (congrArg UInt32.toNat empty), if_pos empty⟩
  have nonempty : 0 < size.toNat :=
    Nat.pos_of_ne_zero fun zero => empty (UInt32.toNat_inj.mp zero)
  rw [if_neg empty]
  by_cases outside : addressSpace < base.toNat + size.toNat
  · exact .inr ⟨_, .outOfRange nonempty outside, if_pos outside⟩
  have inside := Nat.le_of_not_lt outside
  rw [if_neg outside]
  cases found : memory.regions.find? (·.meets base size) with
  | some region =>
      exact .inr ⟨_, .overlap nonempty inside (wellFormed.lowestIn_of_find? nonempty found), rfl⟩
  | none =>
      have free := wellFormed.free_of_find? nonempty found
      by_cases exceeds : memory.limit.toNat < memory.mapped.toNat + size.toNat
      · exact .inr ⟨_, .limitExceeded nonempty inside free exceeds, if_pos exceeds⟩
      · exact .inl ⟨⟨nonempty, inside, free, Nat.le_of_not_lt exceeds⟩, if_neg exceeds⟩

/-- A new region has its own addresses, and all others belong to whom they did. -/
theorem readByte_insert (wellFormed : memory.WellFormed) {region : Region}
    (after : (memory.insert region).WellFormed) (address : UInt32) :
    (memory.insert region).readByte address =
      if region.contains address then .ok (region.byteAt address) else memory.readByte address := by
  have perm := memory.regions_insert_perm region
  by_cases contained : region.contains address = true
  · have member : region ∈ (memory.insert region).regions :=
      perm.mem_iff.mpr (List.mem_append_right _ List.mem_cons_self)
    rw [if_pos contained, after.readByte_eq member contained]
  rw [if_neg contained]
  by_cases mapped : memory.Maps address
  · obtain ⟨host, hostMem, hostContains⟩ := mapped
    have stillMem : host ∈ (memory.insert region).regions :=
      perm.mem_iff.mpr (List.mem_append_left _ hostMem)
    rw [after.readByte_eq stillMem hostContains, wellFormed.readByte_eq hostMem hostContains]
  · have stillNot : ¬ (memory.insert region).Maps address := by
      rw [maps_insert_iff, not_or]
      exact ⟨mapped, contained⟩
    rw [readByte_of_not_maps mapped, readByte_of_not_maps stillNot]

/-- A mapping that is not refused adds zero bytes in its range. -/
theorem extended_insert (wellFormed : memory.WellFormed)
    (admitted : memory.refusal? base size = none) :
    memory.Extended base size
      (memory.insert ⟨base, ByteString.empty.padded size.toNat⟩) := by
  have length : (Region.mk base (ByteString.empty.padded size.toNat)).length = size.toNat :=
    ByteString.length_padded _ _
  have after := wellFormed.insert_of_refusal? length admitted
  have contains_iff (address : UInt32) :
      (Region.mk base (ByteString.empty.padded size.toNat)).contains address = true ↔
        InRange base size address := by
    rw [Region.contains_iff, Region.stop, length, InRange]
  refine ⟨fun address => ?maps, fun address inRange => ?fresh, fun address outside => ?elsewhere,
    ?mapped, rfl⟩
  case maps => rw [maps_insert_iff, contains_iff]
  case fresh =>
    rw [wellFormed.readByte_insert after, if_pos ((contains_iff address).mpr inRange),
      Region.byteAt_padded_empty]
  case elsewhere =>
    rw [wellFormed.readByte_insert after, if_neg (mt (contains_iff address).mp outside)]
  case mapped =>
    have size_eq : (Region.mk base (ByteString.empty.padded size.toNat)).size = size := by
      rw [Region.size, length, UInt32.ofNat_toNat]
    exact (congrArg (fun added : UInt32 => (memory.mapped + added.toUInt64).toNat) size_eq).trans
      (wellFormed.toNat_mapped_add size)

end WellFormed

/-- Mapping succeeds exactly if there is a place for the range, and otherwise fails for the
first reason there is and changes nothing. -/
theorem map_accepts_free_ranges (reachable : memory.Reachable) (base size : UInt32) :
    (memory.HasPlace base size →
      ∃ after, memory.map base size .empty = ⟨.ok (), after⟩ ∧ memory.Extended base size after) ∧
    (¬ memory.HasPlace base size →
      ∃ error, memory.Refuses base size error ∧
        memory.map base size .empty = ⟨.error error, memory⟩) := by
  have wellFormed := reachable_iff_wellFormed.mp reachable
  rw [map]
  rcases wellFormed.refusal?_cases base size with
    ⟨hasPlace, admitted⟩ | ⟨error, refuses, refused⟩
  case inl =>
    rw [admitted]
    exact ⟨fun _ => ⟨_, rfl, wellFormed.extended_insert admitted⟩,
      fun noPlace => absurd hasPlace noPlace⟩
  case inr =>
    rw [refused]
    exact ⟨fun hasPlace => absurd hasPlace refuses.not_hasPlace,
      fun _ => ⟨error, refuses, rfl⟩⟩

/-- Two regions with a gap of sixteen addresses between them. -/
def gapped : Memory :=
  ((Machine.withMemory (.empty 0x40)).run
    [.map 0x1020 0x10 .empty, .map 0x1000 0x10 (.ofList [1])]).memory

/-- The gap between two regions can be mapped, but a range that is a byte longer meets the
upper one. -/
theorem map_accepts_free_ranges_gapped :
    gapped.Reachable ∧
      gapped.HasPlace 0x1010 0x10 ∧
      (∃ after, gapped.map 0x1010 0x10 .empty = ⟨.ok (), after⟩ ∧
        gapped.Extended 0x1010 0x10 after) ∧
      ¬ gapped.HasPlace 0x1010 0x11 ∧
      gapped.Refuses 0x1010 0x11 (.overlap 0x1010 0x11 0x1020) := by
  have reachable : gapped.Reachable :=
    ⟨_, (Machine.reachable_withMemory_empty 0x40).run _, rfl⟩
  have free : ∀ address, InRange 0x1010 0x10 address → ¬ gapped.Maps address := by
    rintro address ⟨above, below⟩ ⟨region, member, contained⟩
    have regions : gapped.regions =
        [⟨0x1000, (ByteString.ofList [1]).padded 0x10⟩, ⟨0x1020, ByteString.empty.padded 0x10⟩] :=
      by decide
    have bounds := Region.contains_iff.mp contained
    rw [regions, List.mem_cons, List.mem_singleton] at member
    rcases member with rfl | rfl
    · exact absurd bounds.2 (Nat.not_lt.mpr above)
    · exact absurd below (Nat.not_lt.mpr bounds.1)
  have hasPlace : gapped.HasPlace 0x1010 0x10 := ⟨by decide, by decide, free, by decide⟩
  have noPlace : ¬ gapped.HasPlace 0x1010 0x11 := fun hasPlace =>
    hasPlace.free 0x1020 (by decide) (by decide)
  have placed := (map_accepts_free_ranges reachable 0x1010 0x10).1 hasPlace
  obtain ⟨error, refuses, refused⟩ := (map_accepts_free_ranges reachable 0x1010 0x11).2 noPlace
  obtain rfl : .overlap 0x1010 0x11 0x1020 = error :=
    Except.error.inj (congrArg Outcome.answer refused)
  exact ⟨reachable, hasPlace, placed, noPlace, refuses⟩

end Memory

end RiscvImage
