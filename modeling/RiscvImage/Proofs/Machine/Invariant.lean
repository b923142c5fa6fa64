import RiscvImage.Proofs.Machine.Reachable

/-!
# What every reachable machine satisfies

The regions of a reachable machine stand in address order and apart from each other, each
of them has bytes and ends within the address space, and their sizes add up to the count
of mapped bytes.  The count stays under the limit that memory was given at the outset, and
under the size of the address space too, which no limit says: it follows from the regions
being apart.  So the sum in the check of the limit cannot wrap around.

Nothing more can be said of reachable machines: every machine with well-formed memory and
zero in register zero is reached, by mapping its regions one after the other and writing
to its registers.
-/

namespace RiscvImage

namespace Region

/-- A region that comes before another has no address in common with it. -/
theorem Before.not_contains {first second : Region} (before : first.Before second)
    (address : UInt32) : ¬ (first.contains address ∧ second.contains address) := by
  rintro ⟨inFirst, inSecond⟩
  simp only [contains, Bool.and_eq_true, decide_eq_true_eq, UInt32.le_iff_toNat_le]
    at inFirst inSecond
  simp only [Before] at before
  omega

theorem WellFormed.base_lt_of_before {first second : Region} (wellFormed : first.WellFormed)
    (before : first.Before second) : first.base < second.base :=
  UInt32.lt_iff_toNat_lt.mpr (Nat.lt_of_lt_of_le wellFormed.base_lt_stop before)

end Region

namespace Machine

/-- A machine that can be relied on, around memory that was given this limit. -/
structure Sound (machine : Machine) (limit : UInt64) : Prop where
  sorted : machine.memory.regions.Pairwise fun first second => first.base < second.base
  disjoint : machine.memory.regions.Pairwise fun first second =>
    ∀ address, ¬ (first.contains address ∧ second.contains address)
  nonempty : ∀ region ∈ machine.memory.regions, 0 < region.length
  inside : ∀ region ∈ machine.memory.regions, region.stop ≤ addressSpace
  /-- The size of a region, cut down to a word, is its length all the same. -/
  size : ∀ region ∈ machine.memory.regions, region.size.toNat = region.length
  counted : machine.memory.mapped.toNat =
    (machine.memory.regions.map fun region => region.size.toNat).sum
  unchanged : machine.memory.limit = limit
  bounded : machine.memory.mapped.toNat ≤ min limit.toNat addressSpace
  /-- The sum that is compared with the limit does not wrap around. -/
  sum : ∀ size : UInt32, (machine.memory.mapped + size.toUInt64).toNat =
    machine.memory.mapped.toNat + size.toNat
  zero : machine.readRegister 0 = .ok 0

/-- Well-formed memory has all that is asked of it. -/
theorem sound_of_wellFormed {machine : Machine} {limit : UInt64}
    (wellFormed : machine.memory.WellFormed) (sameLimit : machine.memory.limit = limit)
    (zero : machine.readRegister 0 = .ok 0) : machine.Sound limit where
  sorted := wellFormed.ordered.imp_of_mem fun member _ before =>
    (wellFormed.regions _ member).base_lt_of_before before
  disjoint := wellFormed.ordered.imp Region.Before.not_contains
  nonempty region member := (wellFormed.regions region member).nonempty
  inside region member := (wellFormed.regions region member).inside
  size region member := (wellFormed.regions region member).toNat_size
  counted := by
    rw [wellFormed.counted]
    refine congrArg List.sum (List.map_congr_left fun region member => ?_)
    exact (wellFormed.regions region member).toNat_size.symm
  unchanged := sameLimit
  bounded := by
    have limited := UInt64.le_iff_toNat_le.mp wellFormed.limited
    rw [sameLimit] at limited
    exact Nat.le_min.mpr ⟨limited, wellFormed.mapped_le⟩
  sum := wellFormed.toNat_mapped_add
  zero := zero

/-- Whatever is done to a machine that has not run, and whether or not it succeeds, the
machine that is left is sound. -/
theorem sound_run (limit : UInt64) (operations : List Operation) :
    ((withMemory (.empty limit)).run operations).Sound limit := by
  apply sound_of_wellFormed
  · exact stable_wellFormed.run (Memory.wellFormed_empty limit) operations
  · exact (stable_limit limit).run rfl operations
  · exact stable_zero.run (readRegister_zero_replicate 0 _) operations

end Machine

namespace Memory

/-- Well-formed memory without its first region is well formed, and mapping that region
leads back. -/
theorem WellFormed.exists_map_eq {memory : Memory} (wellFormed : memory.WellFormed)
    {region : Region} {rest : List Region} (regions : memory.regions = region :: rest) :
    ∃ before : Memory, before.WellFormed ∧ before.regions = rest ∧
      before.map region.base region.size region.contents = ⟨.ok (), memory⟩ := by
  have first : region ∈ memory.regions := regions ▸ List.mem_cons_self
  have regionWellFormed := wellFormed.regions region first
  obtain ⟨apart, ordered⟩ := List.pairwise_cons.mp (regions ▸ wellFormed.ordered)
  have sum : region.length + (rest.map Region.length).sum = memory.mapped.toNat := by
    rw [wellFormed.counted, regions, List.map_cons, List.sum_cons]
  have limited : memory.mapped.toNat ≤ memory.limit.toNat :=
    UInt64.le_iff_toNat_le.mp wellFormed.limited
  have counted : (UInt64.ofNat (rest.map Region.length).sum).toNat =
      (rest.map Region.length).sum := by
    have short : memory.mapped.toNat < UInt64.size := memory.mapped.toNat_lt
    exact UInt64.toNat_ofNat_of_lt (by omega)
  have room : (UInt64.ofNat (rest.map Region.length).sum).toNat + region.length ≤
      memory.limit.toNat := by omega
  let before : Memory := ⟨rest, .ofNat (rest.map Region.length).sum, memory.limit⟩
  have beforeWellFormed : before.WellFormed := by
    refine ⟨ordered, fun other member => ?_, counted, ?_⟩
    · exact wellFormed.regions other (regions ▸ List.mem_cons_of_mem region member)
    · exact UInt64.le_iff_toNat_le.mpr (Nat.le_of_add_right_le room)
  have admits : before.Admits region :=
    ⟨regionWellFormed.nonempty, regionWellFormed.inside,
      fun other member => .inr (apart other member), room⟩
  have size := regionWellFormed.toNat_size
  have admitted := (beforeWellFormed.refusal?_eq_none_iff size.symm).mpr admits
  have perm : (before.insert region).regions.Perm memory.regions :=
    regions ▸ (before.regions_insert_perm region).trans (List.perm_append_singleton region rest)
  have inserted : before.insert region = memory :=
    (beforeWellFormed.insert_of_refusal? size.symm admitted).eq_of_perm wellFormed perm rfl
  have whole : region.contents.padded region.size.toNat = region.contents := by
    rw [size]
    exact region.contents.padded_length
  refine ⟨before, beforeWellFormed, rfl, ?_⟩
  rw [Memory.map, admitted, whole, inserted]

end Memory

namespace Machine

variable {machine : Machine}

/-- Around any well-formed memory there is a reachable machine. -/
theorem reachable_withMemory {memory : Memory} (wellFormed : memory.WellFormed) :
    (withMemory memory).Reachable := by
  generalize split : memory.regions = regions
  induction regions generalizing memory with
  | nil =>
      have empty : memory = .empty memory.limit :=
        wellFormed.eq_of_perm (Memory.wellFormed_empty _) (.of_eq split) rfl
      rw [empty]
      exact reachable_withMemory_empty memory.limit
  | cons region rest ih =>
      obtain ⟨before, beforeWellFormed, regions, mapped⟩ := wellFormed.exists_map_eq split
      have reached := (ih beforeWellFormed regions).apply
        (.map region.base region.size region.contents)
      rwa [Machine.apply, onMemory, withMemory, mapped] at reached

theorem readRegister_eq_ok (machine : Machine) {index : Nat} (known : index < registerCount) :
    machine.readRegister index = .ok machine.registers[index] := by
  rw [readRegister, Vector.getElem?_eq_getElem known]

/-- A register that is written to holds the value, and the others hold what they did. -/
theorem readRegister_writeRegister (machine : Machine) {index : Nat} (value : UInt32)
    (nonzero : index ≠ 0) (known : index < registerCount) (other : Nat) :
    (machine.writeRegister index value).state.readRegister other =
      if index = other then .ok value else machine.readRegister other := by
  rw [writeRegister, if_neg nonzero, dif_pos known]
  simp only [readRegister, Vector.getElem?_set]
  by_cases same : index = other
  · rw [if_pos same, if_pos same]
  · rw [if_neg same, if_neg same]

/-- Machines with the same memory and the same registers differ in the program counter
alone. -/
theorem eq_jump {before : Machine} (memory : before.memory = machine.memory)
    (registers : ∀ index < registerCount,
      before.readRegister index = machine.readRegister index) :
    machine = before.jump machine.pc := by
  have same : before.registers = machine.registers := by
    refine Vector.ext fun index known => ?_
    have read := registers index known
    rw [before.readRegister_eq_ok known, machine.readRegister_eq_ok known] at read
    exact Except.ok.inj read
  rw [jump, memory, same]

/-- Some reachable machine has the memory and the first registers that are asked for, as
long as register zero is to hold zero. -/
theorem exists_reachable_registers (wellFormed : machine.memory.WellFormed)
    (zero : machine.readRegister 0 = .ok 0) {count : Nat} (count_le : count ≤ registerCount) :
    ∃ before : Machine, before.Reachable ∧ before.memory = machine.memory ∧
      ∀ index < count, before.readRegister index = machine.readRegister index := by
  induction count with
  | zero => exact ⟨_, reachable_withMemory wellFormed, rfl, nofun⟩
  | succ count ih =>
      obtain ⟨before, reachable, memory, same⟩ := ih (Nat.le_of_succ_le count_le)
      have known : count < registerCount := count_le
      by_cases first : count = 0
      · refine ⟨before, reachable, memory, fun index index_lt => ?_⟩
        obtain rfl : index = 0 := by omega
        rw [reachable.readRegister_zero, zero]
      · refine ⟨_, reachable.apply (.writeRegister count machine.registers[count]),
          (before.memory_writeRegister _ _).trans memory, fun index index_lt => ?_⟩
        refine (before.readRegister_writeRegister _ first known index).trans ?_
        split
        case isTrue last => rw [← last, machine.readRegister_eq_ok known]
        case isFalse earlier => exact same index (by omega)

/-- A machine is reachable exactly if its memory is well formed and register zero holds
zero. -/
theorem reachable_iff :
    machine.Reachable ↔ machine.memory.WellFormed ∧ machine.readRegister 0 = .ok 0 := by
  constructor
  · exact fun reachable => ⟨reachable.wellFormed, reachable.readRegister_zero⟩
  · rintro ⟨wellFormed, zero⟩
    obtain ⟨before, reachable, memory, registers⟩ :=
      exists_reachable_registers wellFormed zero (Nat.le_refl registerCount)
    rw [eq_jump memory registers]
    exact reachable.apply (.jump machine.pc)

end Machine

end RiscvImage
