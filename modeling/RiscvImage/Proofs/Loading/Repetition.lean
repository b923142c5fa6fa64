import RiscvImage.Proofs.Loading.Acceptance
import RiscvImage.Proofs.Memory.Mapping

/-!
# Loading an image again

Nothing that can be done to a machine takes a region away or moves it.  An image that has
mapped a region therefore finds it in its way for ever: a second load of the same bytes
stops at the first segment that asks for a region, and as it has mapped nothing until then,
it leaves the machine as it was.

The region in the way is named as the mapping that is met, also if the limit would not admit
another one: that memory is taken is looked at before how much of it there is.
-/

namespace RiscvImage

namespace ProgramHeader

variable {file : ByteString} {header : FileHeader} {count : Nat}

theorem mapped_succ_eq_nil_iff :
    mapped file header (count + 1) = [] ↔
      mapped file header count = [] ∧ ¬ (atIndex file header count).MapsRegion := by
  by_cases maps : (atIndex file header count).MapsRegion
  · simp [mapped_succ_of_maps maps, maps]
  · simp [mapped_succ_of_not_maps maps, maps]

/-- The first segment that maps a region has an entry, and no entry before it maps one. -/
theorem exists_index_of_head?_mapped {first : ProgramHeader}
    (found : (mapped file header count).head? = some first) :
    ∃ index < count, atIndex file header index = first ∧ first.MapsRegion ∧
      mapped file header index = [] := by
  induction count with
  | zero => contradiction
  | succ count ih =>
      by_cases maps : (atIndex file header count).MapsRegion
      · rw [mapped_succ_of_maps maps] at found
        cases before : mapped file header count with
        | nil =>
            rw [before] at found
            obtain rfl := Option.some.inj found
            exact ⟨count, Nat.lt_succ_self count, rfl, maps, before⟩
        | cons earlier others =>
            rw [before] at found ih
            obtain ⟨index, index_lt, rest⟩ := ih found
            exact ⟨index, Nat.lt_succ_of_lt index_lt, rest⟩
      · rw [mapped_succ_of_not_maps maps] at found
        obtain ⟨index, index_lt, rest⟩ := ih found
        exact ⟨index, Nat.lt_succ_of_lt index_lt, rest⟩

end ProgramHeader

namespace Memory

variable {memory : Memory} {source : ImageSource} {header : FileHeader}

/-- A region cannot be mapped a second time, and it is the region itself that is met. -/
theorem WellFormed.refusal?_of_mem (wellFormed : memory.WellFormed) {region : Region}
    (member : region ∈ memory.regions) {size : UInt32} (length : region.length = size.toNat) :
    memory.refusal? region.base size = some (.overlap region.base size region.base) := by
  have stop : region.stop = region.base.toNat + size.toNat := by rw [Region.stop, length]
  have nonempty : 0 < size.toNat := length ▸ (wellFormed.regions region member).nonempty
  have inside := (wellFormed.regions region member).inside
  rw [stop] at inside
  have some : size ≠ 0 := by
    rintro rfl
    exact absurd nonempty (Nat.lt_irrefl 0)
  have itself : region.meets region.base size = true := by
    rw [Region.meets, stop, Bool.and_self, decide_eq_true_eq]
    exact Nat.lt_add_of_pos_right nonempty
  have found : memory.regions.find? (·.meets region.base size) = .some region := by
    have met : (memory.regions.find? (·.meets region.base size)).isSome = true :=
      List.find?_isSome.mpr ⟨region, member, itself⟩
    obtain ⟨other, found⟩ := Option.isSome_iff_exists.mp met
    have lowest := wellFormed.lowestIn_of_find? nonempty found
    obtain ⟨address, inRange, contained⟩ := lowest.shares
    have also : region.contains address = true :=
      Region.contains_iff.mpr ⟨inRange.1, stop ▸ inRange.2⟩
    have same := wellFormed.regionAt?_eq_some_iff.mpr ⟨lowest.member, contained⟩
    rw [wellFormed.regionAt?_eq_some_iff.mpr ⟨member, also⟩] at same
    rw [found, same]
  rw [wellFormed.refusal?_eq, if_neg some, if_neg (Nat.not_lt_of_le inside), found]

/-- Entries that map no region are passed without a trace. -/
theorem walk_of_mapped_eq_nil (memory : Memory) {count : Nat}
    (sound : ∀ index < count, ProgramHeader.EntrySound source.contents header index)
    (none : ProgramHeader.mapped source.contents header count = []) :
    memory.walk source header count = ⟨.ok (), memory⟩ := by
  induction count with
  | zero => rfl
  | succ count ih =>
      obtain ⟨soundBefore, soundLast⟩ := Nat.forall_lt_succ_right.mp sound
      obtain ⟨noneBefore, notMaps⟩ := ProgramHeader.mapped_succ_eq_nil_iff.mp none
      rw [walk_succ, ih soundBefore noneBefore, Outcome.andThen_ok,
        memory.loadEntry_of_sound soundLast, if_neg notMaps]

/-- A walk stops at the first segment that maps a region if this region is there already, and
has changed nothing. -/
theorem WellFormed.walk_of_mem (wellFormed : memory.WellFormed) {count : Nat}
    (sound : ∀ index < count, ProgramHeader.EntrySound source.contents header index)
    {first : ProgramHeader}
    (found : (ProgramHeader.mapped source.contents header count).head? = some first)
    {region : Region} (member : region ∈ memory.regions) (base : region.base = first.vaddr)
    (length : region.length = first.memsz.toNat) :
    memory.walk source header count =
      ⟨.error (.memory (.overlap first.vaddr first.memsz first.vaddr)), memory⟩ := by
  obtain ⟨index, index_lt, rfl, maps, none⟩ := ProgramHeader.exists_index_of_head?_mapped found
  have refused := wellFormed.refusal?_of_mem member length
  rw [base] at refused
  have soundBefore : ∀ earlier < index, ProgramHeader.EntrySound source.contents header earlier :=
    fun earlier earlier_lt => sound earlier (Nat.lt_trans earlier_lt index_lt)
  refine walk_of_error ?_ (Nat.succ_le_of_lt index_lt)
  rw [walk_succ, memory.walk_of_mapped_eq_nil soundBefore none, Outcome.andThen_ok,
    memory.loadEntry_of_sound (sound index index_lt), if_pos maps, refused]

end Memory

namespace Machine

/-- A region keeps its place and its size, whatever is done to the machine. -/
theorem stable_extent (extent : UInt32 × Nat) :
    Stable fun machine => machine.memory.WellFormed ∧
      extent ∈ machine.memory.regions.map Region.extent where
  insert {machine region size} := by
    rintro ⟨wellFormed, member⟩ length admitted
    have perm := (machine.memory.regions_insert_perm region).map Region.extent
    rw [List.map_append] at perm
    exact ⟨wellFormed.insert_of_refusal? length admitted,
      perm.mem_iff.mpr (List.mem_append_left _ member)⟩
  write {machine} address bytes := by
    rintro ⟨wellFormed, member⟩
    refine ⟨wellFormed.write address bytes, ?_⟩
    rwa [onMemory, wellFormed.extent_regions_write]
  writeRegister index value := by
    rintro ⟨wellFormed, member⟩
    rw [memory_writeRegister]
    exact ⟨wellFormed, member⟩
  jump _ mapped := mapped
  reset _ mapped := mapped

variable {machine : Machine} {source : ImageSource}

/-- Once an image has been loaded, loading the same bytes again is refused, whatever has been
done to the machine since.  The first segment that maps a region meets the region that it has
mapped the first time, and the machine stays as it is. -/
theorem loadImage_again_overlaps (reachable : machine.Reachable) {entry : UInt32}
    (loaded : (machine.loadImage source).answer = .ok entry) {first : ProgramHeader}
    (found : (ProgramHeader.mapped source.contents (.ofFile source.contents)
      (FileHeader.ofFile source.contents).phnum.toNat).head? = some first)
    (operations : List Operation) {again : ImageSource}
    (same : again.contents = source.contents) :
    let later := (machine.loadImage source).state.run operations
    later.loadImage again =
      ⟨.error (.memory (.overlap first.vaddr first.memsz first.vaddr)), later⟩ := by
  intro later
  obtain ⟨header, read, -, walked⟩ := loadImage_eq_ok_iff.mp loaded
  obtain ⟨-, rfl, -⟩ := readHeader_eq_ok_iff.mp read
  have mapped : (first.vaddr, first.memsz.toNat) ∈
      (machine.loadImage source).state.memory.regions.map Region.extent := by
    have perm := (Memory.regions_walk_perm walked).map Region.extent
    have member := List.mem_map_of_mem (f := (·.region source.contents))
      (List.mem_of_head? found)
    rw [List.map_append] at perm
    rw [loadImage_of_walk_ok read walked]
    refine perm.mem_iff.mpr (List.mem_append_right _ (List.mem_map.mpr ⟨_, member, ?_⟩))
    exact Prod.ext rfl (first.length_region source.contents)
  have start : (machine.loadImage source).state.memory.WellFormed :=
    (reachable.apply (.loadImage source)).wellFormed
  have kept : later.memory.WellFormed ∧
      (first.vaddr, first.memsz.toNat) ∈ later.memory.regions.map Region.extent :=
    (stable_extent _).run ⟨start, mapped⟩ operations
  obtain ⟨wellFormed, still⟩ := kept
  obtain ⟨region, member, extent⟩ := List.mem_map.mp still
  obtain ⟨base, length⟩ := Prod.mk.inj extent
  have sound := Memory.entrySound_of_walk walked
  rw [← same] at read sound found
  have refused := wellFormed.walk_of_mem sound found member base length
  rw [loadImage_of_walk_error read (congrArg Outcome.answer refused), refused]

/-- Between the two loads the program counter and memory change, and one load has been refused
already. -/
theorem loadImage_again_overlaps_sampleImage :
    let operations : List Operation :=
      [.jump 0x2000, .write 0x1002 (.ofList [9, 9, 9]), .map 0x3000 16 .empty,
        .loadImage (.file sampleImage)]
    let later := (busy.loadImage (.memory sampleImage)).state.run operations
    busy.Reachable ∧
      (busy.loadImage (.memory sampleImage)).answer = .ok 0x1000 ∧
      (ProgramHeader.mapped sampleImage (.ofFile sampleImage)
        (FileHeader.ofFile sampleImage).phnum.toNat).head? =
          some { ProgramHeader.load 84 0x1000 4 5 with memsz := 8 } ∧
      later.loadImage (.file sampleImage) =
        ⟨.error (.memory (.overlap 0x1000 8 0x1000)), later⟩ := by
  intro operations later
  have reachable : busy.Reachable := (reachable_withMemory_empty 0x100).run _
  have answer : (busy.loadImage (.memory sampleImage)).answer = .ok 0x1000 := rfl
  have found : (ProgramHeader.mapped sampleImage (.ofFile sampleImage)
      (FileHeader.ofFile sampleImage).phnum.toNat).head? =
        some { ProgramHeader.load 84 0x1000 4 5 with memsz := 8 } := by decide
  exact ⟨reachable, answer, found, loadImage_again_overlaps reachable answer found operations rfl⟩

end Machine

end RiscvImage
