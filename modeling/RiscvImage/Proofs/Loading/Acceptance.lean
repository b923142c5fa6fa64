import RiscvImage.Proofs.Machine.Reachable

/-!
# Which images are loaded

Whether an image is loaded can be told from the file and the memory at the outset,
without following the walk: the entries of the table have to be in good order, and
the regions of all segments together have to find their places.  Memory then holds
the regions of before and one for each of these segments.
-/

namespace RiscvImage

namespace Memory

/-- Segments find their places: inside the address space, apart from each other and
from what is mapped, and all together under the limit. -/
structure Accommodates (memory : Memory) (file : ByteString) (segments : List ProgramHeader) :
    Prop where
  inside : ∀ descriptor ∈ segments,
    descriptor.vaddr.toNat + descriptor.memsz.toNat ≤ addressSpace
  apart : (segments.map (·.region file)).Pairwise Region.Apart
  free : ∀ descriptor ∈ segments, ∀ region ∈ memory.regions,
    region.Apart (descriptor.region file)
  room : memory.mapped.toNat + (segments.map (·.memsz.toNat)).sum ≤ memory.limit.toNat

theorem WellFormed.accommodates_nil {memory : Memory} (wellFormed : memory.WellFormed)
    (file : ByteString) : memory.Accommodates file [] where
  inside := by simp
  apart := List.Pairwise.nil
  free := by simp
  room := by simpa using UInt64.le_iff_toNat_le.mp wellFormed.limited

theorem Accommodates.of_append {memory : Memory} {file : ByteString}
    {segments more : List ProgramHeader}
    (accommodates : memory.Accommodates file (segments ++ more)) :
    memory.Accommodates file segments := by
  obtain ⟨inside, apart, free, room⟩ := accommodates
  rw [List.map_append] at apart room
  constructor
  case inside => exact fun descriptor member => inside descriptor (List.mem_append_left _ member)
  case apart => exact (List.pairwise_append.mp apart).1
  case free => exact fun descriptor member => free descriptor (List.mem_append_left _ member)
  case room =>
    rw [List.sum_append_nat] at room
    omega

/-- Segments find their places in whatever order, and from another file as well if they
fill the same regions from it. -/
theorem Accommodates.of_perm {memory : Memory} {file other : ByteString}
    {segments permuted : List ProgramHeader} (accommodates : memory.Accommodates file segments)
    (perm : permuted.Perm segments)
    (same : ∀ descriptor ∈ segments, descriptor.region other = descriptor.region file) :
    memory.Accommodates other permuted := by
  obtain ⟨inside, apart, free, room⟩ := accommodates
  have regions : (permuted.map (·.region other)).Perm (segments.map (·.region file)) := by
    rw [← List.map_congr_left same]
    exact perm.map _
  constructor
  case inside => exact fun descriptor member => inside descriptor (perm.mem_iff.mp member)
  case apart => exact (regions.pairwise_iff fun apart => apart.symm).mpr apart
  case free =>
    intro descriptor member
    rw [same descriptor (perm.mem_iff.mp member)]
    exact free descriptor (perm.mem_iff.mp member)
  case room =>
    rw [(perm.map (·.memsz.toNat)).sum_nat]
    exact room

variable {memory : Memory} {source : ImageSource} {header : FileHeader} {count : Nat}

/-- After a walk without failures, the sizes of the segments are mapped on top of what
was mapped before. -/
theorem WellFormed.toNat_mapped_walk (wellFormed : memory.WellFormed)
    (walked : (memory.walk source header count).answer = .ok ()) :
    (memory.walk source header count).state.mapped.toNat =
      memory.mapped.toNat +
        ((ProgramHeader.mapped source.contents header count).map (·.memsz.toNat)).sum := by
  have lengths := ((regions_walk_perm walked).map Region.length).sum_nat
  rw [(wellFormed.walk source header count).counted, wellFormed.counted, lengths, List.map_append,
    List.sum_append_nat, List.map_map]
  simp only [Function.comp_def, ProgramHeader.length_region]

/-- A further segment finds its place in the memory that the walk has left if it finds
it next to the segments before and what was mapped at the outset. -/
theorem WellFormed.accommodates_concat_iff (wellFormed : memory.WellFormed)
    (walked : (memory.walk source header count).answer = .ok ())
    {descriptor : ProgramHeader} (maps : descriptor.MapsRegion) :
    memory.Accommodates source.contents
        (ProgramHeader.mapped source.contents header count ++ [descriptor]) ↔
      memory.Accommodates source.contents (ProgramHeader.mapped source.contents header count) ∧
        (memory.walk source header count).state.Admits (descriptor.region source.contents) := by
  have perm := regions_walk_perm walked
  have mapped := wellFormed.toNat_mapped_walk walked
  have limit := memory.limit_walk source header count
  have length := ProgramHeader.length_region descriptor source.contents
  constructor
  · intro accommodates
    refine ⟨accommodates.of_append, ?_⟩
    obtain ⟨inside, apart, free, room⟩ := accommodates
    have last : descriptor ∈ ProgramHeader.mapped source.contents header count ++ [descriptor] :=
      List.mem_append_right _ (List.mem_singleton_self descriptor)
    rw [List.map_append] at apart room
    constructor
    case nonempty => exact length ▸ maps.memsz_pos
    case inside =>
      rw [Region.stop, length]
      exact inside descriptor last
    case apart =>
      intro other member
      rcases List.mem_append.mp (perm.mem_iff.mp member) with old | new
      · exact free descriptor last other old
      · exact (List.pairwise_append.mp apart).2.2 other new _ (List.mem_singleton_self _)
    case room =>
      simp only [List.sum_append_nat, List.map_cons, List.map_nil, List.sum_cons, List.sum_nil]
        at room
      rw [mapped, limit, length]
      omega
  · rintro ⟨⟨inside, apart, free, room⟩, admits⟩
    have among : ∀ other ∈ memory.regions ++ (ProgramHeader.mapped source.contents header count).map
        (·.region source.contents), other.Apart (descriptor.region source.contents) :=
      fun other member => admits.apart other (perm.mem_iff.mpr member)
    have admitsInside := admits.inside
    have admitsRoom := admits.room
    rw [Region.stop, length] at admitsInside
    rw [mapped, limit, length] at admitsRoom
    constructor
    case inside =>
      intro other member
      rcases List.mem_append.mp member with earlier | last
      · exact inside other earlier
      · exact List.mem_singleton.mp last ▸ admitsInside
    case apart =>
      rw [List.map_append, List.pairwise_append]
      refine ⟨apart, List.pairwise_singleton _ _, ?_⟩
      intro other member region last
      obtain rfl := List.mem_singleton.mp last
      exact among other (List.mem_append_right _ member)
    case free =>
      intro other member region old
      rcases List.mem_append.mp member with earlier | last
      · exact free other earlier region old
      · exact List.mem_singleton.mp last ▸ among region (List.mem_append_left _ old)
    case room =>
      simp only [List.map_append, List.map_cons, List.map_nil, List.sum_append_nat, List.sum_cons,
        List.sum_nil]
      omega

/-- An entry in good order is loaded after a walk if its segment finds a place next to
the segments before. -/
theorem WellFormed.loadEntry_walk_eq_ok_iff (wellFormed : memory.WellFormed)
    (walked : (memory.walk source header count).answer = .ok ())
    (accommodates : memory.Accommodates source.contents
      (ProgramHeader.mapped source.contents header count)) :
    ((memory.walk source header count).state.loadEntry source header count).answer = .ok () ↔
      ProgramHeader.EntrySound source.contents header count ∧
        memory.Accommodates source.contents
          (ProgramHeader.mapped source.contents header (count + 1)) := by
  rw [loadEntry_eq_ok_iff]
  refine and_congr_right fun _ => ?_
  by_cases maps : (ProgramHeader.atIndex source.contents header count).MapsRegion
  · have admitted := (wellFormed.walk source header count).refusal?_eq_none_iff
      (ProgramHeader.length_region (.atIndex source.contents header count) source.contents)
    rw [ProgramHeader.base_region] at admitted
    rw [ProgramHeader.mapped_succ_of_maps maps, wellFormed.accommodates_concat_iff walked maps,
      admitted]
    constructor
    · intro admits
      exact ⟨accommodates, admits maps⟩
    · rintro ⟨-, admits⟩ -
      exact admits
  · rw [ProgramHeader.mapped_succ_of_not_maps maps]
    constructor
    · intro _
      exact accommodates
    · intro _ maps'
      exact absurd maps' maps

/-- A walk comes to its end exactly if every entry is in good order and all segments
together find their places. -/
theorem WellFormed.walk_eq_ok_iff (wellFormed : memory.WellFormed) :
    (memory.walk source header count).answer = .ok () ↔
      (∀ index < count, ProgramHeader.EntrySound source.contents header index) ∧
        memory.Accommodates source.contents
          (ProgramHeader.mapped source.contents header count) := by
  induction count with
  | zero => simpa using wellFormed.accommodates_nil source.contents
  | succ count ih =>
      rw [walk_succ_eq_ok_iff, Nat.forall_lt_succ_right]
      constructor
      · rintro ⟨before, last⟩
        obtain ⟨sound, accommodates⟩ := ih.mp before
        obtain ⟨lastSound, all⟩ :=
          (wellFormed.loadEntry_walk_eq_ok_iff before accommodates).mp last
        exact ⟨⟨sound, lastSound⟩, all⟩
      · rintro ⟨⟨sound, lastSound⟩, all⟩
        have accommodates : memory.Accommodates source.contents
            (ProgramHeader.mapped source.contents header count) := by
          by_cases maps : (ProgramHeader.atIndex source.contents header count).MapsRegion
          · rw [ProgramHeader.mapped_succ_of_maps maps] at all
            exact all.of_append
          · rwa [ProgramHeader.mapped_succ_of_not_maps maps] at all
        have before := ih.mpr ⟨sound, accommodates⟩
        exact ⟨before,
          (wellFormed.loadEntry_walk_eq_ok_iff before accommodates).mpr ⟨lastSound, all⟩⟩

/-- An image that a machine with this memory loads: its header is that of an executable
for the machine, every entry of its table is in good order, and its segments find
their places. -/
structure Loads (memory : Memory) (file : ByteString) : Prop where
  complete : FileHeader.size ≤ file.length
  valid : (FileHeader.ofFile file).validate = .ok ()
  stride : (FileHeader.ofFile file).StrideSuffices .programHeader
  entries : ∀ index < (FileHeader.ofFile file).phnum.toNat,
    ProgramHeader.EntrySound file (.ofFile file) index
  places : memory.Accommodates file
    (ProgramHeader.mapped file (.ofFile file) (FileHeader.ofFile file).phnum.toNat)

end Memory

namespace Machine

variable {machine : Machine} {source : ImageSource}

/-- A machine that has something mapped and in a register. -/
def busy : Machine :=
  (withMemory (.empty 0x100)).run [.map 0x2000 16 .empty, .writeRegister 1 7]

/-- An image with one segment, which is longer in memory than in the file. -/
def sampleImage : ByteString :=
  .executable 0x1000 [{ ProgramHeader.load 84 0x1000 4 5 with memsz := 8 }] [1, 2, 3, 4]

/-- A machine loads an image exactly if the header is good, every entry of the table
is, and the segments find their places.  It is then reset at the entry address of the
header, and its memory holds one more region for each segment. -/
theorem loadImage_ok_iff_loads (reachable : machine.Reachable) (source : ImageSource) :
    ((∃ entry, (machine.loadImage source).answer = .ok entry) ↔
      machine.memory.Loads source.contents) ∧
    ∀ entry, (machine.loadImage source).answer = .ok entry →
      let header := FileHeader.ofFile source.contents
      let segments := ProgramHeader.mapped source.contents header header.phnum.toNat
      let loaded := (machine.loadImage source).state
      entry = header.entry ∧ loaded.pc = header.entry ∧
        loaded.registers = .replicate registerCount 0 ∧
        loaded.memory.regions.Perm
          (machine.memory.regions ++ segments.map (·.region source.contents)) ∧
        loaded.memory.regions.Pairwise Region.Before ∧
        loaded.memory.mapped.toNat =
          machine.memory.mapped.toNat + (segments.map (·.memsz.toNat)).sum ∧
        loaded.memory.limit = machine.memory.limit := by
  have wellFormed := reachable.wellFormed
  constructor
  · constructor
    · rintro ⟨entry, loaded⟩
      obtain ⟨header, read, -, walked⟩ := loadImage_eq_ok_iff.mp loaded
      obtain ⟨complete, rfl, valid, stride⟩ := readHeader_eq_ok_iff.mp read
      obtain ⟨entries, places⟩ := wellFormed.walk_eq_ok_iff.mp walked
      exact ⟨complete, valid, stride, entries, places⟩
    · intro loads
      have read := readHeader_eq_ok_iff.mpr ⟨loads.complete, rfl, loads.valid, loads.stride⟩
      have walked := wellFormed.walk_eq_ok_iff.mpr ⟨loads.entries, loads.places⟩
      exact ⟨_, loadImage_eq_ok_iff.mpr ⟨_, read, rfl, walked⟩⟩
  · intro entry answer header segments loaded
    obtain ⟨found, read, rfl, walked⟩ := loadImage_eq_ok_iff.mp answer
    obtain ⟨-, rfl, -⟩ := readHeader_eq_ok_iff.mp read
    have state : loaded = ⟨.replicate registerCount 0, header.entry,
        (machine.memory.walk source header header.phnum.toNat).state⟩ :=
      congrArg Outcome.state (loadImage_of_walk_ok read walked)
    rw [state]
    exact ⟨rfl, rfl, rfl, Memory.regions_walk_perm walked, (wellFormed.walk _ _ _).ordered,
      wellFormed.toNat_mapped_walk walked, machine.memory.limit_walk _ _ _⟩

/-- A segment that is longer in memory than in the file is loaded beside a region that
is there already. -/
theorem loadImage_ok_iff_loads_busy :
    busy.Reachable ∧
      (busy.loadImage (.memory sampleImage)).answer = .ok 0x1000 ∧
      busy.memory.Loads sampleImage ∧
      (busy.loadImage (.memory sampleImage)).state.pc = 0x1000 := by
  have answer : (busy.loadImage (.memory sampleImage)).answer = .ok 0x1000 := rfl
  have reachable : busy.Reachable := (reachable_withMemory_empty 0x100).run _
  obtain ⟨loads_iff, after⟩ := loadImage_ok_iff_loads reachable (.memory sampleImage)
  exact ⟨reachable, answer, loads_iff.mp ⟨_, answer⟩, (after _ answer).2.1⟩

end Machine

end RiscvImage
