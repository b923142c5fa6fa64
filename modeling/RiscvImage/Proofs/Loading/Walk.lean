import RiscvImage.Proofs.Elf.Table
import RiscvImage.Proofs.Memory.WellFormed

/-!
# Walking the program header table

The walk over a table is one step for each of its entries, taken at the offset of
the entry.  What a step can do is listed once, in `EntryEffect`; everything that is
known about a walk comes from that list by induction on the number of entries.

A walk that fails has succeeded on the entries before the one it fails at, and the
failing step is all that happens after them.
-/

namespace RiscvImage

/-- The region that a segment leaves behind whose payload is not all there: what was
delivered of it, followed by zero bytes. -/
def ProgramHeader.brokenRegion (descriptor : ProgramHeader) (source : ImageSource) : Region :=
  ⟨descriptor.vaddr, (descriptor.remnant source).padded descriptor.memsz.toNat⟩

namespace Memory

/-- Load what the entry at an index asks for. -/
def loadEntry (memory : Memory) (source : ImageSource) (header : FileHeader) (index : Nat) :
    Outcome LoadError Memory Unit :=
  memory.loadFront source (source.contents.drop (header.entryOffset .programHeader index))

/-- Load what the first `count` entries ask for. -/
def walk (memory : Memory) (source : ImageSource) (header : FileHeader) (count : Nat) :
    Outcome LoadError Memory Unit :=
  loadTable source header.phentsize.toNat count (source.contents.drop header.phoff.toNat) memory

/-- The last entry of a table is loaded after all others. -/
theorem loadTable_succ (source : ImageSource) (stride count : Nat) (table : ByteString)
    (memory : Memory) :
    loadTable source stride (count + 1) table memory =
      (loadTable source stride count table memory).andThen fun _ memory =>
        memory.loadFront source (table.drop (count * stride)) := by
  induction count generalizing table memory with
  | zero =>
      have whole : table.drop 0 = table := by
        ext1
        simp
      rw [loadTable, loadTable, Nat.zero_mul, whole, Outcome.andThen_ok]
      rcases memory.loadFront source table with ⟨answer | answer, state⟩ <;> rfl
  | succ count ih =>
      have shifted : (table.drop stride).drop (count * stride) =
          table.drop ((count + 1) * stride) := by
        ext1
        simp [Nat.add_mul, Nat.add_comm]
      rw [loadTable, loadTable]
      rcases memory.loadFront source table with ⟨answer | answer, state⟩
      · rfl
      · simp only [Outcome.andThen_ok]
        rw [ih, shifted]

@[simp]
theorem walk_zero (memory : Memory) (source : ImageSource) (header : FileHeader) :
    memory.walk source header 0 = ⟨.ok (), memory⟩ :=
  rfl

theorem walk_succ (memory : Memory) (source : ImageSource) (header : FileHeader) (count : Nat) :
    memory.walk source header (count + 1) =
      (memory.walk source header count).andThen fun _ memory =>
        memory.loadEntry source header count := by
  have shifted (file : ByteString) : (file.drop header.phoff.toNat).drop
      (count * header.phentsize.toNat) = file.drop (header.entryOffset .programHeader count) := by
    ext1
    simp [FileHeader.entryOffset_programHeader]
  simp only [walk, loadEntry, loadTable_succ, shifted]

/-- Everything that loading a descriptor can do to memory, and under which
condition.  Memory is mapped before a payload turns out to be missing. -/
inductive DescriptorEffect (memory : Memory) (source : ImageSource) (descriptor : ProgramHeader) :
    Outcome LoadError Memory Unit → Prop
  | unsupported (unknown : ¬ descriptor.IsSupported) :
      DescriptorEffect memory source descriptor
        ⟨.error (.format (.unsupportedSegment descriptor.segmentType)), memory⟩
  | skipped (known : descriptor.IsSupported) (notMaps : ¬ descriptor.MapsRegion) :
      DescriptorEffect memory source descriptor ⟨.ok (), memory⟩
  | refused (error : MemoryError) (maps : descriptor.MapsRegion)
      (refusal : memory.refusal? descriptor.vaddr descriptor.memsz = some error) :
      DescriptorEffect memory source descriptor ⟨.error (.memory error), memory⟩
  | incomplete (maps : descriptor.MapsRegion)
      (admitted : memory.refusal? descriptor.vaddr descriptor.memsz = none)
      (missing : ¬ descriptor.PayloadInside source.contents) :
      DescriptorEffect memory source descriptor
        ⟨.error (.format (.truncated .segmentContents)),
          memory.insert (descriptor.brokenRegion source)⟩
  | mapped (maps : descriptor.MapsRegion)
      (admitted : memory.refusal? descriptor.vaddr descriptor.memsz = none)
      (present : descriptor.PayloadInside source.contents) :
      DescriptorEffect memory source descriptor
        ⟨.ok (), memory.insert (descriptor.region source.contents)⟩

theorem loadSegment_effect (memory : Memory) (source : ImageSource) {descriptor : ProgramHeader}
    (loaded : descriptor.segmentType = ProgramHeader.loadType) :
    DescriptorEffect memory source descriptor (memory.loadSegment source descriptor) := by
  by_cases empty : descriptor.memsz = 0
  · rw [loadSegment, if_pos empty]
    exact .skipped (.inr (.inr loaded)) fun maps => maps.2 empty
  · have maps : descriptor.MapsRegion := ⟨loaded, empty⟩
    rw [loadSegment, if_neg empty]
    cases refusal : memory.refusal? descriptor.vaddr descriptor.memsz with
    | some error => exact .refused error maps refusal
    | none =>
        rw [ProgramHeader.payload_eq maps]
        by_cases present : descriptor.PayloadInside source.contents
        · simp only [present, if_true]
          exact .mapped maps refusal present
        · simp only [present, if_false]
          exact .incomplete maps refusal present

theorem loadEntry_of_outside (memory : Memory) {source : ImageSource} {header : FileHeader}
    {index : Nat} (outside : ¬ header.EntryInside source.contents .programHeader index) :
    memory.loadEntry source header index =
      ⟨.error (.format (.truncated .programHeader)), memory⟩ := by
  have cut : ¬ 0 + DescriptorKind.programHeader.size ≤
      (source.contents.drop (header.entryOffset .programHeader index)).length := by
    have pos : 0 < DescriptorKind.programHeader.size := by decide
    rw [ByteString.length_drop]
    simp only [FileHeader.EntryInside] at outside
    omega
  rw [loadEntry, loadFront, ProgramHeader.atFront,
    ByteString.window?_eq_ite _ _ (by decide), if_neg cut]

/-- An entry that lies in the file does what its descriptor asks for. -/
theorem loadEntry_effect (memory : Memory) {source : ImageSource} {header : FileHeader}
    {index : Nat} (inside : header.EntryInside source.contents .programHeader index) :
    DescriptorEffect memory source (.atIndex source.contents header index)
      (memory.loadEntry source header index) := by
  have decoded : ProgramHeader.decode ((source.contents.drop
      (header.entryOffset .programHeader index)).window 0
        DescriptorKind.programHeader.size).bytes = .atIndex source.contents header index := by
    rw [ByteString.window_drop, Nat.add_zero]
    rfl
  have complete : 0 + DescriptorKind.programHeader.size ≤
      (source.contents.drop (header.entryOffset .programHeader index)).length := by
    rw [ByteString.length_drop]
    simp only [FileHeader.EntryInside] at inside
    omega
  simp only [loadEntry, loadFront, ProgramHeader.atFront, complete, decoded, if_true,
    ByteString.window?_eq_ite _ _ (by decide : 0 < DescriptorKind.programHeader.size)]
  generalize ProgramHeader.atIndex source.contents header index = descriptor
  by_cases skipped : descriptor.segmentType = ProgramHeader.nullType ∨
      descriptor.segmentType = ProgramHeader.noteType
  · simp only [skipped, if_true]
    refine .skipped (by grind [ProgramHeader.IsSupported]) fun maps => ?_
    rw [maps.1] at skipped
    revert skipped
    decide
  · simp only [skipped, if_false]
    by_cases loaded : descriptor.segmentType = ProgramHeader.loadType
    · simp only [loaded, if_true]
      exact memory.loadSegment_effect source loaded
    · simp only [loaded, if_false]
      exact .unsupported (by grind [ProgramHeader.IsSupported])

/-- A walk that fails is stopped by the first entry that cannot be loaded, and
leaves behind what loading that entry left. -/
theorem walk_eq_error {memory : Memory} {source : ImageSource} {header : FileHeader}
    {count : Nat} {error : LoadError}
    (failed : (memory.walk source header count).answer = .error error) :
    ∃ index < count, (memory.walk source header index).answer = .ok () ∧
      memory.walk source header count =
        (memory.walk source header index).state.loadEntry source header index := by
  induction count with
  | zero => simp at failed
  | succ count ih =>
      rw [walk_succ] at failed ⊢
      cases before : memory.walk source header count with
      | mk answer state =>
          cases answer with
          | error earlier =>
              obtain ⟨index, index_lt, reached, stopped⟩ := ih (by simp_all)
              exact ⟨index, Nat.lt_succ_of_lt index_lt, reached, by rw [← stopped, before]; rfl⟩
          | ok value => exact ⟨count, Nat.lt_succ_self count, by rw [before], by rw [before]; rfl⟩

/-- A walk that has failed goes no further, however many entries there are. -/
theorem walk_of_error {memory : Memory} {source : ImageSource} {header : FileHeader}
    {stop : Nat} {error : LoadError} {left : Memory}
    (failed : memory.walk source header stop = ⟨.error error, left⟩) {count : Nat}
    (stop_le : stop ≤ count) : memory.walk source header count = ⟨.error error, left⟩ := by
  induction stop_le with
  | refl => exact failed
  | step _ ih => rw [walk_succ, ih, Outcome.andThen_error]

/-- A walk succeeds if it succeeds up to its last entry and then loads that. -/
theorem walk_succ_eq_ok_iff {memory : Memory} {source : ImageSource} {header : FileHeader}
    {count : Nat} :
    (memory.walk source header (count + 1)).answer = .ok () ↔
      (memory.walk source header count).answer = .ok () ∧
        ((memory.walk source header count).state.loadEntry source header count).answer =
          .ok () := by
  rw [walk_succ]
  rcases memory.walk source header count with ⟨answer | answer, state⟩ <;> simp

/-- An entry is loaded if it is in good order and memory does not refuse its region. -/
theorem loadEntry_eq_ok_iff {memory : Memory} {source : ImageSource} {header : FileHeader}
    {index : Nat} :
    (memory.loadEntry source header index).answer = .ok () ↔
      ProgramHeader.EntrySound source.contents header index ∧
        ((ProgramHeader.atIndex source.contents header index).MapsRegion →
          memory.refusal? (ProgramHeader.atIndex source.contents header index).vaddr
            (ProgramHeader.atIndex source.contents header index).memsz = none) := by
  by_cases inside : header.EntryInside source.contents .programHeader index
  · have effect := memory.loadEntry_effect inside
    generalize memory.loadEntry source header index = outcome at effect
    cases effect with
    | unsupported unknown =>
        simp only [reduceCtorEq, false_iff]
        exact fun loads => unknown loads.1.supported
    | skipped known notMaps =>
        simp only [true_iff]
        exact ⟨⟨inside, known, fun maps => absurd maps notMaps⟩, fun maps => absurd maps notMaps⟩
    | refused error maps refusal =>
        simp only [reduceCtorEq, false_iff]
        intro loads
        rw [loads.2 maps] at refusal
        contradiction
    | incomplete maps admitted missing =>
        simp only [reduceCtorEq, false_iff]
        exact fun loads => missing (loads.1.payload maps)
    | mapped maps admitted present =>
        simp only [true_iff]
        exact ⟨⟨inside, maps.isSupported, fun _ => present⟩, fun _ => admitted⟩
  · rw [memory.loadEntry_of_outside inside]
    simp only [reduceCtorEq, false_iff]
    exact fun loads => inside loads.1.inside

/-- An entry in good order is loaded unless memory refuses its region. -/
theorem loadEntry_of_sound (memory : Memory) {source : ImageSource} {header : FileHeader}
    {index : Nat} (sound : ProgramHeader.EntrySound source.contents header index) :
    memory.loadEntry source header index =
      if (ProgramHeader.atIndex source.contents header index).MapsRegion then
        match memory.refusal? (ProgramHeader.atIndex source.contents header index).vaddr
            (ProgramHeader.atIndex source.contents header index).memsz with
        | some error => ⟨.error (.memory error), memory⟩
        | none =>
          ⟨.ok (), memory.insert ((ProgramHeader.atIndex source.contents header index).region
            source.contents)⟩
      else ⟨.ok (), memory⟩ := by
  have effect := memory.loadEntry_effect sound.inside
  generalize memory.loadEntry source header index = outcome at effect
  cases effect with
  | unsupported unknown => exact absurd sound.supported unknown
  | skipped known notMaps => rw [if_neg notMaps]
  | refused error maps refusal => rw [if_pos maps, refusal]
  | incomplete maps admitted missing => exact absurd (sound.payload maps) missing
  | mapped maps admitted present => rw [if_pos maps, admitted]

/-- The region of an entry that is loaded is all that it adds. -/
theorem state_loadEntry {memory : Memory} {source : ImageSource} {header : FileHeader}
    {index : Nat} (loaded : (memory.loadEntry source header index).answer = .ok ()) :
    (memory.loadEntry source header index).state =
      if (ProgramHeader.atIndex source.contents header index).MapsRegion then
        memory.insert ((ProgramHeader.atIndex source.contents header index).region
          source.contents)
      else memory := by
  have effect := memory.loadEntry_effect (loadEntry_eq_ok_iff.mp loaded).1.inside
  generalize memory.loadEntry source header index = outcome at loaded effect
  cases effect with
  | unsupported unknown => contradiction
  | skipped known notMaps => rw [if_neg notMaps]
  | refused error maps refusal => contradiction
  | incomplete maps admitted missing => contradiction
  | mapped maps admitted present => rw [if_pos maps]

theorem entrySound_of_walk {memory : Memory} {source : ImageSource} {header : FileHeader}
    {count : Nat} (walked : (memory.walk source header count).answer = .ok ()) :
    ∀ index < count, ProgramHeader.EntrySound source.contents header index := by
  induction count with
  | zero => simp
  | succ count ih =>
      obtain ⟨before, last⟩ := walk_succ_eq_ok_iff.mp walked
      intro index index_lt
      rcases Nat.lt_succ_iff_lt_or_eq.mp index_lt with earlier | rfl
      · exact ih before index earlier
      · exact (loadEntry_eq_ok_iff.mp last).1

theorem state_walk_succ {memory : Memory} {source : ImageSource} {header : FileHeader}
    {count : Nat} (walked : (memory.walk source header count).answer = .ok ()) :
    (memory.walk source header (count + 1)).state =
      ((memory.walk source header count).state.loadEntry source header count).state := by
  rw [walk_succ]
  generalize memory.walk source header count = outcome at walked
  rcases outcome with ⟨answer | answer, state⟩
  · contradiction
  · rfl

/-- A walk adds the regions of the segments it has passed and no others. -/
theorem regions_walk_perm {memory : Memory} {source : ImageSource} {header : FileHeader}
    {count : Nat} (walked : (memory.walk source header count).answer = .ok ()) :
    (memory.walk source header count).state.regions.Perm
      (memory.regions ++
        (ProgramHeader.mapped source.contents header count).map (·.region source.contents)) := by
  induction count with
  | zero => simp
  | succ count ih =>
      obtain ⟨before, last⟩ := walk_succ_eq_ok_iff.mp walked
      rw [state_walk_succ before, state_loadEntry last]
      by_cases maps : (ProgramHeader.atIndex source.contents header count).MapsRegion
      · rw [if_pos maps, ProgramHeader.mapped_succ_of_maps maps, List.map_append,
          ← List.append_assoc]
        exact (regions_insert_perm _ _).trans ((ih before).append_right _)
      · rw [if_neg maps, ProgramHeader.mapped_succ_of_not_maps maps]
        exact ih before

/-- An entry leaves memory as it is or adds a region that memory does not refuse. -/
theorem loadEntry_induction {motive : Memory → Prop} {memory : Memory} (start : motive memory)
    (insert : ∀ {region : Region} {size : UInt32}, region.length = size.toNat →
      memory.refusal? region.base size = none → motive (memory.insert region))
    (source : ImageSource) (header : FileHeader) (index : Nat) :
    motive (memory.loadEntry source header index).state := by
  by_cases inside : header.EntryInside source.contents .programHeader index
  · have effect := memory.loadEntry_effect inside
    generalize memory.loadEntry source header index = outcome at effect
    cases effect with
    | unsupported unknown => exact start
    | skipped known notMaps => exact start
    | refused error maps refusal => exact start
    | incomplete maps admitted missing => exact insert (ByteString.length_padded _ _) admitted
    | mapped maps admitted present => exact insert (ProgramHeader.length_region _ _) admitted
  · rw [memory.loadEntry_of_outside inside]
    exact start

/-- What every new region preserves, a walk preserves, whether or not it comes to its end. -/
theorem walk_induction {motive : Memory → Prop} {memory : Memory} (start : motive memory)
    (insert : ∀ {memory : Memory} {region : Region} {size : UInt32}, motive memory →
      region.length = size.toNat → memory.refusal? region.base size = none →
        motive (memory.insert region))
    (source : ImageSource) (header : FileHeader) (count : Nat) :
    motive (memory.walk source header count).state := by
  induction count with
  | zero => exact start
  | succ count ih =>
      rw [walk_succ]
      generalize memory.walk source header count = outcome at ih
      rcases outcome with ⟨answer | answer, state⟩
      · exact ih
      · exact loadEntry_induction ih (fun length admitted => insert ih length admitted) source
          header count

theorem WellFormed.walk {memory : Memory} (wellFormed : memory.WellFormed) (source : ImageSource)
    (header : FileHeader) (count : Nat) : (memory.walk source header count).state.WellFormed :=
  walk_induction wellFormed
    (fun before length admitted => before.insert_of_refusal? length admitted) source header count

theorem limit_walk (memory : Memory) (source : ImageSource) (header : FileHeader) (count : Nat) :
    (memory.walk source header count).state.limit = memory.limit :=
  walk_induction (motive := fun walked => walked.limit = memory.limit) rfl
    (fun same _ _ => same) source header count

end Memory

namespace Machine

variable {machine : Machine} {source : ImageSource} {header : FileHeader}

theorem loadImage_of_readHeader_error {error : LoadError}
    (refused : readHeader source.contents = .error error) :
    machine.loadImage source = ⟨.error error, machine⟩ := by
  rw [loadImage, refused]

/-- An image with a readable header is loaded by a walk over its whole table. -/
theorem loadImage_of_readHeader (read : readHeader source.contents = .ok header) :
    machine.loadImage source =
      (machine.onMemory (·.walk source header header.phnum.toNat)).andThen
        fun _ machine => ⟨.ok header.entry, machine.reset header.entry⟩ := by
  rw [loadImage, read]
  rfl

theorem loadImage_of_walk_error {error : LoadError}
    (read : readHeader source.contents = .ok header)
    (failed : (machine.memory.walk source header header.phnum.toNat).answer = .error error) :
    machine.loadImage source =
      ⟨.error error, ⟨machine.registers, machine.pc,
        (machine.memory.walk source header header.phnum.toNat).state⟩⟩ := by
  rw [loadImage_of_readHeader read, onMemory, failed, Outcome.andThen_error]

theorem loadImage_of_walk_ok (read : readHeader source.contents = .ok header)
    (walked : (machine.memory.walk source header header.phnum.toNat).answer = .ok ()) :
    machine.loadImage source =
      ⟨.ok header.entry, ⟨.replicate registerCount 0, header.entry,
        (machine.memory.walk source header header.phnum.toNat).state⟩⟩ := by
  rw [loadImage_of_readHeader read, onMemory, walked, Outcome.andThen_ok]
  rfl

/-- If the header is read, a load has the answer of the walk. -/
theorem answer_loadImage (read : readHeader source.contents = .ok header) :
    (machine.loadImage source).answer =
      (machine.memory.walk source header header.phnum.toNat).answer.map fun _ => header.entry := by
  rw [loadImage_of_readHeader read, onMemory]
  cases (machine.memory.walk source header header.phnum.toNat).answer <;> rfl

/-- A load succeeds exactly if the header is read and the walk comes to its end. -/
theorem loadImage_eq_ok_iff {entry : UInt32} :
    (machine.loadImage source).answer = .ok entry ↔
      ∃ header, readHeader source.contents = .ok header ∧ entry = header.entry ∧
        (machine.memory.walk source header header.phnum.toNat).answer = .ok () := by
  cases read : readHeader source.contents with
  | error error => simp [loadImage_of_readHeader_error read]
  | ok header =>
      cases walked : (machine.memory.walk source header header.phnum.toNat).answer with
      | error error => simp [loadImage_of_walk_error read walked, walked]
      | ok value => simp [loadImage_of_walk_ok read walked, walked, eq_comm]

/-- If the header is read, a load can fail in the walk only. -/
theorem walk_eq_error_of_loadImage {error : LoadError}
    (read : readHeader source.contents = .ok header)
    (failed : (machine.loadImage source).answer = .error error) :
    (machine.memory.walk source header header.phnum.toNat).answer = .error error := by
  cases walked : (machine.memory.walk source header header.phnum.toNat).answer with
  | error first =>
      rw [loadImage_of_walk_error read walked] at failed
      rw [Except.error.inj failed]
  | ok value =>
      rw [loadImage_of_walk_ok read walked] at failed
      contradiction

end Machine

end RiscvImage
