import RiscvImage.Proofs.Loading.Walk

/-!
# What a failed load leaves behind

A load that fails has not touched the registers and the program counter, and what was
mapped before is still there.  If the header was not read, nothing has changed at all.
Otherwise there is an entry at which the walk has stopped.  The segments before it
are mapped in full; the one it stops at is mapped only if its payload is what is
missing, and is zero where no payload was to go.
-/

namespace RiscvImage

namespace Memory

/-- Why an entry stops a walk that has left this memory behind. -/
inductive EntryFault (memory : Memory) (file : ByteString) (header : FileHeader) (index : Nat) :
    LoadError → Prop
  | cut (outside : ¬ header.EntryInside file .programHeader index) :
      EntryFault memory file header index (.format (.truncated .programHeader))
  | unsupported (inside : header.EntryInside file .programHeader index)
      (unknown : ¬ (ProgramHeader.atIndex file header index).IsSupported) :
      EntryFault memory file header index
        (.format (.unsupportedSegment (ProgramHeader.atIndex file header index).segmentType))
  | refused (error : MemoryError) (inside : header.EntryInside file .programHeader index)
      (maps : (ProgramHeader.atIndex file header index).MapsRegion)
      (refusal : memory.refusal? (ProgramHeader.atIndex file header index).vaddr
        (ProgramHeader.atIndex file header index).memsz = some error) :
      EntryFault memory file header index (.memory error)
  | incomplete (inside : header.EntryInside file .programHeader index)
      (maps : (ProgramHeader.atIndex file header index).MapsRegion)
      (missing : ¬ (ProgramHeader.atIndex file header index).PayloadInside file) :
      EntryFault memory file header index (.format (.truncated .segmentContents))

/-- The region of a segment whose payload is missing: it has its place and its size, and
is zero from where the payload would have ended. -/
structure Unfilled (descriptor : ProgramHeader) (region : Region) : Prop where
  base : region.base = descriptor.vaddr
  length : region.length = descriptor.memsz.toNat
  zero : region.contents.drop descriptor.payloadSize =
    .zero (descriptor.memsz.toNat - descriptor.payloadSize)

/-- A walk that has led from one memory to another and stopped at an entry. -/
structure Interrupted (before after : Memory) (file : ByteString) (header : FileHeader)
    (index : Nat) (error : LoadError) : Prop where
  earlier : ∀ previous < index, ProgramHeader.EntrySound file header previous
  fault : EntryFault after file header index error
  clean : error ≠ .format (.truncated .segmentContents) →
    after.regions.Perm
      (before.regions ++ (ProgramHeader.mapped file header index).map (·.region file))
  broken : error = .format (.truncated .segmentContents) →
    ∃ region, Unfilled (.atIndex file header index) region ∧
      after.regions.Perm
        (before.regions ++ (ProgramHeader.mapped file header index).map (·.region file) ++ [region])

theorem unfilled_brokenRegion (descriptor : ProgramHeader) (source : ImageSource) :
    Unfilled descriptor (descriptor.brokenRegion source) where
  base := rfl
  length := ByteString.length_padded _ _
  zero := ByteString.drop_padded
    (source.length_remnant_le descriptor.offset.toNat descriptor.payloadSize)

theorem interrupted_of_walk_eq_error {memory : Memory} {source : ImageSource}
    {header : FileHeader} {count : Nat} {error : LoadError}
    (failed : (memory.walk source header count).answer = .error error) :
    ∃ index < count, Interrupted memory (memory.walk source header count).state source.contents
      header index error := by
  obtain ⟨index, index_lt, walked, stopped⟩ := walk_eq_error failed
  have sound := entrySound_of_walk walked
  have perm := regions_walk_perm walked
  refine ⟨index, index_lt, ?_⟩
  rw [stopped] at failed ⊢
  generalize (memory.walk source header index).state = reached at failed perm ⊢
  by_cases inside : header.EntryInside source.contents .programHeader index
  · have effect := reached.loadEntry_effect inside
    generalize reached.loadEntry source header index = outcome at failed effect
    cases effect with
    | unsupported unknown =>
        obtain rfl := Except.error.inj failed
        exact ⟨sound, .unsupported inside unknown, fun _ => perm, by simp⟩
    | skipped known notMaps => contradiction
    | refused refusal maps refused =>
        obtain rfl := Except.error.inj failed
        exact ⟨sound, .refused refusal inside maps refused, fun _ => perm, by simp⟩
    | incomplete maps admitted missing =>
        obtain rfl := Except.error.inj failed
        refine ⟨sound, .incomplete inside maps missing, by simp, ?_⟩
        intro _
        exact ⟨_, unfilled_brokenRegion _ source,
          (regions_insert_perm _ _).trans (perm.append_right _)⟩
    | mapped maps admitted present => contradiction
  · rw [reached.loadEntry_of_outside inside] at failed ⊢
    obtain rfl := Except.error.inj failed
    exact ⟨sound, .cut inside, fun _ => perm, by simp⟩

theorem Interrupted.mem_regions {before after : Memory} {file : ByteString} {header : FileHeader}
    {index : Nat} {error : LoadError}
    (interrupted : Interrupted before after file header index error) {region : Region}
    (member : region ∈ before.regions) : region ∈ after.regions := by
  by_cases broken : error = .format (.truncated .segmentContents)
  · obtain ⟨last, -, perm⟩ := interrupted.broken broken
    exact perm.mem_iff.mpr (List.mem_append_left _ (List.mem_append_left _ member))
  · exact (interrupted.clean broken).mem_iff.mpr (List.mem_append_left _ member)

end Memory

namespace Machine

/-- An image with two segments, the second of which is not all there. -/
def cutImage : ByteString :=
  .executable 0x1000 [.load 116 0x1000 4 5, .load 120 0x3000 8 6] [1, 2, 3, 4, 9]

set_option maxRecDepth 2000 in
theorem readHeader_cutImage : readHeader cutImage = .ok (.ofFile cutImage) :=
  rfl

set_option maxRecDepth 2000 in
theorem loadImage_cutImage :
    ((initial.jump 0x40).loadImage (.file cutImage)).answer =
      .error (.format (.truncated .segmentContents)) :=
  rfl

/-- A failed load keeps the registers, the program counter and all regions.  It changes
nothing if the header is not read, and otherwise it leaves the regions of the entries
before the one it stops at, and of that one only if its payload is missing. -/
theorem loadImage_error_leaves {machine : Machine} {source : ImageSource} {error : LoadError}
    (failed : (machine.loadImage source).answer = .error error) :
    let left := (machine.loadImage source).state
    left.registers = machine.registers ∧ left.pc = machine.pc ∧
      (∀ region ∈ machine.memory.regions, region ∈ left.memory.regions) ∧
      (∀ fault, readHeader source.contents = .error fault → error = fault ∧ left = machine) ∧
      ∀ header, readHeader source.contents = .ok header →
        ∃ index < header.phnum.toNat,
          Memory.Interrupted machine.memory left.memory source.contents header index error := by
  cases read : readHeader source.contents with
  | error fault =>
      rw [loadImage_of_readHeader_error read] at failed ⊢
      obtain rfl := Except.error.inj failed
      refine ⟨rfl, rfl, fun _ member => member, ?_, by simp⟩
      intro found same
      exact ⟨Except.error.inj same, rfl⟩
  | ok header =>
      have stopped := walk_eq_error_of_loadImage read failed
      obtain ⟨index, index_lt, interrupted⟩ := Memory.interrupted_of_walk_eq_error stopped
      rw [loadImage_of_walk_error read stopped]
      refine ⟨rfl, rfl, fun _ => interrupted.mem_regions, by simp, ?_⟩
      intro found same
      obtain rfl := Except.ok.inj same
      exact ⟨index, index_lt, interrupted⟩

/-- The program counter stays where it was when a file ends inside a segment. -/
theorem loadImage_error_leaves_cutImage :
    let left := ((initial.jump 0x40).loadImage (.file cutImage)).state
    ((initial.jump 0x40).loadImage (.file cutImage)).answer =
        .error (.format (.truncated .segmentContents)) ∧
      left.pc = 0x40 ∧
      ∃ index < (FileHeader.ofFile cutImage).phnum.toNat,
        Memory.Interrupted initial.memory left.memory cutImage (.ofFile cutImage) index
          (.format (.truncated .segmentContents)) := by
  obtain ⟨-, pc, -, -, stopped⟩ := loadImage_error_leaves loadImage_cutImage
  exact ⟨loadImage_cutImage, pc, stopped _ readHeader_cutImage⟩

end Machine

end RiscvImage
