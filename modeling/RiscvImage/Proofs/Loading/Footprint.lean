import RiscvImage.Proofs.Loading.Acceptance

/-!
# What a load reads

Loading an image looks at a few fields of the file header, at the segment descriptors, and
at the payload of the segments that map a region.  Which stretches these are is told by
the file itself.  Two files that agree on them are loaded alike, from whatever state of the
machine: as long as the runs have decoded the same descriptors, they are in the same state.
So nothing else in a file has any influence, be it the section table, the fields of the
header that lead there, what stands between the payloads or what follows them.
-/

namespace RiscvImage

universe u

/-- The stretches of a file that a load looks at, by offset and length. -/
inductive ByteString.LoadReads (file : ByteString) : (offset count : Nat) → Prop
  /-- The identification up to its version: magic, class, byte order and version. -/
  | identification : file.LoadReads 0 7
  /-- Type, machine, version, entry address, and offset of the program header table. -/
  | purpose : file.LoadReads 16 16
  /-- Distance and number of the program headers. -/
  | table : file.LoadReads 42 4
  | descriptor {index : Nat} (listed : index < (FileHeader.ofFile file).phnum.toNat) :
      file.LoadReads ((FileHeader.ofFile file).entryOffset .programHeader index)
        DescriptorKind.programHeader.size
  | payload {index : Nat} (listed : index < (FileHeader.ofFile file).phnum.toNat)
      (stored : (ProgramHeader.atIndex file (.ofFile file) index).HasPayload) :
      file.LoadReads (ProgramHeader.atIndex file (.ofFile file) index).offset.toNat
        (ProgramHeader.atIndex file (.ofFile file) index).payloadSize

namespace LittleEndian

variable {first second : ByteString} {size offset : Nat}

theorem wordAt_window (inside : offset + 4 ≤ size) (s : ByteString) :
    wordAt (s.window 0 size).bytes offset = .ofNat (decode (s.window offset 4).bytes) := by
  rw [wordAt, ← ByteString.bytes_window, ByteString.window_window inside, Nat.zero_add]

theorem halfAt_window (inside : offset + 2 ≤ size) (s : ByteString) :
    halfAt (s.window 0 size).bytes offset = .ofNat (decode (s.window offset 2).bytes) := by
  rw [halfAt, ← ByteString.bytes_window, ByteString.window_window inside, Nat.zero_add]

theorem byteAt_window (inside : offset + 1 ≤ size) (s : ByteString) :
    byteAt (s.window 0 size).bytes offset = (s.window offset 1).bytes.getD 0 0 := by
  have front : (s.bytes.take size)[offset]? = s.bytes[offset]? := List.getElem?_take_of_lt inside
  have back : ((s.bytes.drop offset).take 1)[0]? = s.bytes[offset]? := by
    rw [List.getElem?_take_of_lt Nat.zero_lt_one, List.getElem?_drop, Nat.add_zero]
  rw [byteAt, ByteString.bytes_window, ByteString.bytes_window, List.drop_zero,
    List.getD_eq_getElem?_getD, List.getD_eq_getElem?_getD, front, back]

end LittleEndian

namespace FileHeader

/-- A header without the fields that a load leaves alone. -/
def loadingPart (header : FileHeader) : FileHeader :=
  { header with
    abi := 0
    abiVersion := 0
    shoff := 0
    flags := 0
    ehsize := 0
    shentsize := 0
    shnum := 0
    shstrndx := 0 }

/-- What depends on the other fields alone is the same for headers that share them. -/
theorem eq_of_loadingPart_eq {α : Sort u} {first second : FileHeader} {f : FileHeader → α}
    (through : ∀ header : FileHeader, f header.loadingPart = f header)
    (part : second.loadingPart = first.loadingPart) : f second = f first := by
  rw [← through second, part, through first]

/-- The fields that a load looks at lie in three stretches of the header. -/
theorem loadingPart_ofFile_eq {first second : ByteString}
    (identification : first.AgreesAt second 0 7) (purpose : first.AgreesAt second 16 16)
    (table : first.AgreesAt second 42 4) :
    (ofFile second).loadingPart = (ofFile first).loadingPart := by
  have word {offset : Nat} (agrees : first.AgreesAt second offset 4) (inside : offset + 4 ≤ size) :
      LittleEndian.wordAt (second.window 0 size).bytes offset =
        LittleEndian.wordAt (first.window 0 size).bytes offset := by
    rw [LittleEndian.wordAt_window inside, LittleEndian.wordAt_window inside, agrees.2]
  have half {offset : Nat} (agrees : first.AgreesAt second offset 2) (inside : offset + 2 ≤ size) :
      LittleEndian.halfAt (second.window 0 size).bytes offset =
        LittleEndian.halfAt (first.window 0 size).bytes offset := by
    rw [LittleEndian.halfAt_window inside, LittleEndian.halfAt_window inside, agrees.2]
  have byte {offset : Nat} (agrees : first.AgreesAt second offset 1) (inside : offset + 1 ≤ size) :
      LittleEndian.byteAt (second.window 0 size).bytes offset =
        LittleEndian.byteAt (first.window 0 size).bytes offset := by
    rw [LittleEndian.byteAt_window inside, LittleEndian.byteAt_window inside, agrees.2]
  have magic := word (identification.part (by decide : 0 ≤ 0) (by decide)) (by decide)
  have fileClass := byte (identification.part (by decide : 0 ≤ 4) (by decide)) (by decide)
  have dataEncoding := byte (identification.part (by decide : 0 ≤ 5) (by decide)) (by decide)
  have identVersion := byte (identification.part (by decide : 0 ≤ 6) (by decide)) (by decide)
  have fileType := half (purpose.part (by decide : 16 ≤ 16) (by decide)) (by decide)
  have machine := half (purpose.part (by decide : 16 ≤ 18) (by decide)) (by decide)
  have version := word (purpose.part (by decide : 16 ≤ 20) (by decide)) (by decide)
  have entry := word (purpose.part (by decide : 16 ≤ 24) (by decide)) (by decide)
  have phoff := word (purpose.part (by decide : 16 ≤ 28) (by decide)) (by decide)
  have phentsize := half (table.part (by decide : 42 ≤ 42) (by decide)) (by decide)
  have phnum := half (table.part (by decide : 42 ≤ 44) (by decide)) (by decide)
  simp only [loadingPart, ofFile, decode, magic, fileClass, dataEncoding, identVersion, fileType,
    machine, version, entry, phoff, phentsize, phnum]

end FileHeader

namespace ProgramHeader

variable {first second : ByteString}

/-- The region of a segment is filled from its payload alone. -/
theorem region_eq_of_agreesAt {descriptor : ProgramHeader}
    (payload : descriptor.filesz ≠ 0 →
      first.AgreesAt second descriptor.offset.toNat descriptor.payloadSize) :
    descriptor.region second = descriptor.region first := by
  by_cases none : descriptor.filesz = 0
  · simp only [region, payloadSize_eq_zero none, ByteString.window_zero]
  · simp only [region, (payload none).2]

/-- A payload that lies in one file lies in every file that agrees on it. -/
theorem PayloadInside.of_agreesAt {descriptor : ProgramHeader} (maps : descriptor.MapsRegion)
    (payload : descriptor.HasPayload →
      first.AgreesAt second descriptor.offset.toNat descriptor.payloadSize) :
    descriptor.PayloadInside second := by
  by_cases none : descriptor.filesz = 0
  · exact .inl none
  · exact .inr (payload ⟨maps, none⟩).1

variable {header : FileHeader} {index : Nat}

theorem atIndex_eq_of_agreesAt
    (entry : first.AgreesAt second (header.entryOffset .programHeader index)
      DescriptorKind.programHeader.size) :
    atIndex second header index = atIndex first header index := by
  rw [atIndex, atIndex, FileHeader.descriptorAt, FileHeader.descriptorAt, FileHeader.entryAt,
    FileHeader.entryAt, entry.2]

theorem EntrySound.of_agreesAt (sound : EntrySound first header index)
    (entry : first.AgreesAt second (header.entryOffset .programHeader index)
      DescriptorKind.programHeader.size)
    (payload : (atIndex first header index).HasPayload →
      first.AgreesAt second (atIndex first header index).offset.toNat
        (atIndex first header index).payloadSize) :
    EntrySound second header index := by
  have same := atIndex_eq_of_agreesAt entry
  constructor
  case inside => exact entry.1
  case supported => exact same ▸ sound.supported
  case payload =>
    rw [same]
    exact fun maps => .of_agreesAt maps payload

end ProgramHeader

namespace Memory

variable {first second : ImageSource} {header : FileHeader}

/-- An entry is loaded alike from files that agree on its descriptor and its payload. -/
theorem loadEntry_eq_of_agreesAt (memory : Memory) {index : Nat}
    (sound : ProgramHeader.EntrySound first.contents header index)
    (entry : first.contents.AgreesAt second.contents (header.entryOffset .programHeader index)
      DescriptorKind.programHeader.size)
    (payload : (ProgramHeader.atIndex first.contents header index).HasPayload →
      first.contents.AgreesAt second.contents
        (ProgramHeader.atIndex first.contents header index).offset.toNat
        (ProgramHeader.atIndex first.contents header index).payloadSize) :
    memory.loadEntry second header index = memory.loadEntry first header index := by
  rw [memory.loadEntry_of_sound (sound.of_agreesAt entry payload), memory.loadEntry_of_sound sound,
    ProgramHeader.atIndex_eq_of_agreesAt entry]
  by_cases maps : (ProgramHeader.atIndex first.contents header index).MapsRegion
  · rw [if_pos maps, if_pos maps,
      ProgramHeader.region_eq_of_agreesAt fun stored => payload ⟨maps, stored⟩]
  · rw [if_neg maps, if_neg maps]

/-- Walks over files that agree on the descriptors and payloads of sound entries have the
same outcome. -/
theorem walk_eq_of_agreesAt (memory : Memory) {count : Nat}
    (sound : ∀ index < count, ProgramHeader.EntrySound first.contents header index)
    (entries : ∀ index < count,
      first.contents.AgreesAt second.contents (header.entryOffset .programHeader index)
        DescriptorKind.programHeader.size)
    (payloads : ∀ index < count, (ProgramHeader.atIndex first.contents header index).HasPayload →
      first.contents.AgreesAt second.contents
        (ProgramHeader.atIndex first.contents header index).offset.toNat
        (ProgramHeader.atIndex first.contents header index).payloadSize) :
    memory.walk second header count = memory.walk first header count := by
  induction count with
  | zero => rfl
  | succ count ih =>
      have last (memory : Memory) :
          memory.loadEntry second header count = memory.loadEntry first header count :=
        memory.loadEntry_eq_of_agreesAt (sound count (Nat.lt_succ_self count))
          (entries count (Nat.lt_succ_self count)) (payloads count (Nat.lt_succ_self count))
      have same := ih (fun index index_lt => sound index (Nat.lt_succ_of_lt index_lt))
        (fun index index_lt => entries index (Nat.lt_succ_of_lt index_lt))
        fun index index_lt => payloads index (Nat.lt_succ_of_lt index_lt)
      rw [walk_succ, walk_succ, same]
      simp only [last]

end Memory

namespace Machine

variable {machine : Machine} {first second : ImageSource} {entry : UInt32}

/-- A load of sound entries looks at nothing beyond the end of the file. -/
theorem loadReads_inside_of_sound {header : FileHeader}
    (read : readHeader first.contents = .ok header)
    (sound : ∀ index < header.phnum.toNat,
      ProgramHeader.EntrySound first.contents header index)
    {offset count : Nat} (reads : first.contents.LoadReads offset count) :
    offset + count ≤ first.contents.length := by
  obtain ⟨complete, rfl, -⟩ := readHeader_eq_ok_iff.mp read
  have size : FileHeader.size = 52 := rfl
  cases reads with
  | identification => omega
  | purpose => omega
  | table => omega
  | descriptor listed => exact (sound _ listed).inside
  | payload listed stored => exact (sound _ listed).payload_inside stored

/-- A load that succeeds looks at nothing beyond the end of the file. -/
theorem loadReads_inside (loaded : (machine.loadImage first).answer = .ok entry)
    {offset count : Nat} (reads : first.contents.LoadReads offset count) :
    offset + count ≤ first.contents.length := by
  obtain ⟨header, read, -, walked⟩ := loadImage_eq_ok_iff.mp loaded
  exact loadReads_inside_of_sound read (Memory.entrySound_of_walk walked) reads

/-- Files that agree on what a load reads are loaded alike, whether or not memory takes
what they ask for. -/
theorem loadImage_eq_of_sound (machine : Machine) {header : FileHeader}
    (read : readHeader first.contents = .ok header)
    (sound : ∀ index < header.phnum.toNat,
      ProgramHeader.EntrySound first.contents header index)
    (complete : FileHeader.size ≤ second.contents.length)
    (agrees : ∀ offset count, first.contents.LoadReads offset count →
      first.contents.AgreesAt second.contents offset count) :
    machine.loadImage second = machine.loadImage first := by
  obtain ⟨-, rfl, valid, stride⟩ := readHeader_eq_ok_iff.mp read
  have part := FileHeader.loadingPart_ofFile_eq (agrees _ _ .identification)
    (agrees _ _ .purpose) (agrees _ _ .table)
  have payloads := machine.memory.walk_eq_of_agreesAt sound
    (fun index listed => agrees _ _ (.descriptor listed))
    fun index listed stored => agrees _ _ (.payload listed stored)
  generalize FileHeader.ofFile first.contents = header at read valid stride part payloads
  generalize fromSecond : FileHeader.ofFile second.contents = other at part
  -- The check of the header, the walk and the reset see the header through this part only.
  have sameValid : other.validate = header.validate :=
    FileHeader.eq_of_loadingPart_eq (fun _ => rfl) part
  have sameStride : other.StrideSuffices .programHeader = header.StrideSuffices .programHeader :=
    FileHeader.eq_of_loadingPart_eq (f := (·.StrideSuffices .programHeader)) (fun _ => rfl) part
  have sameEntry : other.entry = header.entry :=
    FileHeader.eq_of_loadingPart_eq (fun _ => rfl) part
  have sameWalk : machine.memory.walk second other other.phnum.toNat =
      machine.memory.walk first header header.phnum.toNat :=
    (FileHeader.eq_of_loadingPart_eq
      (f := fun header => machine.memory.walk second header header.phnum.toNat)
      (fun _ => rfl) part).trans payloads
  have readOther : readHeader second.contents = .ok other :=
    readHeader_eq_ok_iff.mpr
      ⟨complete, fromSecond.symm, sameValid.trans valid, sameStride.mpr stride⟩
  rw [loadImage_of_readHeader readOther, loadImage_of_readHeader read, onMemory, onMemory, sameWalk,
    sameEntry]

/-- Files that agree on what a load reads are loaded alike. -/
theorem loadImage_eq_of_agreesAt (loaded : (machine.loadImage first).answer = .ok entry)
    (complete : FileHeader.size ≤ second.contents.length)
    (agrees : ∀ offset count, first.contents.LoadReads offset count →
      first.contents.AgreesAt second.contents offset count) :
    machine.loadImage second = machine.loadImage first := by
  obtain ⟨header, read, -, walked⟩ := loadImage_eq_ok_iff.mp loaded
  exact machine.loadImage_eq_of_sound read (Memory.entrySound_of_walk walked) complete agrees

/-- What follows a file whose entries are sound makes no difference to a load. -/
theorem loadImage_append (machine : Machine) {header : FileHeader}
    (read : readHeader first.contents = .ok header)
    (sound : ∀ index < header.phnum.toNat,
      ProgramHeader.EntrySound first.contents header index)
    {trailing : ByteString} (contents : second.contents = first.contents ++ trailing) :
    machine.loadImage second = machine.loadImage first := by
  have complete := (readHeader_eq_ok_iff.mp read).1
  apply machine.loadImage_eq_of_sound read sound
  · rw [contents, ByteString.length_append]
    omega
  · intro start count reads
    rw [contents]
    exact ByteString.agreesAt_append (loadReads_inside_of_sound read sound reads) trailing

/-- A load that succeeds is the same for every file that agrees with this one on what is
read of it.  So what is not read may be overwritten, and anything may follow the last
byte, without the machine noticing. -/
theorem loadImage_reads_only (loaded : (machine.loadImage first).answer = .ok entry) :
    let after := (machine.loadImage first).state
    (∀ second : ImageSource, FileHeader.size ≤ second.contents.length →
      (∀ offset count, first.contents.LoadReads offset count →
        first.contents.AgreesAt second.contents offset count) →
      machine.loadImage second = ⟨.ok entry, after⟩) ∧
    (∀ (second : ImageSource) (offset : Nat) (patch : ByteString),
      offset + patch.length ≤ first.contents.length →
      (∀ start count, first.contents.LoadReads start count →
        RangesApart start count offset patch.length) →
      second.contents = first.contents.overwrite offset patch →
      machine.loadImage second = ⟨.ok entry, after⟩) ∧
    ∀ (second : ImageSource) (trailing : ByteString),
      second.contents = first.contents ++ trailing →
      machine.loadImage second = ⟨.ok entry, after⟩ := by
  intro after
  have long : FileHeader.size ≤ first.contents.length := by
    obtain ⟨header, read, -⟩ := loadImage_eq_ok_iff.mp loaded
    exact (readHeader_eq_ok_iff.mp read).1
  have outcome : machine.loadImage first = ⟨.ok entry, after⟩ := Outcome.ext loaded rfl
  rw [← outcome]
  refine ⟨?agreeing, ?overwritten, ?extended⟩
  case agreeing =>
    intro second complete agrees
    exact loadImage_eq_of_agreesAt loaded complete agrees
  case overwritten =>
    intro second offset patch inside apart contents
    apply loadImage_eq_of_agreesAt loaded
    · rwa [contents, ByteString.length_overwrite inside]
    · intro start count reads
      rw [contents]
      exact ByteString.agreesAt_overwrite inside (loadReads_inside loaded reads)
        (apart start count reads)
  case extended =>
    intro second trailing contents
    apply loadImage_eq_of_agreesAt loaded
    · rw [contents, ByteString.length_append]
      omega
    · intro start count reads
      rw [contents]
      exact ByteString.agreesAt_append (loadReads_inside loaded reads) trailing

/-- The stretches of the sample that are read. -/
theorem mem_of_loadReads_sampleImage {offset count : Nat}
    (reads : sampleImage.LoadReads offset count) :
    (offset, count) ∈ [(0, 7), (16, 16), (42, 4), (52, 32), (84, 4)] := by
  have single {index : Nat} (listed : index < (FileHeader.ofFile sampleImage).phnum.toNat) :
      index = 0 := Nat.lt_one_iff.mp listed
  cases reads with
  | identification => decide
  | purpose => decide
  | table => decide
  | descriptor listed =>
      obtain rfl := single listed
      decide
  | payload listed stored =>
      obtain rfl := single listed
      decide

/-- Another binary interface, another section table, other flags and more bytes make no
difference to a machine that has something mapped. -/
theorem loadImage_reads_only_sampleImage :
    let disguised := (sampleImage.overwrite 7 (.ofList [3, 1])).overwrite 32
      (.ofList [9, 9, 9, 9, 5, 0, 0, 0, 1, 0]) ++ .ofList [0xaa, 0xbb]
    (busy.loadImage (.memory sampleImage)).answer = .ok 0x1000 ∧
      busy.loadImage (.file disguised) =
        ⟨.ok 0x1000, (busy.loadImage (.memory sampleImage)).state⟩ ∧
      busy.loadImage (.file (sampleImage.overwrite 46 (.ofList [40, 0, 4, 0, 3, 0]))) =
        ⟨.ok 0x1000, (busy.loadImage (.memory sampleImage)).state⟩ ∧
      busy.loadImage (.file (sampleImage ++ .zero 5)) =
        ⟨.ok 0x1000, (busy.loadImage (.memory sampleImage)).state⟩ := by
  intro disguised
  have loaded : (busy.loadImage (.memory sampleImage)).answer = .ok 0x1000 := rfl
  have agrees : ∀ window ∈ [(0, 7), (16, 16), (42, 4), (52, 32), (84, 4)],
      sampleImage.AgreesAt disguised window.1 window.2 := by
    decide
  have apart : ∀ window ∈ [(0, 7), (16, 16), (42, 4), (52, 32), (84, 4)],
      RangesApart window.1 window.2 46 6 := by
    decide
  obtain ⟨agreeing, overwritten, extended⟩ := loadImage_reads_only loaded
  refine ⟨loaded, agreeing _ (by decide) ?_, overwritten _ 46 _ (by decide) ?_ rfl,
    extended _ _ rfl⟩
  · intro offset count reads
    exact agrees _ (mem_of_loadReads_sampleImage reads)
  · intro offset count reads
    exact apart _ (mem_of_loadReads_sampleImage reads)

end Machine

end RiscvImage
