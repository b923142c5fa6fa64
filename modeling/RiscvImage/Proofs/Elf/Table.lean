import RiscvImage.Loading.Segments
import RiscvImage.Proofs.ByteString.Windows

/-!
# What stands where in an image file

The file header and the entries of the two descriptor tables of an image, read off the
file by their places alone.  The readers of images are compared with these: a reader may
go through a table in any way it likes, but an entry is what stands at its offset.  Both
tables are described alike, by the kind of their descriptors.

A descriptor of a loaded segment that has bytes in memory maps one region.  It
begins with the segment's bytes in the file and is zero from there on.
-/

namespace RiscvImage

namespace DescriptorKind

/-- The table in which the descriptors of a kind are listed. -/
def table : DescriptorKind → ImagePart
  | programHeader => .programHeaderTable
  | sectionHeader => .sectionHeaderTable

end DescriptorKind

namespace FileHeader

/-- The header that the first bytes of a file encode, whatever they are. -/
def ofFile (file : ByteString) : FileHeader :=
  decode (file.window 0 size).bytes

variable (header : FileHeader) (file : ByteString) (kind : DescriptorKind)

/-- Where a table begins in the file. -/
def tableOffset : DescriptorKind → UInt32
  | .programHeader => header.phoff
  | .sectionHeader => header.shoff

/-- How far the entries of a table are apart. -/
def tableStride : DescriptorKind → UInt16
  | .programHeader => header.phentsize
  | .sectionHeader => header.shentsize

/-- The number of entries of a table. -/
def tableCount : DescriptorKind → UInt16
  | .programHeader => header.phnum
  | .sectionHeader => header.shnum

/-- The file offset of an entry of a table. -/
def entryOffset (index : Nat) : Nat :=
  (header.tableOffset kind).toNat + index * (header.tableStride kind).toNat

/-- An entry of a table lies in the file. -/
def EntryInside (index : Nat) : Prop :=
  header.entryOffset kind index + kind.size ≤ file.length

/-- All entries of a table lie in the file. -/
def TableInside : Prop :=
  ∀ index < (header.tableCount kind).toNat, header.EntryInside file kind index

/-- The entries of a table, if there are any, stand far enough apart not to overlap. -/
def StrideSuffices : Prop :=
  header.tableCount kind = 0 ∨ kind.size ≤ (header.tableStride kind).toNat

instance (index : Nat) : Decidable (header.EntryInside file kind index) :=
  inferInstanceAs (Decidable (_ ≤ _))

instance : Decidable (header.TableInside file kind) :=
  inferInstanceAs (Decidable (∀ index < _, _))

instance : Decidable (header.StrideSuffices kind) :=
  inferInstanceAs (Decidable (_ ∨ _))

/-- The bytes at an index of a table, whatever stands there. -/
def entryAt (index : Nat) : ByteString :=
  file.window (header.entryOffset kind index) kind.size

/-- The bytes of the first `count` entries of a table. -/
def entries (count : Nat) : List ByteString :=
  (List.range count).map (header.entryAt file kind)

/-- The bytes of all entries of a table. -/
def tableEntries : List (List UInt8) :=
  (header.entries file kind (header.tableCount kind).toNat).map ByteString.bytes

/-- The descriptor at an index of a table, whatever stands there. -/
def descriptorAt {α : Type} (decode : List UInt8 → α) (index : Nat) : α :=
  decode (header.entryAt file kind index).bytes

/-- The first `count` descriptors of a table. -/
def descriptors {α : Type} (decode : List UInt8 → α) (count : Nat) : List α :=
  (header.entries file kind count).map fun entry => decode entry.bytes

/-- A table is stored in a file without gaps: its entries follow each other from its offset
on, which may be anywhere if there are none. -/
structure StoresTable (parts : List ByteString) : Prop where
  stride : (header.tableStride kind).toNat = kind.size
  count : (header.tableCount kind).toNat = parts.length
  sizes : ∀ part ∈ parts, part.length = kind.size
  stored : parts ≠ [] → ∃ front rest, front.length = (header.tableOffset kind).toNat ∧
    file = front ++ .concat parts ++ rest

variable {header file kind}

theorem entryOffset_programHeader (index : Nat) :
    header.entryOffset .programHeader index =
      header.phoff.toNat + index * header.phentsize.toNat :=
  rfl

/-- The readers of images turn a table down for its stride in the opposite case. -/
theorem strideSuffices_iff :
    header.StrideSuffices kind ↔
      ¬ (0 < header.tableCount kind ∧ (header.tableStride kind).toNat < kind.size) := by
  rw [StrideSuffices, Decidable.not_and_iff_or_not, Nat.not_lt, UInt16.pos_iff_ne_zero,
    Decidable.not_not]

theorem length_entries (count : Nat) : (header.entries file kind count).length = count := by
  rw [entries, List.length_map, List.length_range]

theorem getElem_entries {count index : Nat}
    (within : index < (header.entries file kind count).length) :
    (header.entries file kind count)[index] = header.entryAt file kind index := by
  simp only [entries, List.getElem_map, List.getElem_range]

theorem entries_succ (count : Nat) :
    header.entries file kind (count + 1) =
      header.entries file kind count ++ [header.entryAt file kind count] := by
  rw [entries, List.range_succ, List.map_append]
  rfl

theorem mem_entries_iff {count : Nat} {entry : ByteString} :
    entry ∈ header.entries file kind count ↔
      ∃ index < count, header.entryAt file kind index = entry := by
  simp only [entries, List.mem_map, List.mem_range]

theorem getElem?_entries (count index : Nat) :
    (header.entries file kind count)[index]? =
      if index < count then some (header.entryAt file kind index) else none := by
  split
  case isTrue within =>
    rw [List.getElem?_eq_getElem (by rwa [length_entries]), getElem_entries]
  case isFalse outside => rw [List.getElem?_eq_none (by rw [length_entries]; omega)]

section Descriptors

variable {α : Type} {decode : List UInt8 → α}

theorem map_tableEntries :
    (header.tableEntries file kind).map decode =
      header.descriptors file kind decode (header.tableCount kind).toNat :=
  List.map_map

theorem descriptors_succ (count : Nat) :
    header.descriptors file kind decode (count + 1) =
      header.descriptors file kind decode count ++
        [header.descriptorAt file kind decode count] := by
  rw [descriptors, entries_succ, List.map_append]
  rfl

theorem mem_descriptors_iff {count : Nat} {descriptor : α} :
    descriptor ∈ header.descriptors file kind decode count ↔
      ∃ index < count, header.descriptorAt file kind decode index = descriptor := by
  constructor
  · intro member
    obtain ⟨entry, stands, rfl⟩ := List.mem_map.mp member
    obtain ⟨index, index_lt, rfl⟩ := mem_entries_iff.mp stands
    exact ⟨index, index_lt, rfl⟩
  · rintro ⟨index, index_lt, rfl⟩
    exact List.mem_map_of_mem (mem_entries_iff.mpr ⟨index, index_lt, rfl⟩)

theorem getElem?_descriptors (count index : Nat) :
    (header.descriptors file kind decode count)[index]? =
      if index < count then some (header.descriptorAt file kind decode index) else none := by
  rw [descriptors, List.getElem?_map, getElem?_entries, apply_ite (Option.map _)]
  rfl

end Descriptors

namespace StoresTable

variable {parts : List ByteString}

theorem strideSuffices (stores : header.StoresTable file kind parts) :
    header.StrideSuffices kind :=
  .inr (Nat.le_of_eq stores.stride.symm)

theorem tableInside (stores : header.StoresTable file kind parts) :
    header.TableInside file kind := by
  intro index index_lt
  rw [stores.count] at index_lt
  have inside : index * kind.size + kind.size ≤ parts.length * kind.size := by
    rw [← Nat.succ_mul]
    exact Nat.mul_le_mul_right kind.size index_lt
  obtain ⟨front, rest, starts, whole⟩ :=
    stores.stored (List.ne_nil_of_length_pos (Nat.zero_lt_of_lt index_lt))
  rw [EntryInside, entryOffset, stores.stride, whole, ByteString.length_append,
    ByteString.length_append, ByteString.length_concat_of_forall stores.sizes]
  omega

theorem entryAt_eq (stores : header.StoresTable file kind parts) {index : Nat}
    (index_lt : index < parts.length) : header.entryAt file kind index = parts[index] := by
  obtain ⟨front, rest, starts, whole⟩ :=
    stores.stored (List.ne_nil_of_length_pos (Nat.zero_lt_of_lt index_lt))
  rw [entryAt, entryOffset, stores.stride, whole]
  exact ByteString.window_concat starts stores.sizes index_lt rest

/-- The entries of a stored table are what was stored. -/
theorem entries_eq (stores : header.StoresTable file kind parts) :
    header.entries file kind (header.tableCount kind).toNat = parts := by
  refine List.ext_getElem ?_ fun index _ index_lt => ?_
  · rw [length_entries, stores.count]
  · rw [getElem_entries, stores.entryAt_eq index_lt]

end StoresTable

end FileHeader

namespace ProgramHeader

/-- The program header at an index of the table, whatever stands there. -/
def atIndex (file : ByteString) (header : FileHeader) (index : Nat) : ProgramHeader :=
  header.descriptorAt file .programHeader decode index

/-- The first `count` program headers. -/
def listed (file : ByteString) (header : FileHeader) (count : Nat) : List ProgramHeader :=
  header.descriptors file .programHeader decode count

/-- The type is one that an image may use. -/
def IsSupported (descriptor : ProgramHeader) : Prop :=
  descriptor.segmentType = nullType ∨ descriptor.segmentType = noteType ∨
    descriptor.segmentType = loadType

/-- The segment is loaded and has bytes in memory. -/
def MapsRegion (descriptor : ProgramHeader) : Prop :=
  descriptor.segmentType = loadType ∧ descriptor.memsz ≠ 0

instance (descriptor : ProgramHeader) : Decidable descriptor.IsSupported :=
  inferInstanceAs (Decidable (_ ∨ _))

instance (descriptor : ProgramHeader) : Decidable descriptor.MapsRegion :=
  inferInstanceAs (Decidable (_ ∧ _))

/-- The segments among the first `count` that map a region, in file order. -/
def mapped (file : ByteString) (header : FileHeader) (count : Nat) : List ProgramHeader :=
  (listed file header count).filter (·.MapsRegion)

/-- The bytes that are taken from the file lie in it. -/
def PayloadInside (descriptor : ProgramHeader) (file : ByteString) : Prop :=
  descriptor.filesz = 0 ∨ descriptor.offset.toNat + descriptor.payloadSize ≤ file.length

instance (descriptor : ProgramHeader) (file : ByteString) :
    Decidable (descriptor.PayloadInside file) :=
  inferInstanceAs (Decidable (_ ∨ _))

/-- The segment maps a region into which bytes are taken from the file. -/
def HasPayload (descriptor : ProgramHeader) : Prop :=
  descriptor.MapsRegion ∧ descriptor.filesz ≠ 0

instance (descriptor : ProgramHeader) : Decidable descriptor.HasPayload :=
  inferInstanceAs (Decidable (_ ∧ _))

/-- The region of a segment: its bytes in the file, followed by zero bytes up to its
size in memory. -/
def region (descriptor : ProgramHeader) (file : ByteString) : Region :=
  ⟨descriptor.vaddr,
    (file.window descriptor.offset.toNat descriptor.payloadSize).padded descriptor.memsz.toNat⟩

/-- An entry of the table in good order: it lies in the file, its type is supported,
and if it maps a region, its payload lies in the file. -/
structure EntrySound (file : ByteString) (header : FileHeader) (index : Nat) : Prop where
  inside : header.EntryInside file .programHeader index
  supported : (atIndex file header index).IsSupported
  payload : (atIndex file header index).MapsRegion → (atIndex file header index).PayloadInside file

/-- The payload of an entry in good order lies in the file. -/
theorem EntrySound.payload_inside {file : ByteString} {header : FileHeader} {index : Nat}
    (sound : EntrySound file header index) (stored : (atIndex file header index).HasPayload) :
    (atIndex file header index).offset.toNat + (atIndex file header index).payloadSize ≤
      file.length := by
  rcases sound.payload stored.1 with none | inside
  · exact absurd none stored.2
  · exact inside

theorem MapsRegion.isSupported {descriptor : ProgramHeader} (maps : descriptor.MapsRegion) :
    descriptor.IsSupported :=
  .inr (.inr maps.1)

theorem MapsRegion.memsz_pos {descriptor : ProgramHeader} (maps : descriptor.MapsRegion) :
    0 < descriptor.memsz.toNat :=
  Nat.pos_of_ne_zero fun zero => maps.2 (UInt32.toNat_inj.mp zero)

theorem payloadSize_eq_zero {descriptor : ProgramHeader} (none : descriptor.filesz = 0) :
    descriptor.payloadSize = 0 := by
  rw [payloadSize, none]
  exact Nat.zero_min _

@[simp]
theorem base_region (descriptor : ProgramHeader) (file : ByteString) :
    (descriptor.region file).base = descriptor.vaddr :=
  rfl

@[simp]
theorem length_region (descriptor : ProgramHeader) (file : ByteString) :
    (descriptor.region file).length = descriptor.memsz.toNat :=
  ByteString.length_padded _ _

theorem listed_succ (file : ByteString) (header : FileHeader) (count : Nat) :
    listed file header (count + 1) = listed file header count ++ [atIndex file header count] :=
  FileHeader.descriptors_succ count

theorem mem_listed_iff {file : ByteString} {header : FileHeader} {count : Nat}
    {descriptor : ProgramHeader} :
    descriptor ∈ listed file header count ↔
      ∃ index < count, atIndex file header index = descriptor :=
  FileHeader.mem_descriptors_iff

@[simp]
theorem mapped_zero (file : ByteString) (header : FileHeader) : mapped file header 0 = [] :=
  rfl

theorem mapped_succ_of_maps {file : ByteString} {header : FileHeader} {count : Nat}
    (maps : (atIndex file header count).MapsRegion) :
    mapped file header (count + 1) =
      mapped file header count ++ [atIndex file header count] := by
  simp [mapped, listed_succ, maps]

theorem mapped_succ_of_not_maps {file : ByteString} {header : FileHeader} {count : Nat}
    (notMaps : ¬ (atIndex file header count).MapsRegion) :
    mapped file header (count + 1) = mapped file header count := by
  simp [mapped, listed_succ, notMaps]

/-- The payload of a segment that maps a region is complete or missing, and the
missing one is told apart by the offsets alone. -/
theorem payload_eq {descriptor : ProgramHeader} (maps : descriptor.MapsRegion)
    (file : ByteString) :
    descriptor.payload file =
      if descriptor.PayloadInside file then
        .ok (file.window descriptor.offset.toNat descriptor.payloadSize)
      else .error (.truncated .segmentContents) := by
  by_cases none : descriptor.filesz = 0
  · have inside : descriptor.PayloadInside file := .inl none
    rw [payload, if_pos none, if_pos inside, payloadSize_eq_zero none, ByteString.window_zero]
  · have filesz : 0 < descriptor.filesz.toNat :=
      Nat.pos_of_ne_zero fun zero => none (UInt32.toNat_inj.mp zero)
    have pos : 0 < descriptor.payloadSize := Nat.lt_min.mpr ⟨filesz, maps.memsz_pos⟩
    simp only [payload, ByteString.window?_eq_ite _ _ pos, PayloadInside, none, false_or]
    by_cases inside : descriptor.offset.toNat + descriptor.payloadSize ≤ file.length
    · simp only [inside, if_true, if_false]
    · simp only [inside, if_false]

end ProgramHeader

/-- Reading a header goes by the first bytes of the file alone. -/
theorem readHeader_eq (file : ByteString) :
    readHeader file =
      if FileHeader.size ≤ file.length then
        match (FileHeader.ofFile file).validate with
        | .error fault => .error (.ofHeaderFault fault)
        | .ok () =>
          if (FileHeader.ofFile file).StrideSuffices .programHeader then .ok (FileHeader.ofFile file)
          else
            .error (.format (.entrySize .programHeader (FileHeader.ofFile file).phentsize))
      else .error (.format (.truncated .fileHeader)) := by
  have window := ByteString.window?_eq_ite file 0 (by decide : 0 < FileHeader.size)
  have decoded : FileHeader.decode (file.window 0 FileHeader.size).bytes =
      FileHeader.ofFile file := rfl
  rw [Nat.zero_add] at window
  simp only [readHeader, window]
  by_cases long : FileHeader.size ≤ file.length
  · simp only [long, if_true, decoded, FileHeader.strideSuffices_iff]
    cases (FileHeader.ofFile file).validate with
    | error fault => rfl
    | ok _ =>
        simp only [ite_not]
        rfl
  · simp only [long, if_false]

theorem FileHeader.ofFile_take {file : ByteString} {count : Nat}
    (complete : size ≤ (file.take count).length) : ofFile (file.take count) = ofFile file := by
  have front : 0 + size ≤ (file.take count).length := by rwa [Nat.zero_add]
  rw [ofFile, ofFile, (ByteString.agreesAt_take front).2]

/-- The bytes behind a header have no part in reading it. -/
theorem readHeader_take {count : Nat} (front : FileHeader.size ≤ count) (file : ByteString) :
    readHeader (file.take count) = readHeader file := by
  have long_iff : FileHeader.size ≤ (file.take count).length ↔ FileHeader.size ≤ file.length := by
    rw [ByteString.length_take]
    omega
  by_cases long : FileHeader.size ≤ file.length
  · rw [readHeader_eq, readHeader_eq, if_pos (long_iff.mpr long), if_pos long,
      FileHeader.ofFile_take (long_iff.mpr long)]
  · rw [readHeader_eq, readHeader_eq, if_neg (mt long_iff.mp long), if_neg long]

/-- A header is read exactly if it is complete, valid, and leaves room for the
entries of its table. -/
theorem readHeader_eq_ok_iff {file : ByteString} {header : FileHeader} :
    readHeader file = .ok header ↔
      FileHeader.size ≤ file.length ∧ header = FileHeader.ofFile file ∧
        header.validate = .ok () ∧ header.StrideSuffices .programHeader := by
  rw [readHeader_eq]
  by_cases long : FileHeader.size ≤ file.length
  · rw [if_pos long]
    cases valid : (FileHeader.ofFile file).validate with
    | error fault => grind
    | ok _ =>
        by_cases stride : (FileHeader.ofFile file).StrideSuffices .programHeader
        · grind
        · grind
  · simp [long]

/-- The image of an executable made of its header, these segment descriptors, and
whatever follows them. -/
def ByteString.executable (entry : UInt32) (segments : List ProgramHeader)
    (contents : List UInt8) : ByteString :=
  let header := FileHeader.executable entry (.ofNat FileHeader.size) (.ofNat segments.length) 0 0
  .ofList (header.encode ++ segments.flatMap ProgramHeader.encode ++ contents)

end RiscvImage
