import RiscvImage.Proofs.Loading.Footprint

/-!
# The order of the segments

Segments may be described in any order.  Whether they find their places does not depend on
it, since they have to be apart from each other and from what is mapped, and fit under the
limit all together.  What they leave behind does not depend on it either: the regions stand
in address order, so memory is the same however they got there.

A file whose program headers are permuted describes the same segments, provided that the
table does not overlap what else is read of the file.
-/

namespace RiscvImage

namespace ProgramHeader

variable {first second : ByteString} {header : FileHeader} {count : Nat}

/-- Entries in good order stay so in another order, if the table still lies in the file and
the payloads are where they were. -/
theorem entrySound_of_perm (sound : ∀ index < count, EntrySound first header index)
    (perm : (listed second header count).Perm (listed first header count))
    (inside : ∀ index < count, header.EntryInside second .programHeader index)
    (payloads : ∀ descriptor ∈ listed first header count, descriptor.HasPayload →
      first.AgreesAt second descriptor.offset.toNat descriptor.payloadSize) :
    ∀ index < count, EntrySound second header index := by
  intro index index_lt
  have member : atIndex second header index ∈ listed first header count :=
    perm.mem_iff.mp (mem_listed_iff.mpr ⟨index, index_lt, rfl⟩)
  obtain ⟨place, place_lt, same⟩ := mem_listed_iff.mp member
  constructor
  case inside => exact inside index index_lt
  case supported => exact same ▸ (sound place place_lt).supported
  case payload => exact fun maps => .of_agreesAt maps (payloads _ member)

/-- Segments fill the same regions from a file that holds the same payloads. -/
theorem region_eq_of_mem_mapped
    (payloads : ∀ descriptor ∈ listed first header count, descriptor.HasPayload →
      first.AgreesAt second descriptor.offset.toNat descriptor.payloadSize) :
    ∀ descriptor ∈ mapped first header count,
      descriptor.region second = descriptor.region first := by
  intro descriptor member
  obtain ⟨listed, maps⟩ := List.mem_filter.mp member
  exact region_eq_of_agreesAt fun stored =>
    payloads descriptor listed ⟨of_decide_eq_true maps, stored⟩

end ProgramHeader

namespace Memory

variable {memory : Memory} {first second : ImageSource} {header : FileHeader} {count : Nat}

/-- Walks over files that describe the same segments in different orders lead to the same
memory. -/
theorem WellFormed.walk_eq_of_perm (wellFormed : memory.WellFormed)
    (walked : (memory.walk first header count).answer = .ok ())
    (perm : (ProgramHeader.listed second.contents header count).Perm
      (ProgramHeader.listed first.contents header count))
    (inside : ∀ index < count, header.EntryInside second.contents .programHeader index)
    (payloads : ∀ descriptor ∈ ProgramHeader.listed first.contents header count,
      descriptor.HasPayload → first.contents.AgreesAt second.contents descriptor.offset.toNat
        descriptor.payloadSize) :
    memory.walk second header count = memory.walk first header count := by
  obtain ⟨sound, accommodates⟩ := wellFormed.walk_eq_ok_iff.mp walked
  have mapped : (ProgramHeader.mapped second.contents header count).Perm
      (ProgramHeader.mapped first.contents header count) := perm.filter _
  have sameRegion := ProgramHeader.region_eq_of_mem_mapped payloads
  have walkedSecond : (memory.walk second header count).answer = .ok () :=
    wellFormed.walk_eq_ok_iff.mpr
      ⟨ProgramHeader.entrySound_of_perm sound perm inside payloads,
        accommodates.of_perm mapped sameRegion⟩
  have regions : ((ProgramHeader.mapped second.contents header count).map
      (·.region second.contents)).Perm
        ((ProgramHeader.mapped first.contents header count).map (·.region first.contents)) := by
    rw [← List.map_congr_left sameRegion]
    exact mapped.map _
  apply Outcome.ext
  case answer => rw [walkedSecond, walked]
  case state =>
    apply (wellFormed.walk second header count).eq_of_perm (wellFormed.walk first header count)
    · exact ((regions_walk_perm walkedSecond).trans (regions.append_left _)).trans
        (regions_walk_perm walked).symm
    · rw [limit_walk, limit_walk]

end Memory

namespace ByteString

variable {file : ByteString}

/-- The program headers of a file, as the bytes that they are stored in. -/
def segmentEntries (file : ByteString) : List ByteString :=
  (FileHeader.ofFile file).entries file .programHeader (FileHeader.ofFile file).phnum.toNat

/-- The number of bytes of a program header table without gaps. -/
def tableSize (file : ByteString) : Nat :=
  (FileHeader.ofFile file).phnum.toNat * DescriptorKind.programHeader.size

/-- The file with other entries in its program header table, one directly after the
other. -/
def withSegmentEntries (file : ByteString) (entries : List ByteString) : ByteString :=
  let offset := (FileHeader.ofFile file).phoff.toNat
  file.take offset ++ concat entries ++ file.drop (offset + (concat entries).length)

/-- The program headers stand one directly after the other, and their table has no byte in
common with the file header or with the payload of a segment. -/
structure TableApart (file : ByteString) : Prop where
  stride : (FileHeader.ofFile file).phentsize.toNat = DescriptorKind.programHeader.size
  header : RangesApart 0 FileHeader.size (FileHeader.ofFile file).phoff.toNat file.tableSize
  payloads : ∀ descriptor ∈
    ProgramHeader.listed file (.ofFile file) (FileHeader.ofFile file).phnum.toNat,
    descriptor.HasPayload → RangesApart descriptor.offset.toNat descriptor.payloadSize
      (FileHeader.ofFile file).phoff.toNat file.tableSize

/-- The program headers are what their bytes encode. -/
theorem listed_eq_map_segmentEntries (file : ByteString) :
    ProgramHeader.listed file (.ofFile file) (FileHeader.ofFile file).phnum.toNat =
      file.segmentEntries.map fun entry => ProgramHeader.decode entry.bytes :=
  rfl

@[simp]
theorem length_segmentEntries (file : ByteString) :
    file.segmentEntries.length = (FileHeader.ofFile file).phnum.toNat := by
  rw [segmentEntries, FileHeader.length_entries]

variable {entries : List ByteString}

/-- Entries that fill the table of a file, which lies in the file unless it is empty. -/
structure FillTable (file : ByteString) (entries : List ByteString) : Prop where
  sizes : ∀ entry ∈ entries, entry.length = DescriptorKind.programHeader.size
  count : entries.length = (FileHeader.ofFile file).phnum.toNat
  inside : entries = [] ∨
    (FileHeader.ofFile file).phoff.toNat + file.tableSize ≤ file.length

theorem FillTable.length_concat (fill : file.FillTable entries) :
    (concat entries).length = file.tableSize := by
  rw [length_concat_of_forall fill.sizes, fill.count, tableSize]

theorem withSegmentEntries_nil (file : ByteString) : file.withSegmentEntries [] = file := by
  ext1
  simp [withSegmentEntries]

/-- In a table that lies in the file, the new entries overwrite those that were there. -/
theorem withSegmentEntries_eq_overwrite
    (inside : (FileHeader.ofFile file).phoff.toNat + (concat entries).length ≤ file.length) :
    file.withSegmentEntries entries =
      file.overwrite (FileHeader.ofFile file).phoff.toNat (concat entries) := by
  have none : (FileHeader.ofFile file).phoff.toNat - file.length = 0 := by omega
  have front : file.padded (FileHeader.ofFile file).phoff.toNat =
      file.take (FileHeader.ofFile file).phoff.toNat := by
    ext1
    simp [none]
  rw [withSegmentEntries, overwrite, front]

/-- What does not meet the table is as it was. -/
theorem FillTable.agreesAt (fill : file.FillTable entries) {offset count : Nat}
    (complete : offset + count ≤ file.length)
    (apart : RangesApart offset count (FileHeader.ofFile file).phoff.toNat file.tableSize) :
    file.AgreesAt (file.withSegmentEntries entries) offset count := by
  rcases fill.inside with rfl | inside
  · rw [withSegmentEntries_nil]
    exact ⟨complete, rfl⟩
  · rw [← fill.length_concat] at apart inside
    rw [withSegmentEntries_eq_overwrite inside]
    exact agreesAt_overwrite inside complete apart

theorem FillTable.length_withSegmentEntries (fill : file.FillTable entries) :
    (file.withSegmentEntries entries).length = file.length := by
  rcases fill.inside with rfl | inside
  · rw [withSegmentEntries_nil]
  · rw [← fill.length_concat] at inside
    rw [withSegmentEntries_eq_overwrite inside, length_overwrite inside]

/-- The new entries are stored where the table was. -/
theorem FillTable.storesTable (fill : file.FillTable entries)
    (stride : (FileHeader.ofFile file).phentsize.toNat = DescriptorKind.programHeader.size) :
    (FileHeader.ofFile file).StoresTable (file.withSegmentEntries entries) .programHeader
      entries where
  stride := stride
  count := fill.count.symm
  sizes := fill.sizes
  stored := by
    intro nonempty
    have inside := fill.inside.resolve_left nonempty
    have front : (file.take (FileHeader.ofFile file).phoff.toNat).length =
        (FileHeader.ofFile file).phoff.toNat := by
      rw [length_take]
      omega
    exact ⟨_, _, front, rfl⟩

/-- A table apart from the file header is not told about in it. -/
theorem FillTable.ofFile_withSegmentEntries (fill : file.FillTable entries)
    (apart : file.TableApart) (complete : FileHeader.size ≤ file.length) :
    FileHeader.ofFile (file.withSegmentEntries entries) = FileHeader.ofFile file := by
  have agrees := fill.agreesAt ((Nat.zero_add FileHeader.size).symm ▸ complete) apart.header
  rw [FileHeader.ofFile, agrees.2, FileHeader.ofFile]

/-- The program headers of the file with other entries are these entries. -/
theorem FillTable.segmentEntries_withSegmentEntries (fill : file.FillTable entries)
    (apart : file.TableApart) (complete : FileHeader.size ≤ file.length) :
    (file.withSegmentEntries entries).segmentEntries = entries := by
  rw [segmentEntries, fill.ofFile_withSegmentEntries apart complete]
  exact (fill.storesTable apart.stride).entries_eq

/-- The program headers of a file in another order fill its table. -/
theorem fillTable_of_perm
    (stride : (FileHeader.ofFile file).phentsize.toNat = DescriptorKind.programHeader.size)
    (inside : ∀ index < (FileHeader.ofFile file).phnum.toNat,
      (FileHeader.ofFile file).EntryInside file .programHeader index)
    (perm : entries.Perm file.segmentEntries) : file.FillTable entries where
  sizes := by
    intro entry member
    obtain ⟨index, index_lt, rfl⟩ := FileHeader.mem_entries_iff.mp (perm.mem_iff.mp member)
    have complete := inside index index_lt
    simp only [FileHeader.EntryInside] at complete
    rw [FileHeader.entryAt, length_window]
    omega
  count := by
    rw [perm.length_eq, length_segmentEntries]
  inside := by
    cases none : (FileHeader.ofFile file).phnum.toNat with
    | zero =>
        left
        apply List.eq_nil_of_length_eq_zero
        rw [perm.length_eq, length_segmentEntries, none]
    | succ last =>
        right
        have complete := inside last (none ▸ Nat.lt_succ_self last)
        rw [FileHeader.EntryInside, FileHeader.entryOffset_programHeader, stride] at complete
        rw [tableSize, none, Nat.succ_mul]
        omega

end ByteString

namespace Machine

/-- Loading does not depend on the order of the segments: if an image is loaded, it is
loaded just as well with its program headers in another order, and the machine ends up in
the same state. -/
theorem loadImage_eq_of_segmentEntries_perm {machine : Machine} (reachable : machine.Reachable)
    {source reordered : ImageSource} {entry : UInt32}
    (loaded : (machine.loadImage source).answer = .ok entry)
    (apart : source.contents.TableApart) {entries : List ByteString}
    (perm : entries.Perm source.contents.segmentEntries)
    (contents : reordered.contents = source.contents.withSegmentEntries entries) :
    machine.loadImage reordered = ⟨.ok entry, (machine.loadImage source).state⟩ := by
  obtain ⟨header, read, rfl, walked⟩ := loadImage_eq_ok_iff.mp loaded
  obtain ⟨complete, rfl, valid, stride⟩ := readHeader_eq_ok_iff.mp read
  have sound := Memory.entrySound_of_walk walked
  have fill := ByteString.fillTable_of_perm apart.stride
    (fun index index_lt => (sound index index_lt).inside) perm
  have sameHeader : FileHeader.ofFile reordered.contents = FileHeader.ofFile source.contents := by
    rw [contents, fill.ofFile_withSegmentEntries apart complete]
  have sameLength : reordered.contents.length = source.contents.length := by
    rw [contents, fill.length_withSegmentEntries]
  have readReordered : readHeader reordered.contents = .ok (.ofFile source.contents) :=
    readHeader_eq_ok_iff.mpr ⟨sameLength ▸ complete, sameHeader.symm, valid, stride⟩
  have listed : (ProgramHeader.listed reordered.contents (.ofFile source.contents)
      (FileHeader.ofFile source.contents).phnum.toNat).Perm
        (ProgramHeader.listed source.contents (.ofFile source.contents)
          (FileHeader.ofFile source.contents).phnum.toNat) := by
    rw [← sameHeader, ByteString.listed_eq_map_segmentEntries, sameHeader,
      ByteString.listed_eq_map_segmentEntries, contents,
      fill.segmentEntries_withSegmentEntries apart complete]
    exact perm.map _
  have inside : ∀ index < (FileHeader.ofFile source.contents).phnum.toNat,
      (FileHeader.ofFile source.contents).EntryInside reordered.contents .programHeader index := by
    intro index index_lt
    rw [FileHeader.EntryInside, sameLength]
    exact (sound index index_lt).inside
  have payloads : ∀ descriptor ∈ ProgramHeader.listed source.contents (.ofFile source.contents)
      (FileHeader.ofFile source.contents).phnum.toNat, descriptor.HasPayload →
        source.contents.AgreesAt reordered.contents descriptor.offset.toNat
          descriptor.payloadSize := by
    intro descriptor member stored
    obtain ⟨index, index_lt, rfl⟩ := ProgramHeader.mem_listed_iff.mp member
    rw [contents]
    exact fill.agreesAt ((sound index index_lt).payload_inside stored)
      (apart.payloads _ member stored)
  have same := reachable.wellFormed.walk_eq_of_perm walked listed inside payloads
  rw [loadImage_of_walk_ok readReordered (same ▸ walked), loadImage_of_walk_ok read walked, same]

/-- An image with a note between two segments, the first of which goes above the other. -/
def notedImage : ByteString :=
  .executable 0x1000
    [.load 148 0x3000 4 6,
      { ProgramHeader.load 152 0 2 4 with segmentType := ProgramHeader.noteType },
      { ProgramHeader.load 152 0x1000 4 5 with memsz := 8 }]
    [1, 2, 3, 4, 5, 6, 7, 8]

set_option maxRecDepth 4000 in
/-- Two segments and a note are loaded beside a region that is there already, from the first
descriptor to the last or the other way round. -/
theorem loadImage_eq_of_segmentEntries_perm_notedImage :
    let reversed := notedImage.withSegmentEntries notedImage.segmentEntries.reverse
    reversed ≠ notedImage ∧ busy.Reachable ∧
      (busy.loadImage (.memory notedImage)).answer = .ok 0x1000 ∧ notedImage.TableApart ∧
      busy.loadImage (.file reversed) =
        ⟨.ok 0x1000, (busy.loadImage (.memory notedImage)).state⟩ := by
  intro reversed
  have different : reversed ≠ notedImage := by decide
  have reachable : busy.Reachable := (reachable_withMemory_empty 0x100).run _
  have loaded : (busy.loadImage (.memory notedImage)).answer = .ok 0x1000 := rfl
  have apart : notedImage.TableApart := ⟨rfl, by decide, by decide⟩
  exact ⟨different, reachable, loaded, apart,
    loadImage_eq_of_segmentEntries_perm reachable loaded apart (List.reverse_perm _) rfl⟩

end Machine

end RiscvImage
