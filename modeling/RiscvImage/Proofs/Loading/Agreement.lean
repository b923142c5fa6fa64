import RiscvImage.Elf.Inspection
import RiscvImage.Proofs.Loading.Interruption

/-!
# Loading and inspecting agree

An image is read in two ways: loading goes through the segments one at a time and
never looks at the sections, inspection takes both tables whole.  They find the same
header and the same segments.  What one of them accepts the other accepts too, but
for the section table in one direction and for the segments themselves in the other.
-/

namespace RiscvImage

namespace Inspection

/-- What an inspection reports of an image that has been loaded: the entry address and
the segments, those with bytes in memory being the regions that are new. -/
structure Reports (inspection : Inspection) (file : ByteString) (entry : UInt32)
    (before after : Memory) : Prop where
  header : readHeader file = .ok inspection.header
  entry : entry = inspection.header.entry
  segments : inspection.loadSegments =
    (ProgramHeader.listed file inspection.header inspection.header.phnum.toNat).filter
      (·.segmentType = ProgramHeader.loadType)
  regions : after.regions.Perm
    (before.regions ++ (inspection.loadSegments.filter (·.memsz ≠ 0)).map (·.region file))

/-- A fault of the section table, which loading does not look at. -/
inductive SectionTableFault : LoadError → Prop
  | narrow (size : UInt16) : SectionTableFault (.format (.entrySize .sectionHeader size))
  | cut : SectionTableFault (.format (.truncated .sectionHeaderTable))

/-- A fault of a segment, which inspecting does not look into. -/
inductive SegmentFault : LoadError → Prop
  | unsupported (segmentType : UInt32) : SegmentFault (.format (.unsupportedSegment segmentType))
  | refused (refusal : MemoryError) : SegmentFault (.memory refusal)
  | incomplete : SegmentFault (.format (.truncated .segmentContents))

theorem parseHeader_eq (file : ByteString) :
    parseHeader file =
      if FileHeader.size ≤ file.length then
        ((FileHeader.ofFile file).validate.mapError LoadError.ofHeaderFault).map fun _ =>
          FileHeader.ofFile file
      else .error (.format (.truncated .fileHeader)) := by
  simp only [parseHeader, ByteString.slice?, Nat.zero_le, true_and]
  by_cases complete : FileHeader.size ≤ file.length
  · rw [if_pos complete, if_pos complete]
    rfl
  · rw [if_neg complete, if_neg complete]

/-- A header is read as it is parsed, except that its entries must be far enough apart. -/
theorem readHeader_eq_parseHeader (file : ByteString) :
    readHeader file =
      match parseHeader file with
      | .error error => .error error
      | .ok header =>
        if header.StrideSuffices .programHeader then .ok header
        else .error (.format (.entrySize .programHeader header.phentsize)) := by
  rw [readHeader_eq, parseHeader_eq]
  by_cases complete : FileHeader.size ≤ file.length
  · rw [if_pos complete, if_pos complete]
    cases (FileHeader.ofFile file).validate <;> rfl
  · rw [if_neg complete, if_neg complete]

theorem parseHeader_of_readHeader {file : ByteString} {header : FileHeader}
    (read : readHeader file = .ok header) : parseHeader file = .ok header := by
  rw [readHeader_eq_parseHeader] at read
  cases parsed : parseHeader file with
  | error error =>
      rw [parsed] at read
      contradiction
  | ok found =>
      simp only [parsed] at read
      split at read
      · exact read
      · contradiction

/-- Entries taken one after the other are the windows at the multiples of the stride. -/
theorem entries_eq_map_range (size stride count : Nat) (table : ByteString) :
    entries size stride count table =
      (List.range count).map fun index => (table.window (index * stride) size).bytes := by
  induction count generalizing table with
  | zero => rfl
  | succ count ih =>
      have shifted (index : Nat) : ((table.drop stride).window (index * stride) size).bytes =
          (table.window ((index + 1) * stride) size).bytes := by
        rw [ByteString.window_drop, Nat.add_mul, Nat.one_mul, Nat.add_comm]
      rw [entries, ih, List.range_succ_eq_map, List.map_cons, List.map_map]
      simp [shifted]

/-- A table ends inside a file if each of its entries does. -/
theorem tableStop_le_iff {size stride offset count bound : Nat} :
    tableStop size stride offset count ≤ bound ↔
      ∀ index < count, offset + index * stride + size ≤ bound := by
  cases count with
  | zero => simp [tableStop]
  | succ count =>
      constructor
      · intro last index index_lt
        have before : index * stride ≤ count * stride :=
          Nat.mul_le_mul_right stride (Nat.le_of_lt_succ index_lt)
        simp only [tableStop] at last
        omega
      · exact fun all => all count (Nat.lt_succ_self count)

/-- Read the table of a kind. -/
def readTable (file : ByteString) (header : FileHeader) (kind : DescriptorKind) :
    Except LoadError (List (List UInt8)) :=
  parseTable file kind kind.table (header.tableOffset kind) (header.tableStride kind)
    (header.tableCount kind)

/-- The entries of a table are the windows at their offsets, if all of them lie in the
file and do not overlap. -/
theorem readTable_eq (file : ByteString) (header : FileHeader) (kind : DescriptorKind) :
    readTable file header kind =
      if header.StrideSuffices kind then
        if header.TableInside file kind then .ok (header.tableEntries file kind)
        else .error (.format (.truncated kind.table))
      else .error (.format (.entrySize kind (header.tableStride kind))) := by
  simp only [readTable, parseTable, tableStop_le_iff, entries_eq_map_range,
    ByteString.window_drop, FileHeader.strideSuffices_iff, ite_not, FileHeader.tableEntries,
    FileHeader.entries, List.map_map]
  rfl

/-- The tables are read one after the other, and the names last. -/
theorem ofContents_eq (file : ByteString) :
    ofContents file =
      (parseHeader file).bind fun header =>
        (readTable file header .programHeader).bind fun segments =>
          (readTable file header .sectionHeader).map fun descriptors =>
            let sections := descriptors.map SectionHeader.decode
            ⟨header, segments.map ProgramHeader.decode,
              nameSections (namesTable? file header sections) sections⟩ :=
  rfl

theorem sectionTableFault_of_readTable {file : ByteString} {header : FileHeader}
    {error : LoadError} (failed : readTable file header .sectionHeader = .error error) :
    SectionTableFault error := by
  rw [readTable_eq] at failed
  split at failed
  · split at failed
    · contradiction
    · obtain rfl := Except.error.inj failed
      exact .cut
  · obtain rfl := Except.error.inj failed
    exact .narrow _

/-- The inspection of a file whose segments are in order, with these section
descriptors. -/
def ofDescriptors (file : ByteString) (header : FileHeader) (descriptors : List (List UInt8)) :
    Inspection :=
  let sections := descriptors.map SectionHeader.decode
  ⟨header, ProgramHeader.listed file header header.phnum.toNat,
    nameSections (namesTable? file header sections) sections⟩

/-- A header that cannot be read is not inspected either, for the same reason. -/
theorem ofContents_of_readHeader_error {file : ByteString} {error : LoadError}
    (refused : readHeader file = .error error) : ofContents file = .error error := by
  rw [readHeader_eq_parseHeader] at refused
  cases parsed : parseHeader file with
  | error first =>
      simp only [parsed] at refused
      simp only [ofContents, parsed, bind, Except.bind, Except.error.inj refused]
  | ok header =>
      simp only [parsed] at refused
      by_cases stride : header.StrideSuffices .programHeader
      · rw [if_pos stride] at refused
        contradiction
      · rw [if_neg stride] at refused
        rw [ofContents_eq, parsed, Except.bind, readTable_eq, if_neg stride,
          ← Except.error.inj refused]
        rfl

/-- A file whose header is read is inspected if both tables lie in it. -/
theorem ofContents_of_readHeader {file : ByteString} {header : FileHeader}
    (read : readHeader file = .ok header) :
    ofContents file =
      if header.TableInside file .programHeader then
        (readTable file header .sectionHeader).map (ofDescriptors file header)
      else .error (.format (.truncated .programHeaderTable)) := by
  have stride := (readHeader_eq_ok_iff.mp read).2.2.2
  rw [ofContents_eq, parseHeader_of_readHeader read, Except.bind, readTable_eq, if_pos stride]
  by_cases inside : header.TableInside file .programHeader
  · rw [if_pos inside, if_pos inside, Except.bind, FileHeader.map_tableEntries]
    rfl
  · rw [if_neg inside, if_neg inside]
    rfl

/-- The segments that are listed to be loaded map the regions, except for empty ones. -/
theorem mapped_eq_filter_loadSegments (file : ByteString) (header : FileHeader)
    (descriptors : List (List UInt8)) :
    ProgramHeader.mapped file header header.phnum.toNat =
      (ofDescriptors file header descriptors).loadSegments.filter (·.memsz ≠ 0) := by
  simp only [loadSegments, ofDescriptors, List.filter_filter, ProgramHeader.mapped]
  refine List.filter_congr fun descriptor _ => ?_
  rw [Bool.eq_iff_iff, Bool.and_eq_true, decide_eq_true_iff, decide_eq_true_iff,
    decide_eq_true_iff]
  exact and_comm

end Inspection

namespace Machine

/-- An image without sections and one segment. -/
def bareImage : ByteString :=
  .executable 0x1000 [.load 84 0x1000 4 5] [1, 2, 3, 4]

set_option maxRecDepth 2000 in
theorem ofContents_cutImage :
    Inspection.ofContents cutImage =
      .ok ⟨.ofFile cutImage, [.load 116 0x1000 4 5, .load 120 0x3000 8 6], []⟩ :=
  rfl

/-- Loading and inspecting find the same image in a file.  What is wrong with the
header is wrong for both.  An image that is loaded is inspected with the segments that
were loaded, unless its section table is at fault; an image that is inspected is
loaded, unless a segment is of another type, has no place in memory, or is cut. -/
theorem loadImage_agrees_with_ofContents (machine : Machine) (source : ImageSource) :
    (∀ error, readHeader source.contents = .error error →
      Inspection.ofContents source.contents = .error error) ∧
    (∀ entry, (machine.loadImage source).answer = .ok entry →
      (∃ inspection, Inspection.ofContents source.contents = .ok inspection ∧
        inspection.Reports source.contents entry machine.memory
          (machine.loadImage source).state.memory) ∨
      ∃ error, Inspection.ofContents source.contents = .error error ∧
        Inspection.SectionTableFault error) ∧
    ∀ inspection error, Inspection.ofContents source.contents = .ok inspection →
      (machine.loadImage source).answer = .error error → Inspection.SegmentFault error := by
  refine ⟨?_, ?_, ?_⟩
  · intro error refused
    exact Inspection.ofContents_of_readHeader_error refused
  · intro entry loaded
    obtain ⟨header, read, rfl, walked⟩ := loadImage_eq_ok_iff.mp loaded
    have inside : header.TableInside source.contents .programHeader :=
      fun index index_lt => (Memory.entrySound_of_walk walked index index_lt).inside
    rw [Inspection.ofContents_of_readHeader read, if_pos inside]
    cases sections : Inspection.readTable source.contents header .sectionHeader with
    | error error => exact .inr ⟨error, rfl, Inspection.sectionTableFault_of_readTable sections⟩
    | ok descriptors =>
        refine .inl ⟨_, rfl, read, rfl, rfl, ?_⟩
        rw [← Inspection.mapped_eq_filter_loadSegments, loadImage_of_walk_ok read walked]
        exact Memory.regions_walk_perm walked
  · intro inspection error inspected failed
    cases read : readHeader source.contents with
    | error fault =>
        rw [Inspection.ofContents_of_readHeader_error read] at inspected
        contradiction
    | ok header =>
        obtain ⟨index, index_lt, interrupted⟩ :=
          Memory.interrupted_of_walk_eq_error (walk_eq_error_of_loadImage read failed)
        cases interrupted.fault with
        | cut outside =>
            have cut : ¬ header.TableInside source.contents .programHeader :=
              fun inside => outside (inside index index_lt)
            rw [Inspection.ofContents_of_readHeader read, if_neg cut] at inspected
            contradiction
        | unsupported inside unknown => exact .unsupported _
        | refused refusal inside maps refused => exact .refused refusal
        | incomplete inside maps missing => exact .incomplete

/-- An empty file, an image that is loaded, and one that is inspected but cut. -/
theorem loadImage_agrees_with_ofContents_samples :
    Inspection.ofContents .empty = .error (.format (.truncated .fileHeader)) ∧
      (∃ entry, (initial.loadImage (.memory bareImage)).answer = .ok entry ∧
        ((∃ inspection, Inspection.ofContents bareImage = .ok inspection ∧
          inspection.Reports bareImage entry initial.memory
            (initial.loadImage (.memory bareImage)).state.memory) ∨
        ∃ error, Inspection.ofContents bareImage = .error error ∧
          Inspection.SectionTableFault error)) ∧
      ∃ error, ((initial.jump 0x40).loadImage (.file cutImage)).answer = .error error ∧
        Inspection.SegmentFault error := by
  have refused : readHeader .empty = .error (.format (.truncated .fileHeader)) := rfl
  have loaded : (initial.loadImage (.memory bareImage)).answer = .ok 0x1000 := rfl
  exact ⟨(loadImage_agrees_with_ofContents initial (.memory .empty)).1 _ refused,
    ⟨_, loaded, (loadImage_agrees_with_ofContents initial (.memory bareImage)).2.1 _ loaded⟩,
    ⟨_, loadImage_cutImage, (loadImage_agrees_with_ofContents _ (.file cutImage)).2.2 _ _
      ofContents_cutImage loadImage_cutImage⟩⟩

end Machine

end RiscvImage
