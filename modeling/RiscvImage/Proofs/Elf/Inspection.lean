import RiscvImage.Proofs.Loading.Agreement
import RiscvImage.Proofs.Text.Utf8

/-!
# What an inspection accepts and what it finds

A file is inspected if its header is complete and valid and each of its two tables lies in
it, however the tables overlap one another and the header.  What is wrong with any other
file is told by the first check that it fails.

The names of the sections are looked up in one section of the file.  If the header points
at no section of strings that lies in the file, all names are empty.  Otherwise a name goes
from its offset to the next zero byte, or to the end of that section if there is none.
-/

namespace RiscvImage

namespace FileHeader

variable (header : FileHeader) (file : ByteString) (kind : DescriptorKind)

/-- Why a table is turned down.  Where its entries are is only looked at if they do not
overlap. -/
inductive TableFault : LoadError → Prop
  | narrow : ¬ header.StrideSuffices kind →
    TableFault (.format (.entrySize kind (header.tableStride kind)))
  | cut : header.StrideSuffices kind → ¬ header.TableInside file kind →
    TableFault (.format (.truncated kind.table))

/-- A table in good order. -/
structure TableSound : Prop where
  spaced : header.StrideSuffices kind
  inside : header.TableInside file kind

theorem tableSound_or_tableFault :
    header.TableSound file kind ∨ ∃ error, header.TableFault file kind error := by
  by_cases spaced : header.StrideSuffices kind
  · by_cases inside : header.TableInside file kind
    · exact .inl ⟨spaced, inside⟩
    · exact .inr ⟨_, .cut spaced inside⟩
  · exact .inr ⟨_, .narrow spaced⟩

end FileHeader

namespace SectionHeader

/-- The section header at an index of the table, whatever stands there. -/
def atIndex (file : ByteString) (header : FileHeader) (index : Nat) : SectionHeader :=
  header.descriptorAt file .sectionHeader decode index

/-- The first `count` section headers. -/
def listed (file : ByteString) (header : FileHeader) (count : Nat) : List SectionHeader :=
  header.descriptors file .sectionHeader decode count

theorem getElem?_listed (file : ByteString) (header : FileHeader) (count index : Nat) :
    (listed file header count)[index]? =
      if index < count then some (atIndex file header index) else none :=
  FileHeader.getElem?_descriptors count index

end SectionHeader

namespace Inspection

/-- A file with a complete header that is that of an image. -/
structure HeaderSound (file : ByteString) : Prop where
  complete : FileHeader.size ≤ file.length
  valid : (FileHeader.ofFile file).validate = .ok ()

/-- A file whose header and tables are in good order. -/
structure Inspectable (file : ByteString) : Prop where
  header : HeaderSound file
  segments : (FileHeader.ofFile file).TableSound file .programHeader
  sections : (FileHeader.ofFile file).TableSound file .sectionHeader

/-- The first check that a file fails: each of them comes after those before it passed. -/
inductive FirstFault (file : ByteString) : LoadError → Prop
  | short : file.length < FileHeader.size → FirstFault file (.format (.truncated .fileHeader))
  | invalid {fault : HeaderFault} : FileHeader.size ≤ file.length →
    (FileHeader.ofFile file).validate = .error fault → FirstFault file (.ofHeaderFault fault)
  | segments {error : LoadError} : HeaderSound file →
    (FileHeader.ofFile file).TableFault file .programHeader error → FirstFault file error
  | sections {error : LoadError} : HeaderSound file →
    (FileHeader.ofFile file).TableSound file .programHeader →
    (FileHeader.ofFile file).TableFault file .sectionHeader error → FirstFault file error

/-- The section that the header points at for the names. -/
def namesSection (file : ByteString) (header : FileHeader) : SectionHeader :=
  .atIndex file header header.shstrndx.toNat

/-- That section exists, holds strings, and lies in the file. -/
def HasNames (file : ByteString) (header : FileHeader) : Prop :=
  header.shstrndx < header.shnum ∧
    (namesSection file header).sectionType = SectionHeader.stringTableType ∧
    (namesSection file header).offset.toNat + (namesSection file header).size.toNat ≤ file.length

instance (file : ByteString) (header : FileHeader) : Decidable (HasNames file header) :=
  inferInstanceAs (Decidable (_ ∧ _))

/-- The bytes of that section. -/
def namesRange (file : ByteString) (header : FileHeader) : ByteString :=
  file.window (namesSection file header).offset.toNat (namesSection file header).size.toNat

/-- The name that stands at an offset of a range of bytes.  Nothing but the range has a part
in it. -/
inductive IsNameIn (range : ByteString) (offset : Nat) : String → Prop
  | closed {front text rest : List UInt8} : range.bytes = front ++ text ++ 0 :: rest →
    front.length = offset → 0 ∉ text → IsNameIn range offset (Utf8.decodeLossy text)
  | unclosed {front text : List UInt8} : range.bytes = front ++ text →
    front.length = offset → 0 ∉ text → IsNameIn range offset (Utf8.decodeLossy text)
  | beyond : range.length < offset → IsNameIn range offset ""

/-- An inspection holds what stands in the file: one descriptor for each entry of the tables,
and the names of the sections where there are names. -/
structure Describes (inspection : Inspection) (file : ByteString) : Prop where
  header : inspection.header = .ofFile file
  segments : inspection.programHeaders =
    ProgramHeader.listed file inspection.header inspection.header.phnum.toNat
  sections : inspection.sections.map (·.header) =
    SectionHeader.listed file inspection.header inspection.header.shnum.toNat
  named : HasNames file inspection.header → ∀ found ∈ inspection.sections,
    IsNameIn (namesRange file inspection.header) found.header.name.toNat found.name
  unnamed : ¬ HasNames file inspection.header → ∀ found ∈ inspection.sections, found.name = ""

/-- Sections with the same name offset have the same name in both inspections. -/
def NamesMatch (first second : Inspection) : Prop :=
  ∀ this ∈ first.sections, ∀ that ∈ second.sections,
    this.header.name = that.header.name → this.name = that.name

section Acceptance

variable {file : ByteString} {header : FileHeader} {kind : DescriptorKind} {error : LoadError}

theorem readTable_of_tableSound (sound : header.TableSound file kind) :
    readTable file header kind = .ok (header.tableEntries file kind) := by
  rw [readTable_eq, if_pos sound.spaced, if_pos sound.inside]

theorem readTable_of_tableFault (fault : header.TableFault file kind error) :
    readTable file header kind = .error error := by
  rw [readTable_eq]
  cases fault with
  | narrow overlapping => rw [if_neg overlapping]
  | cut spaced outside => rw [if_pos spaced, if_neg outside]

theorem parseHeader_of_headerSound (sound : HeaderSound file) :
    parseHeader file = .ok (.ofFile file) := by
  rw [parseHeader_eq, if_pos sound.complete, sound.valid]
  rfl

/-- Past the program headers, only the section table is left to be read. -/
theorem ofContents_of_segmentsSound (sound : HeaderSound file)
    (segments : (FileHeader.ofFile file).TableSound file .programHeader) :
    ofContents file =
      (readTable file (.ofFile file) .sectionHeader).map (ofDescriptors file (.ofFile file)) := by
  have read : readHeader file = .ok (.ofFile file) :=
    readHeader_eq_ok_iff.mpr ⟨sound.complete, rfl, sound.valid, segments.spaced⟩
  rw [ofContents_of_readHeader read, if_pos segments.inside]

theorem map_decode_tableEntries (file : ByteString) (header : FileHeader) :
    (header.tableEntries file .sectionHeader).map SectionHeader.decode =
      SectionHeader.listed file header header.shnum.toNat :=
  FileHeader.map_tableEntries

/-- The inspection that a file with both tables in order has. -/
def ofTables (file : ByteString) : Inspection :=
  ofDescriptors file (.ofFile file) ((FileHeader.ofFile file).tableEntries file .sectionHeader)

theorem ofContents_of_inspectable (inspectable : Inspectable file) :
    ofContents file = .ok (ofTables file) := by
  rw [ofContents_of_segmentsSound inspectable.header inspectable.segments,
    readTable_of_tableSound inspectable.sections]
  rfl

theorem ofContents_of_firstFault (fault : FirstFault file error) :
    ofContents file = .error error := by
  cases fault with
  | short short =>
      rw [ofContents_eq, parseHeader_eq, if_neg (Nat.not_le_of_lt short)]
      rfl
  | invalid complete invalid =>
      rw [ofContents_eq, parseHeader_eq, if_pos complete, invalid]
      rfl
  | segments sound fault =>
      rw [ofContents_eq, parseHeader_of_headerSound sound, Except.bind,
        readTable_of_tableFault fault]
      rfl
  | sections sound segments fault =>
      rw [ofContents_of_segmentsSound sound segments, readTable_of_tableFault fault]
      rfl

/-- The checks leave nothing open. -/
theorem inspectable_or_firstFault (file : ByteString) :
    Inspectable file ∨ ∃ error, FirstFault file error := by
  by_cases complete : FileHeader.size ≤ file.length
  · cases valid : (FileHeader.ofFile file).validate with
    | error fault => exact .inr ⟨_, .invalid complete valid⟩
    | ok =>
        have sound : HeaderSound file := ⟨complete, valid⟩
        rcases (FileHeader.ofFile file).tableSound_or_tableFault file .programHeader with
          segments | ⟨error, fault⟩
        · rcases (FileHeader.ofFile file).tableSound_or_tableFault file .sectionHeader with
            sections | ⟨error, fault⟩
          · exact .inl ⟨sound, segments, sections⟩
          · exact .inr ⟨error, .sections sound segments fault⟩
        · exact .inr ⟨error, .segments sound fault⟩
  · exact .inr ⟨_, .short (Nat.lt_of_not_le complete)⟩

/-- A file that is inspected is one whose tables are in order, and nothing else is found. -/
theorem ofContents_eq_ok_iff {inspection : Inspection} :
    ofContents file = .ok inspection ↔
      Inspectable file ∧ inspection = ofTables file := by
  constructor
  · intro inspected
    rcases inspectable_or_firstFault file with inspectable | ⟨error, fault⟩
    · rw [ofContents_of_inspectable inspectable] at inspected
      exact ⟨inspectable, (Except.ok.inj inspected).symm⟩
    · rw [ofContents_of_firstFault fault] at inspected
      contradiction
  · rintro ⟨inspectable, rfl⟩
    exact ofContents_of_inspectable inspectable

theorem ofContents_eq_error_iff : ofContents file = .error error ↔ FirstFault file error := by
  constructor
  · intro refused
    rcases inspectable_or_firstFault file with inspectable | ⟨first, fault⟩
    · rw [ofContents_of_inspectable inspectable] at refused
      contradiction
    · rw [ofContents_of_firstFault fault] at refused
      rwa [← Except.error.inj refused]
  · exact ofContents_of_firstFault

end Acceptance

section Names

variable {file : ByteString} {header : FileHeader} {range : ByteString} {offset : Nat}
  {name : String}

/-- A name is found where it stands. -/
theorem IsNameIn.eq_nameAt (stands : IsNameIn range offset name) :
    name = nameAt range offset := by
  rw [nameAt, ByteString.bytes_untilZero, ByteString.bytes_drop]
  cases stands with
  | closed bytes starts nonzero =>
      rw [bytes, List.append_assoc, List.drop_left' starts,
        Utf8.takeWhile_append_of_zero_not_mem nonzero]
      exact congrArg Utf8.decodeLossy (List.append_nil _).symm
  | unclosed bytes starts nonzero =>
      have all := Utf8.takeWhile_append_of_zero_not_mem nonzero []
      rw [List.append_nil] at all
      rw [bytes, List.drop_left' starts, all]
      exact congrArg Utf8.decodeLossy (List.append_nil _).symm
  | beyond outside =>
      rw [List.drop_of_length_le (by rw [ByteString.length_bytes]; exact Nat.le_of_lt outside)]
      rfl

/-- Some name stands at every offset. -/
theorem exists_isNameIn (range : ByteString) (offset : Nat) :
    ∃ name, IsNameIn range offset name := by
  rcases Nat.lt_or_ge range.length offset with outside | inside
  · exact ⟨_, .beyond outside⟩
  · have starts : (range.bytes.take offset).length = offset := by
      rw [List.length_take_of_le (by rwa [ByteString.length_bytes])]
    by_cases zero : 0 ∈ range.bytes.drop offset
    · obtain ⟨text, rest, parts, nonzero⟩ := List.eq_append_cons_of_mem zero
      have bytes : range.bytes = range.bytes.take offset ++ text ++ 0 :: rest := by
        rw [List.append_assoc, ← parts, List.take_append_drop]
      exact ⟨_, .closed bytes starts nonzero⟩
    · exact ⟨_, .unclosed (List.take_append_drop offset range.bytes).symm starts zero⟩

theorem isNameIn_nameAt (range : ByteString) (offset : Nat) :
    IsNameIn range offset (nameAt range offset) := by
  obtain ⟨name, stands⟩ := exists_isNameIn range offset
  rwa [← stands.eq_nameAt]

/-- No two names stand at the same offset. -/
theorem IsNameIn.unique {other : String} (stands : IsNameIn range offset name)
    (stands' : IsNameIn range offset other) : name = other :=
  stands.eq_nameAt.trans stands'.eq_nameAt.symm

/-- The names are looked up in that section. -/
theorem namesTable?_listed_eq_some_iff :
    namesTable? file header (SectionHeader.listed file header header.shnum.toNat) = some range ↔
      HasNames file header ∧ range = namesRange file header := by
  have bytes (descriptor : SectionHeader) : sectionBytes? file descriptor = some range ↔
      descriptor.offset.toNat + descriptor.size.toNat ≤ file.length ∧
        range = file.window descriptor.offset.toNat descriptor.size.toNat := by
    rw [sectionBytes?, ByteString.slice?_eq_some_iff, Nat.add_sub_cancel_left]
    simp only [Nat.le_add_right, true_and]
  simp only [namesTable?, Option.bind_eq_some_iff, Option.filter_eq_some_iff,
    SectionHeader.getElem?_listed, Option.ite_none_right_eq_some, Option.some.injEq,
    decide_eq_true_iff, bytes, HasNames, UInt16.lt_iff_toNat_lt]
  constructor
  · rintro ⟨_, ⟨⟨pointed, rfl⟩, strings⟩, inside, found⟩
    exact ⟨⟨pointed, strings, inside⟩, found⟩
  · rintro ⟨⟨pointed, strings, inside⟩, found⟩
    exact ⟨_, ⟨⟨pointed, rfl⟩, strings⟩, inside, found⟩

end Names

/-- What is found in a file describes it. -/
theorem describes_ofTables (file : ByteString) :
    (ofTables file).Describes file where
  header := rfl
  segments := rfl
  sections := by
    simp only [ofTables, ofDescriptors, map_decode_tableEntries, nameSections, List.map_map]
    exact List.map_id _
  named := by
    intro names found member
    have table := namesTable?_listed_eq_some_iff.mpr ⟨names, rfl⟩
    simp only [ofTables, ofDescriptors, map_decode_tableEntries] at table member
    rw [table, nameSections, List.mem_map] at member
    obtain ⟨header, -, rfl⟩ := member
    exact isNameIn_nameAt _ _
  unnamed := by
    intro unnamed found member
    have table : namesTable? file (.ofFile file) (SectionHeader.listed file (.ofFile file)
        (FileHeader.ofFile file).shnum.toNat) = none := by
      apply Option.eq_none_iff_forall_ne_some.mpr
      intro range found
      exact unnamed (namesTable?_listed_eq_some_iff.mp found).1
    simp only [ofTables, ofDescriptors, map_decode_tableEntries] at member
    rw [table, nameSections, List.mem_map] at member
    obtain ⟨header, -, rfl⟩ := member
    rfl

/-- Names are the same wherever the ranges that they are looked up in are. -/
theorem Describes.namesMatch {file other : ByteString} {first second : Inspection}
    (describes : first.Describes file) (describes' : second.Describes other)
    (names : HasNames file first.header) (names' : HasNames other second.header)
    (same : namesRange file first.header = namesRange other second.header) :
    first.NamesMatch second := by
  intro this member that member' offset
  have stands := describes.named names this member
  have stands' := describes'.named names' that member'
  rw [← same, ← offset] at stands'
  exact stands.unique stands'

/-- A file is inspected exactly if its header is complete and valid and both tables lie in
it, and otherwise the first check that fails is the answer.  The inspection holds one
descriptor for each entry and the names of the sections, for which nothing is read but the
section that holds them. -/
theorem ofContents_accepts_and_describes (file : ByteString) :
    ((∃ inspection, ofContents file = .ok inspection) ↔ Inspectable file) ∧
    (∀ error, ofContents file = .error error ↔ FirstFault file error) ∧
    ∀ inspection, ofContents file = .ok inspection → inspection.Describes file ∧
      ∀ other second, ofContents other = .ok second →
        HasNames file inspection.header → HasNames other second.header →
        namesRange file inspection.header = namesRange other second.header →
        inspection.NamesMatch second := by
  have describes {file : ByteString} {inspection : Inspection}
      (inspected : ofContents file = .ok inspection) : inspection.Describes file := by
    obtain ⟨-, rfl⟩ := ofContents_eq_ok_iff.mp inspected
    exact describes_ofTables file
  refine ⟨⟨?accepted, ?accepts⟩, ?refused, ?described⟩
  case accepted =>
    rintro ⟨inspection, inspected⟩
    exact (ofContents_eq_ok_iff.mp inspected).1
  case accepts =>
    intro inspectable
    exact ⟨_, ofContents_of_inspectable inspectable⟩
  case refused => exact fun error => ofContents_eq_error_iff
  case described =>
    intro inspection inspected
    refine ⟨describes inspected, ?_⟩
    intro other second inspected' names names' same
    exact (describes inspected).namesMatch (describes inspected') names names' same

/-- An image whose program header is part of the file header.  Its first section has a name
that is not closed and ends in a broken character, the second one a name behind the range of
the names.  More bytes follow. -/
def overlappingImage (behind : List UInt8) : ByteString :=
  let header := { FileHeader.executable 0 0 1 52 2 with shstrndx := 1 }
  let first := { SectionHeader.null with name := 1 }
  let second : SectionHeader :=
    { SectionHeader.null with
      name := 4, sectionType := SectionHeader.stringTableType, offset := 132, size := 3 }
  .ofList (header.encode ++ first.encode ++ second.encode ++ [0x61, 0x62, 0xff] ++ behind)

/-- The inspection of the overlapping image. -/
def overlappingInspection (behind : List UInt8) : Inspection :=
  ofTables (overlappingImage behind)

set_option maxRecDepth 4000 in
/-- The image with a byte behind its names, the one without it, and one that is cut. -/
theorem ofContents_accepts_and_describes_overlappingImage :
    ofContents (overlappingImage [0x63]) = .ok (overlappingInspection [0x63]) ∧
      (overlappingInspection [0x63]).sections.map (·.name) = ["b\ufffd", ""] ∧
      (overlappingInspection [0x63]).Describes (overlappingImage [0x63]) ∧
      (overlappingInspection [0x63]).NamesMatch (overlappingInspection []) ∧
      ofContents ((overlappingImage []).take 131) =
        .error (.format (.truncated .sectionHeaderTable)) := by
  have inspected : ofContents (overlappingImage [0x63]) = .ok (overlappingInspection [0x63]) := rfl
  have shorter : ofContents (overlappingImage []) = .ok (overlappingInspection []) := rfl
  have same : namesRange (overlappingImage [0x63]) (overlappingInspection [0x63]).header =
      namesRange (overlappingImage []) (overlappingInspection []).header :=
    ByteString.ext (by decide)
  obtain ⟨describes, matching⟩ :=
    (ofContents_accepts_and_describes (overlappingImage [0x63])).2.2 _ inspected
  refine ⟨inspected, by decide, describes,
    matching _ _ shorter (by decide) (by decide) same, ?cut⟩
  case cut =>
    apply ((ofContents_accepts_and_describes ((overlappingImage []).take 131)).2.1 _).mpr
    exact .sections ⟨by decide, rfl⟩ ⟨by decide, by decide⟩ (.cut (by decide) (by decide))

end Inspection

end RiscvImage
