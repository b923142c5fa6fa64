import RiscvImage.Proofs.ByteString.Windows
import RiscvImage.Proofs.Elf.Codec
import RiscvImage.Proofs.Elf.Table
import RiscvImage.Proofs.Image.Encoding

/-!
# What stands where in an image

An image is taken apart again by the offsets that its layout tells: the header stands
at its beginning, the tables of segment and section descriptors follow it without gaps,
and the contents of each section stand where its descriptor says.
-/

namespace RiscvImage

/-- The region that a section fills when it is loaded. -/
def Section.region (s : Section) : Region :=
  ⟨s.base, s.contents⟩

/-- A section stands in a file where its placement says. -/
structure Placement.Holds (placement : Placement) (file : ByteString) (s : Section) : Prop where
  address : placement.address = s.base
  size : placement.size = s.size
  contents : file.window placement.offset.toNat s.size.toNat = s.contents
  inside : placement.offset.toNat + s.size.toNat ≤ file.length

theorem Placement.payloadSize_programHeader (placement : Placement) :
    placement.programHeader.payloadSize = placement.size.toNat :=
  Nat.min_self _

namespace Placement.Holds

variable {placement : Placement} {file : ByteString} {s : Section}

theorem mapsRegion_iff (holds : placement.Holds file s) :
    placement.programHeader.MapsRegion ↔ s.size ≠ 0 := by
  have size : placement.programHeader.memsz = s.size := holds.size
  rw [ProgramHeader.MapsRegion, size]
  exact and_iff_right rfl

theorem payloadInside (holds : placement.Holds file s) :
    placement.programHeader.PayloadInside file := by
  right
  rw [placement.payloadSize_programHeader, holds.size]
  exact holds.inside

/-- The segment of a placed section fills the region of the section. -/
theorem region_programHeader (holds : placement.Holds file s)
    (length : s.contents.length = s.size.toNat) :
    placement.programHeader.region file = s.region := by
  have memsz : placement.programHeader.memsz = s.size := holds.size
  have vaddr : placement.programHeader.vaddr = s.base := holds.address
  have offset : placement.programHeader.offset = placement.offset := rfl
  rw [ProgramHeader.region, placement.payloadSize_programHeader, holds.size, memsz, vaddr, offset,
    holds.contents, ← length, ByteString.padded_length, Section.region]

end Placement.Holds

namespace Layout

/-- The section descriptors of an image, in file order. -/
def sectionHeaders (layout : Layout) : List SectionHeader :=
  SectionHeader.null :: layout.placements.map Placement.sectionHeader ++ [layout.namesHeader]

/-- The encoded descriptors of a kind, in file order. -/
def table (layout : Layout) : DescriptorKind → List (List UInt8)
  | .programHeader => layout.placements.map (·.programHeader.encode)
  | .sectionHeader => layout.sectionHeaders.map SectionHeader.encode

/-- The section descriptors follow the header and the segment descriptors. -/
theorem headerBlock_eq (layout : Layout) :
    layout.headerBlock =
      layout.fileHeader.encode ++ (layout.table .programHeader).flatten ++
        (layout.table .sectionHeader).flatten := by
  simp only [headerBlock, table, sectionHeaders, List.map_append, List.map_cons, List.map_nil,
    List.map_map, List.flatten_append, List.flatten_cons, List.flatten_nil, List.append_nil,
    List.append_assoc]
  rfl

theorem length_of_mem_table (layout : Layout) (kind : DescriptorKind) :
    ∀ part ∈ (layout.table kind).map ByteString.ofList, part.length = kind.size := by
  intro part member
  obtain ⟨bytes, listed, rfl⟩ := List.mem_map.mp member
  rw [ByteString.length_ofList]
  cases kind with
  | programHeader =>
      obtain ⟨placement, -, rfl⟩ := List.mem_map.mp listed
      exact ProgramHeader.length_encode _
  | sectionHeader =>
      obtain ⟨header, -, rfl⟩ := List.mem_map.mp listed
      exact SectionHeader.length_encode _

end Layout

namespace Object

variable {object : Object}

/-- The file header of the image of an object. -/
def imageHeader (object : Object) (entrySymbol : String) : FileHeader :=
  (Layout.planned object entrySymbol).fileHeader

theorem length_image (wellFormed : object.WellFormed) (whole : object.IsWhole)
    (entrySymbol : String) : (object.image entrySymbol).length = Layout.imageSize object := by
  rw [image, ByteString.length_append, ByteString.length_append, length_contents wellFormed whole,
    ByteString.length_ofList, Layout.length_headerBlock, Layout.imageSize, StringTable.size]
  omega

theorem bytes_window_image {offset count : Nat}
    (inside : offset + count ≤ Layout.headerBlockSize) (entrySymbol : String) :
    ((object.image entrySymbol).window offset count).bytes =
      ((Layout.planned object entrySymbol).headerBlock.drop offset).take count := by
  have length := Layout.length_headerBlock object entrySymbol
  rw [image, ByteString.window_append_left (by rwa [ByteString.length_ofList, length]),
    ByteString.bytes_window, ByteString.bytes_ofList]

/-- The header of an image is the planned one. -/
theorem ofFile_image (object : Object) (entrySymbol : String) :
    FileHeader.ofFile (object.image entrySymbol) = object.imageHeader entrySymbol := by
  have front : ((Layout.planned object entrySymbol).headerBlock.drop 0).take FileHeader.size =
      (object.imageHeader entrySymbol).encode := by
    rw [List.drop_zero, Layout.headerBlock]
    simp only [List.append_assoc]
    exact List.take_left' (FileHeader.length_encode _)
  rw [FileHeader.ofFile, bytes_window_image (by decide), front, FileHeader.decode_encode]

theorem readHeader_image (wellFormed : object.WellFormed) (whole : object.IsWhole)
    (entrySymbol : String) :
    readHeader (object.image entrySymbol) = .ok (object.imageHeader entrySymbol) := by
  have long : FileHeader.size ≤ (object.image entrySymbol).length := by
    have block : FileHeader.size ≤ Layout.headerBlockSize := by decide
    rw [length_image wellFormed whole, Layout.imageSize]
    omega
  have stride : DescriptorKind.programHeader.size ≤
      (object.imageHeader entrySymbol).phentsize.toNat := Nat.le_refl 32
  exact readHeader_eq_ok_iff.mpr ⟨long, (ofFile_image object entrySymbol).symm, rfl, .inr stride⟩

/-- The tables follow the file header, and everything else follows the tables. -/
theorem image_eq_tables (object : Object) (entrySymbol : String) :
    object.image entrySymbol =
      .ofList (object.imageHeader entrySymbol).encode ++
        .concat (((Layout.planned object entrySymbol).table .programHeader).map .ofList) ++
        .concat (((Layout.planned object entrySymbol).table .sectionHeader).map .ofList) ++
        (object.text.contents ++ object.data.contents ++ Layout.nameTable.contents) := by
  ext1
  simp only [image, Layout.headerBlock_eq, ByteString.bytes_append, ByteString.bytes_ofList,
    ByteString.bytes_concat, List.flatMap_map, List.flatMap_id']
  rfl

/-- Both tables of an image are stored in it without gaps. -/
theorem storesTable_image (object : Object) (entrySymbol : String) (kind : DescriptorKind) :
    (object.imageHeader entrySymbol).StoresTable (object.image entrySymbol) kind
      (((Layout.planned object entrySymbol).table kind).map .ofList) where
  stride := by cases kind <;> rfl
  count := by cases kind <;> rfl
  sizes := Layout.length_of_mem_table _ kind
  stored := by
    intro _
    have tables := image_eq_tables object entrySymbol
    have header : (ByteString.ofList (object.imageHeader entrySymbol).encode).length =
        FileHeader.size := (ByteString.length_ofList _).trans (FileHeader.length_encode _)
    cases kind with
    | programHeader => exact ⟨_, _, header, tables.trans (ByteString.append_assoc _ _ _)⟩
    | sectionHeader =>
        refine ⟨_, _, ?_, tables⟩
        rw [ByteString.length_append, header,
          ByteString.length_concat_of_forall (Layout.length_of_mem_table _ .programHeader)]
        rfl

/-- The segment descriptors of an image are those of its sections. -/
theorem atIndex_image (object : Object) (entrySymbol : String) {index : Nat}
    (index_lt : index < (Layout.planned object entrySymbol).placements.length) :
    ProgramHeader.atIndex (object.image entrySymbol) (object.imageHeader entrySymbol) index =
      ((Layout.planned object entrySymbol).placements[index]).programHeader := by
  have stored := (storesTable_image object entrySymbol .programHeader).entryAt_eq
    (by simpa only [Layout.table, List.length_map] using index_lt)
  rw [ProgramHeader.atIndex, FileHeader.descriptorAt, stored, List.getElem_map,
    ByteString.bytes_ofList]
  simp only [Layout.table, List.getElem_map, ProgramHeader.decode_encode]

theorem atIndex_image_zero (object : Object) (entrySymbol : String) :
    ProgramHeader.atIndex (object.image entrySymbol) (object.imageHeader entrySymbol) 0 =
      (Layout.textPlacement object).programHeader :=
  atIndex_image object entrySymbol Nat.zero_lt_two

theorem atIndex_image_one (object : Object) (entrySymbol : String) :
    ProgramHeader.atIndex (object.image entrySymbol) (object.imageHeader entrySymbol) 1 =
      (Layout.dataPlacement object).programHeader :=
  atIndex_image object entrySymbol Nat.one_lt_two

theorem listed_image (object : Object) (entrySymbol : String) :
    ProgramHeader.listed (object.image entrySymbol) (object.imageHeader entrySymbol) 2 =
      [(Layout.textPlacement object).programHeader,
        (Layout.dataPlacement object).programHeader] := by
  rw [ProgramHeader.listed_succ, ProgramHeader.listed_succ, atIndex_image_zero, atIndex_image_one]
  rfl

/-- The text section stands in the image where it is placed. -/
theorem holds_textPlacement (wellFormed : object.WellFormed) (whole : object.IsWhole)
    (entrySymbol : String) :
    (Layout.textPlacement object).Holds (object.image entrySymbol) object.text where
  address := rfl
  size := rfl
  contents := by
    have front : (ByteString.ofList (Layout.planned object entrySymbol).headerBlock).length =
        (Layout.textPlacement object).offset.toNat :=
      (ByteString.length_ofList _).trans (Layout.length_headerBlock object entrySymbol)
    have parts : object.image entrySymbol =
        .ofList (Layout.planned object entrySymbol).headerBlock ++ object.text.contents ++
          (object.data.contents ++ Layout.nameTable.contents) := by
      simp only [image, ByteString.append_assoc]
    rw [parts]
    exact ByteString.window_middle front
      ((wellFormed.sections .text).length_contents (whole .text))
  inside := by
    rw [length_image wellFormed whole, Layout.imageSize]
    change Layout.headerBlockSize + _ ≤ _
    omega

/-- The data section stands in the image where it is placed. -/
theorem holds_dataPlacement (wellFormed : object.WellFormed) (whole : object.IsWhole)
    (fits : Layout.imageSize object < UInt32.size) (entrySymbol : String) :
    (Layout.dataPlacement object).Holds (object.image entrySymbol) object.data where
  address := rfl
  size := rfl
  contents := by
    have front : (ByteString.ofList (Layout.planned object entrySymbol).headerBlock ++
        object.text.contents).length = (Layout.dataPlacement object).offset.toNat := by
      rw [ByteString.length_append, ByteString.length_ofList, Layout.length_headerBlock,
        Layout.toNat_dataOffset fits]
      exact congrArg _ ((wellFormed.sections .text).length_contents (whole .text))
    have parts : object.image entrySymbol =
        .ofList (Layout.planned object entrySymbol).headerBlock ++ object.text.contents ++
          object.data.contents ++ Layout.nameTable.contents := by
      simp only [image, ByteString.append_assoc]
    rw [parts]
    exact ByteString.window_middle front
      ((wellFormed.sections .data).length_contents (whole .data))
  inside := by
    rw [length_image wellFormed whole, Layout.toNat_dataOffset fits, Layout.imageSize]
    omega

/-- The regions of an image are those of the sections that are not empty. -/
theorem regions_image (wellFormed : object.WellFormed) (whole : object.IsWhole)
    (fits : Layout.imageSize object < UInt32.size) (entrySymbol : String) :
    (ProgramHeader.mapped (object.image entrySymbol) (object.imageHeader entrySymbol) 2).map
        (·.region (object.image entrySymbol)) =
      (object.sections.filter (·.size ≠ 0)).map Section.region := by
  have text := holds_textPlacement wellFormed whole entrySymbol
  have data := holds_dataPlacement wellFormed whole fits entrySymbol
  have textRegion := text.region_programHeader
    ((wellFormed.sections .text).length_contents (whole .text))
  have dataRegion := data.region_programHeader
    ((wellFormed.sections .data).length_contents (whole .data))
  have sections : object.sections = [object.text, object.data] := rfl
  rw [ProgramHeader.mapped, listed_image, sections]
  simp only [List.filter_cons, List.filter_nil, text.mapsRegion_iff, data.mapsRegion_iff]
  by_cases noText : object.text.size = 0 <;> by_cases noData : object.data.size = 0 <;>
    simp [noText, noData, textRegion, dataRegion]

theorem sum_length_regions (wellFormed : object.WellFormed) (whole : object.IsWhole) :
    (((object.sections.filter (·.size ≠ 0)).map Section.region).map Region.length).sum =
      object.text.size.toNat + object.data.size.toNat := by
  have text : object.text.region.length = object.text.size.toNat :=
    (wellFormed.sections .text).length_contents (whole .text)
  have data : object.data.region.length = object.data.size.toNat :=
    (wellFormed.sections .data).length_contents (whole .data)
  have sections : object.sections = [object.text, object.data] := rfl
  rw [sections]
  by_cases noText : object.text.size = 0 <;> by_cases noData : object.data.size = 0 <;>
    simp [noText, noData, text, data]

end Object

end RiscvImage
