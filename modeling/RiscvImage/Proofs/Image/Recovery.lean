import RiscvImage.Proofs.Image.Tiling
import RiscvImage.Proofs.Loading.Agreement

/-!
# Inspecting what was written

The image of an object tells all that loading needs and tools ask for: where each
section goes, how long it is, what it holds and what it is called.  Inspecting the image
finds the planned header and both descriptor tables again, and the names resolve although
the table of names stands behind contents of any length.

So nothing of this is lost in an image.  Two objects with the same image may consist of
different items, but their sections have the same bases, sizes and contents, and they
start at the same address.
-/

namespace RiscvImage

namespace Layout

/-- The section descriptors with the names that they refer to. -/
def namedSections (object : Object) (entrySymbol : String) : List NamedSection :=
  [⟨"", SectionHeader.null⟩,
    ⟨SectionKind.name .text, (textPlacement object).sectionHeader⟩,
    ⟨SectionKind.name .data, (dataPlacement object).sectionHeader⟩,
    ⟨namesSection, (planned object entrySymbol).namesHeader⟩]

end Layout

/-- The two descriptors of a section agree on where its contents are, and they are there:
the segment descriptor says what is loaded and where, the section descriptor what it is. -/
structure Section.Described (s : Section) (image : ByteString) (segment : ProgramHeader)
    (descriptor : SectionHeader) : Prop where
  segmentType : segment.segmentType = ProgramHeader.loadType
  vaddr : segment.vaddr = s.base
  paddr : segment.paddr = s.base
  filesz : segment.filesz = s.size
  memsz : segment.memsz = s.size
  addr : descriptor.addr = segment.vaddr
  offset : descriptor.offset = segment.offset
  size : descriptor.size = segment.filesz
  contents : image.slice? segment.offset.toNat (segment.offset.toNat + segment.filesz.toNat) =
    some s.contents

/-- An inspection recovers from an image all that was written into it. -/
structure Inspection.Recovers (inspection : Inspection) (image : ByteString) (object : Object)
    (entrySymbol : String) : Prop where
  entry : inspection.header.entry = (Layout.entryOf object entrySymbol).1
  segmentTable : inspection.header.phoff = 52 ∧ inspection.header.phnum = 2
  sectionTable : inspection.header.shoff = 116 ∧ inspection.header.shnum = 4 ∧
    inspection.header.shstrndx = 3
  named : inspection.sections.map NamedSection.name = ["", ".text", ".data", ".strtab"]
  /-- No name hides another one. -/
  found : ∀ index name, (inspection.sections.map NamedSection.name)[index]? = some name →
    inspection.findSection? name = some index
  sections : ∃ text data null textHeader dataHeader names,
    inspection.programHeaders = [text, data] ∧
    inspection.sections.map NamedSection.header = [null, textHeader, dataHeader, names] ∧
    text.flags = ProgramHeader.readFlag ||| ProgramHeader.executeFlag ∧
    data.flags = ProgramHeader.readFlag ||| ProgramHeader.writeFlag ∧
    object.text.Described image text textHeader ∧ object.data.Described image data dataHeader

namespace Section.Described

variable {first second : Section} {image : ByteString} {segment : ProgramHeader}
  {descriptor : SectionHeader}

/-- Sections that are described alike differ in their items at most. -/
theorem unique (firstDescribed : first.Described image segment descriptor)
    (secondDescribed : second.Described image segment descriptor) :
    first.base = second.base ∧ first.size = second.size ∧ first.contents = second.contents := by
  refine ⟨?base, ?size, ?contents⟩
  case base => exact firstDescribed.vaddr.symm.trans secondDescribed.vaddr
  case size => exact firstDescribed.memsz.symm.trans secondDescribed.memsz
  case contents =>
    exact Option.some.inj (firstDescribed.contents.symm.trans secondDescribed.contents)

end Section.Described

/-- What an inspection recovers from an image cannot come from different sections. -/
theorem Inspection.Recovers.unique {inspection : Inspection} {image : ByteString}
    {first second : Object} {firstSymbol secondSymbol : String}
    (firstRecovers : inspection.Recovers image first firstSymbol)
    (secondRecovers : inspection.Recovers image second secondSymbol) :
    (Layout.entryOf first firstSymbol).1 = (Layout.entryOf second secondSymbol).1 ∧
      ∀ kind, (first.get kind).base = (second.get kind).base ∧
        (first.get kind).size = (second.get kind).size ∧
        (first.get kind).contents = (second.get kind).contents := by
  refine ⟨firstRecovers.entry.symm.trans secondRecovers.entry, fun kind => ?_⟩
  obtain ⟨text, data, _, textHeader, dataHeader, _, segments, headers, -, -, isText, isData⟩ :=
    firstRecovers.sections
  obtain ⟨_, _, _, _, _, _, sameSegments, sameHeaders, -, -, isText', isData'⟩ :=
    secondRecovers.sections
  rw [segments] at sameSegments
  rw [headers] at sameHeaders
  simp only [List.cons.injEq, and_true] at sameSegments sameHeaders
  obtain ⟨rfl, rfl⟩ := sameSegments
  obtain ⟨-, rfl, rfl, -⟩ := sameHeaders
  cases kind with
  | text => exact isText.unique isText'
  | data => exact isData.unique isData'

/-- A placed section is described by its two descriptors. -/
theorem Placement.Holds.described {placement : Placement} {image : ByteString} {s : Section}
    (holds : placement.Holds image s) :
    s.Described image placement.programHeader placement.sectionHeader where
  segmentType := rfl
  vaddr := holds.address
  paddr := holds.address
  filesz := holds.size
  memsz := holds.size
  addr := rfl
  offset := rfl
  size := rfl
  contents := by
    have filesz : placement.programHeader.filesz = s.size := holds.size
    rw [filesz, ByteString.slice?_eq_some_iff, Nat.add_sub_cancel_left]
    exact ⟨⟨Nat.le_add_right _ _, holds.inside⟩, holds.contents.symm⟩

namespace Object

variable {object : Object}

/-- Each table of an image is read back. -/
theorem readTable_image (object : Object) (entrySymbol : String) (kind : DescriptorKind) :
    Inspection.readTable (object.image entrySymbol) (object.imageHeader entrySymbol) kind =
      .ok ((Layout.planned object entrySymbol).table kind) := by
  have stores := storesTable_image object entrySymbol kind
  rw [Inspection.readTable_eq, if_pos stores.strideSuffices, if_pos stores.tableInside,
    FileHeader.tableEntries, stores.entries_eq, List.map_map]
  simp only [Function.comp_def, ByteString.bytes_ofList, List.map_id']

/-- The names stand in the image where their own section descriptor says. -/
theorem sectionBytes_namesHeader (wellFormed : object.WellFormed) (whole : object.IsWhole)
    (fits : Layout.imageSize object < UInt32.size) (entrySymbol : String) :
    Inspection.sectionBytes? (object.image entrySymbol)
        (Layout.planned object entrySymbol).namesHeader =
      some Layout.nameTable.contents := by
  have exact := Layout.exact_planned wellFormed whole fits entrySymbol
  have size : (Layout.planned object entrySymbol).namesSize.toNat =
      Layout.nameTable.contents.length := rfl
  have found := exact.found
    ((Layout.planned object entrySymbol).namesOffset.toNat, Layout.nameTable.contents)
    (List.mem_append_right _ (List.mem_singleton_self _))
  have stop : (Layout.planned object entrySymbol).namesOffset.toNat +
      (Layout.planned object entrySymbol).namesSize.toNat ≤ (object.image entrySymbol).length := by
    apply Nat.le_of_eq
    rw [exact.namesOffset, exact.namesSize, length_image wellFormed whole, Layout.imageSize_eq]
  rw [Inspection.sectionBytes?, ByteString.slice?_eq_some_iff]
  refine ⟨⟨Nat.le_add_right _ _, stop⟩, ?_⟩
  rw [Nat.add_sub_cancel_left]
  exact found.symm.trans (congrArg _ size.symm)

/-- The sections of an image are found with their names. -/
theorem nameSections_image (wellFormed : object.WellFormed) (whole : object.IsWhole)
    (fits : Layout.imageSize object < UInt32.size) (entrySymbol : String) :
    Inspection.nameSections
        (Inspection.namesTable? (object.image entrySymbol) (object.imageHeader entrySymbol)
          (Layout.planned object entrySymbol).sectionHeaders)
        (Layout.planned object entrySymbol).sectionHeaders =
      Layout.namedSections object entrySymbol := by
  have table : Inspection.namesTable? (object.image entrySymbol) (object.imageHeader entrySymbol)
      (Layout.planned object entrySymbol).sectionHeaders = some Layout.nameTable.contents :=
    sectionBytes_namesHeader wellFormed whole fits entrySymbol
  have none : Inspection.nameAt Layout.nameTable.contents 0 = "" := by decide
  have text : Inspection.nameAt Layout.nameTable.contents 1 = SectionKind.name .text := by decide
  have data : Inspection.nameAt Layout.nameTable.contents 7 = SectionKind.name .data := by decide
  have names : Inspection.nameAt Layout.nameTable.contents 13 = Layout.namesSection := by decide
  rw [table, Layout.namedSections, ← none, ← text, ← data, ← names]
  rfl

/-- Inspecting the image of an object finds the planned descriptors. -/
theorem ofContents_image (wellFormed : object.WellFormed) (whole : object.IsWhole)
    (fits : Layout.imageSize object < UInt32.size) (entrySymbol : String) :
    Inspection.ofContents (object.image entrySymbol) =
      .ok ⟨object.imageHeader entrySymbol,
        [(Layout.textPlacement object).programHeader, (Layout.dataPlacement object).programHeader],
        Layout.namedSections object entrySymbol⟩ := by
  have inside := (storesTable_image object entrySymbol .programHeader).tableInside
  have count : (object.imageHeader entrySymbol).phnum.toNat = 2 := rfl
  have decoded : ((Layout.planned object entrySymbol).table .sectionHeader).map
      SectionHeader.decode = (Layout.planned object entrySymbol).sectionHeaders := by
    simp only [Layout.table, List.map_map, Function.comp_def, SectionHeader.decode_encode,
      List.map_id']
  rw [Inspection.ofContents_of_readHeader (readHeader_image wellFormed whole entrySymbol),
    if_pos inside, readTable_image, Except.map, Inspection.ofDescriptors]
  simp only [decoded, count, listed_image, nameSections_image wellFormed whole fits]

/-- The planned descriptors are all that was written. -/
theorem recovers_image (wellFormed : object.WellFormed) (whole : object.IsWhole)
    (fits : Layout.imageSize object < UInt32.size) (entrySymbol : String) :
    Inspection.Recovers ⟨object.imageHeader entrySymbol,
      [(Layout.textPlacement object).programHeader, (Layout.dataPlacement object).programHeader],
      Layout.namedSections object entrySymbol⟩ (object.image entrySymbol) object entrySymbol where
  entry := rfl
  segmentTable := ⟨rfl, rfl⟩
  sectionTable := ⟨rfl, rfl, rfl⟩
  named := rfl
  found index name named := by
    match index, named with
    | 0, rfl => rfl
    | 1, rfl => rfl
    | 2, rfl => rfl
    | 3, rfl => rfl
  sections := ⟨_, _, _, _, _, _, rfl, rfl, rfl, rfl,
    (holds_textPlacement wellFormed whole entrySymbol).described,
    (holds_dataPlacement wellFormed whole fits entrySymbol).described⟩

/-- Inspecting an image succeeds and recovers all that was written into it.  So objects
that have an image in common have the same entry address, and their sections agree in
base, size and contents. -/
theorem ofContents_encode {object : Object} (reachable : object.Reachable)
    (whole : object.IsWhole) {entrySymbol : String} {image : ByteString}
    (encoded : object.encode entrySymbol = .ok image) :
    (∃ inspection, Inspection.ofContents image = .ok inspection ∧
      inspection.Recovers image object entrySymbol) ∧
    ∀ other : Object, other.Reachable → other.IsWhole → ∀ otherSymbol,
      other.encode otherSymbol = .ok image →
        (Layout.entryOf object entrySymbol).1 = (Layout.entryOf other otherSymbol).1 ∧
        ∀ kind, (object.get kind).base = (other.get kind).base ∧
          (object.get kind).size = (other.get kind).size ∧
          (object.get kind).contents = (other.get kind).contents := by
  have recovered {source : Object} (reachable : source.Reachable) (whole : source.IsWhole)
      {symbol : String} (encoded : source.encode symbol = .ok image) :
      ∃ inspection, Inspection.ofContents image = .ok inspection ∧
        inspection.Recovers image source symbol := by
    obtain ⟨fits, rfl⟩ := (encode_eq_ok_iff reachable.wellFormed whole).mp encoded
    exact ⟨_, ofContents_image reachable.wellFormed whole fits symbol,
      recovers_image reachable.wellFormed whole fits symbol⟩
  obtain ⟨inspection, inspected, recovers⟩ := recovered reachable whole encoded
  refine ⟨⟨inspection, inspected, recovers⟩, ?_⟩
  intro other otherReachable otherWhole otherSymbol otherEncoded
  obtain ⟨found, again, otherRecovers⟩ := recovered otherReachable otherWhole otherEncoded
  obtain rfl := Except.ok.inj (inspected.symm.trans again)
  exact recovers.unique otherRecovers

/-- A program whose text is pushed in two pieces, and whose data is reserved. -/
def piecewiseOperations : List Operation :=
  [.edit .text (.pushBytes (.ofList [0x13, 0])), .edit .text (.pushBytes (.ofList [0, 0])),
    .defineLabelHere "_start" .text, .edit .text (.pushWord 0x73), .edit .data (.pushZero 3)]

/-- The same program with its text in one piece and its data written out. -/
def joinedOperations : List Operation :=
  [.edit .text (.pushBytes (.ofList [0x13, 0, 0, 0, 0x73, 0, 0, 0])), .defineLabel "main" 0x1004,
    .edit .data (.pushBytes (.ofList [0, 0, 0]))]

/-- Two programs with different items and different labels have the same image, from which
what they have in common is recovered. -/
theorem ofContents_encode_piecewise :
    let piecewise := (empty 0x1000 0x2000).run piecewiseOperations
    let joined := (empty 0x1000 0x2000).run joinedOperations
    piecewise.Reachable ∧ piecewise.IsWhole ∧ joined.Reachable ∧ joined.IsWhole ∧
      ∃ image, piecewise.encode "_start" = .ok image ∧ joined.encode "main" = .ok image ∧
        (∃ inspection, Inspection.ofContents image = .ok inspection ∧
          inspection.Recovers image piecewise "_start") ∧
        (Layout.entryOf piecewise "_start").1 = (Layout.entryOf joined "main").1 ∧
        piecewise.text.contents = joined.text.contents := by
  intro piecewise joined
  have reachable : piecewise.Reachable := ⟨0x1000, 0x2000, piecewiseOperations, rfl⟩
  have joinedReachable : joined.Reachable := ⟨0x1000, 0x2000, joinedOperations, rfl⟩
  have whole : piecewise.IsWhole := by
    refine (isWhole_empty 0x1000 0x2000).run ?_
    simp [piecewiseOperations, Operation.IsWhole, Section.Operation.IsWhole]
  have joinedWhole : joined.IsWhole := by
    refine (isWhole_empty 0x1000 0x2000).run ?_
    simp [joinedOperations, Operation.IsWhole, Section.Operation.IsWhole]
  have encoded : piecewise.encode "_start" = .ok (piecewise.image "_start") :=
    (encode_eq_ok_iff reachable.wellFormed whole).mpr ⟨by decide, rfl⟩
  have same : joined.image "main" = piecewise.image "_start" := by decide +kernel
  have joinedEncoded : joined.encode "main" = .ok (piecewise.image "_start") :=
    (encode_eq_ok_iff joinedReachable.wellFormed joinedWhole).mpr ⟨by decide, same⟩
  obtain ⟨recovered, unique⟩ := ofContents_encode reachable whole encoded
  obtain ⟨entry, sections⟩ := unique joined joinedReachable joinedWhole "main" joinedEncoded
  exact ⟨reachable, whole, joinedReachable, joinedWhole, _, encoded, joinedEncoded, recovered,
    entry, (sections .text).2.2⟩

end Object

end RiscvImage
