import RiscvImage.Proofs.Image.Emission

/-!
# Encoding objects

The plan of an image depends on the sizes of the sections alone: it exists exactly if
the whole image can be addressed with file offsets.  An image that is planned is one
write of its parts, the header block, the contents of both sections and the names.
-/

namespace RiscvImage

namespace Layout

/-- The table after names have been added to an empty one. -/
def tableOf (names : List String) : StringTable :=
  names.foldl (fun table name => (table.add name).state) .empty

/-- The table of the names of all sections. -/
def nameTable : StringTable :=
  tableOf [SectionKind.name .text, SectionKind.name .data, namesSection]

theorem contents_nameTable :
    nameTable.contents = .ofList (Utf8.encode "\x00.text\x00.data\x00.strtab\x00") := by
  decide

/-- The number of bytes of an image. -/
def imageSize (object : Object) : Nat :=
  headerBlockSize + object.text.size.toNat + object.data.size.toNat + nameTable.size

/-- Text follows the header block. -/
def textPlacement (object : Object) : Placement :=
  ⟨.text, 1, object.text.base, .ofNat headerBlockSize, object.text.size⟩

/-- Data follows text. -/
def dataPlacement (object : Object) : Placement :=
  ⟨.data, 7, object.data.base, .ofNat headerBlockSize + object.text.size, object.data.size⟩

/-- The layout of an image in which text, data and names follow the header block. -/
def planned (object : Object) (entrySymbol : String) : Layout where
  entry := (entryOf object entrySymbol).1
  entrySource := (entryOf object entrySymbol).2
  placements := [textPlacement object, dataPlacement object]
  namesName := 13
  namesOffset := .ofNat headerBlockSize + object.text.size + object.data.size
  namesSize := .ofNat nameTable.size
  fileSize := .ofNat headerBlockSize + object.text.size + object.data.size + .ofNat nameTable.size

theorem toNat_add_of_fits {offset size : UInt32}
    (fits : offset.toNat + size.toNat < UInt32.size) :
    (offset + size).toNat = offset.toNat + size.toNat :=
  (UInt32.toNat_add _ _).trans (Nat.mod_eq_of_lt fits)

theorem advance_of_fits {offset size : UInt32} (fits : offset.toNat + size.toNat < UInt32.size) :
    advance offset size = .ok (offset + size) :=
  if_pos fits

theorem advance_of_not_fits {offset size : UInt32}
    (tooLong : ¬ offset.toNat + size.toNat < UInt32.size) :
    advance offset size = .error .tooLarge :=
  if_neg tooLong

/-- An image is planned unless it is too large for file offsets. -/
theorem plan_eq {object : Object} (kinds : ∀ kind, (object.get kind).kind = kind)
    (entrySymbol : String) :
    plan object entrySymbol =
      if imageSize object < UInt32.size then .ok (planned object entrySymbol, nameTable)
      else .error .tooLarge := by
  have sections : object.sections = [object.text, object.data] := rfl
  have text : object.text.kind = .text := kinds .text
  have data : object.data.kind = .data := kinds .data
  have addText : StringTable.empty.add (SectionKind.name .text) =
      ⟨.ok 1, tableOf [SectionKind.name .text]⟩ := rfl
  have addData : (tableOf [SectionKind.name .text]).add (SectionKind.name .data) =
      ⟨.ok 7, tableOf [SectionKind.name .text, SectionKind.name .data]⟩ := rfl
  have addNames : (tableOf [SectionKind.name .text, SectionKind.name .data]).add namesSection =
      ⟨.ok 13, nameTable⟩ := rfl
  have block : (UInt32.ofNat headerBlockSize).toNat = headerBlockSize := rfl
  have tableSize : (UInt32.ofNat nameTable.size).toNat = nameTable.size := by decide
  have total : imageSize object =
      headerBlockSize + object.text.size.toNat + object.data.size.toNat + nameTable.size := rfl
  simp only [plan, place, sections, text, data, addText, addData, bind, Except.bind, pure,
    Except.pure]
  by_cases fitsText : (UInt32.ofNat headerBlockSize).toNat + object.text.size.toNat < UInt32.size
  case neg =>
    rw [if_neg (by omega), advance_of_not_fits fitsText]
  have textStop := toNat_add_of_fits fitsText
  simp only [advance_of_fits fitsText]
  by_cases fitsData : (UInt32.ofNat headerBlockSize + object.text.size).toNat +
      object.data.size.toNat < UInt32.size
  case neg =>
    rw [if_neg (by omega), advance_of_not_fits fitsData]
  have dataStop := toNat_add_of_fits fitsData
  simp only [advance_of_fits fitsData, addNames]
  by_cases fitsNames : (UInt32.ofNat headerBlockSize + object.text.size + object.data.size).toNat +
      (UInt32.ofNat nameTable.size).toNat < UInt32.size
  case neg =>
    rw [if_neg (by omega), advance_of_not_fits fitsNames]
  rw [if_pos (by omega), advance_of_fits fitsNames]
  rfl

theorem toNat_dataOffset {object : Object} (fits : imageSize object < UInt32.size) :
    (dataPlacement object).offset.toNat = headerBlockSize + object.text.size.toNat := by
  apply toNat_add_of_fits
  change headerBlockSize + object.text.size.toNat < UInt32.size
  rw [imageSize] at fits
  omega

theorem toNat_namesOffset {object : Object} (fits : imageSize object < UInt32.size) :
    (UInt32.ofNat headerBlockSize + object.text.size + object.data.size).toNat =
      headerBlockSize + object.text.size.toNat + object.data.size.toNat := by
  have dataOffset := toNat_dataOffset fits
  rw [imageSize] at fits
  have sum : (dataPlacement object).offset.toNat + object.data.size.toNat < UInt32.size := by omega
  exact (toNat_add_of_fits sum).trans (congrArg (· + _) dataOffset)

theorem length_headerBlock (object : Object) (entrySymbol : String) :
    (planned object entrySymbol).headerBlock.length = headerBlockSize := by
  simp [headerBlock, planned, FileHeader.length_encode, ProgramHeader.length_encode,
    SectionHeader.length_encode]
  rfl

end Layout

namespace Object

/-- The image of an object: the header block, the contents of both sections and the names. -/
def image (object : Object) (entrySymbol : String) : ByteString :=
  .ofList (Layout.planned object entrySymbol).headerBlock ++
    (object.text.contents ++ object.data.contents ++ Layout.nameTable.contents)

/-- The sections are planned where they follow each other behind the header block. -/
theorem placed_planned {object : Object} (wellFormed : object.WellFormed)
    (whole : object.IsWhole) (entrySymbol : String)
    (fits : Layout.imageSize object < UInt32.size) :
    object.Placed Layout.headerBlockSize (Layout.planned object entrySymbol).placements := by
  have length := (wellFormed.sections .text).length_contents (whole .text)
  exact ⟨rfl, (Layout.toNat_dataOffset fits).trans (congrArg _ length.symm), trivial⟩

theorem placedContents_planned (object : Object) (entrySymbol : String) :
    object.placedContents (Layout.planned object entrySymbol).placements =
      object.text.contents ++ object.data.contents := by
  simp [placedContents, Layout.planned, Layout.textPlacement, Layout.dataPlacement, get]

theorem length_contents {object : Object} (wellFormed : object.WellFormed)
    (whole : object.IsWhole) :
    (object.text.contents ++ object.data.contents).length =
      object.text.size.toNat + object.data.size.toNat := by
  have text := (wellFormed.sections .text).length_contents (whole .text)
  have data := (wellFormed.sections .data).length_contents (whole .data)
  rw [ByteString.length_append]
  exact congrArg₂ (· + ·) text data

/-- Emitting an object that can be planned writes its image from the beginning of the
sink on. -/
theorem emit_eq_write {object : Object} (wellFormed : object.WellFormed) (whole : object.IsWhole)
    (entrySymbol : String) (sink : Sink) :
    object.emit entrySymbol sink =
      if Layout.imageSize object < UInt32.size then
        ((sink.seek 0).write (object.image entrySymbol)).writing.map fun _ =>
          Layout.planned object entrySymbol
      else ⟨.error .tooLarge, sink⟩ := by
  rw [emit, Layout.plan_eq wellFormed.kinds]
  by_cases fits : Layout.imageSize object < UInt32.size
  case neg => rw [if_neg fits, if_neg fits]
  rw [if_pos fits, if_pos fits]
  refine congrArg (Outcome.map _) (Sink.writing_andThen_eq_write ?_)
  generalize started :
    (sink.seek 0).store (.ofList (Layout.planned object entrySymbol).headerBlock) = start
  have settled : start.gap = 0 := started ▸ Sink.gap_store sink.gap_seek_zero _
  have position : start.position = Layout.headerBlockSize := by
    rw [← started, Sink.position_store, Sink.seek, Sink.position_standingAt,
      ByteString.length_ofList, Layout.length_headerBlock, Nat.zero_add]
  have placed := position ▸ placed_planned wellFormed whole entrySymbol fits
  rw [emitSections_eq_write whole settled placed, placedContents_planned]
  refine Sink.writing_andThen_eq_write ?_
  have namesOffset : (Layout.planned object entrySymbol).namesOffset.toNat =
      (start.store (object.text.contents ++ object.data.contents)).position := by
    rw [Sink.position_store, position, length_contents wellFormed whole, ← Nat.add_assoc]
    exact Layout.toNat_namesOffset fits
  rw [StringTable.writeTo, namesOffset, Sink.seek_position (Sink.gap_store settled _)]

/-- A sink that grows takes every image that can be planned. -/
theorem emit_of_grows {object : Object} (wellFormed : object.WellFormed) (whole : object.IsWhole)
    (entrySymbol : String) (fits : Layout.imageSize object < UInt32.size) {sink : Sink}
    (grows : sink.grows = true) :
    object.emit entrySymbol sink =
      ⟨.ok (Layout.planned object entrySymbol),
        (sink.seek 0).store (object.image entrySymbol)⟩ := by
  have growsOn : (sink.seek 0).grows = true := grows
  rw [emit_eq_write wellFormed whole, if_pos fits, Sink.write_of_grows growsOn]
  rfl

/-- The image of an object exists unless it is too large for file offsets. -/
theorem encode_eq {object : Object} (wellFormed : object.WellFormed) (whole : object.IsWhole)
    (entrySymbol : String) :
    object.encode entrySymbol =
      if Layout.imageSize object < UInt32.size then .ok (object.image entrySymbol)
      else .error .tooLarge := by
  rw [encode]
  by_cases fits : Layout.imageSize object < UInt32.size
  · rw [if_pos fits, emit_of_grows wellFormed whole entrySymbol fits rfl]
    refine congrArg Except.ok ((Sink.empty.contents_store_seek_zero _).trans ?_)
    exact ByteString.empty_overwrite_zero _
  · rw [if_neg fits, emit_eq_write wellFormed whole, if_neg fits]
    rfl

theorem encode_eq_ok_iff {object : Object} (wellFormed : object.WellFormed)
    (whole : object.IsWhole) {entrySymbol : String} {image : ByteString} :
    object.encode entrySymbol = .ok image ↔
      Layout.imageSize object < UInt32.size ∧ object.image entrySymbol = image := by
  rw [encode_eq wellFormed whole]
  by_cases fits : Layout.imageSize object < UInt32.size
  · rw [if_pos fits, Except.ok.injEq, and_iff_right fits]
  · simp [fits]

end Object

end RiscvImage
