import RiscvImage.Proofs.Image.Storing
import RiscvImage.Proofs.Image.Tiling
import RiscvImage.Proofs.Loading.Program
import RiscvImage.Proofs.Loading.RoundTrip
import RiscvImage.Proofs.Memory.Access
import RiscvImage.Proofs.Packing.Assembly

/-!
# Loading what was packed

What is packed from the contents of files is found in the memory of a fresh machine, at the
addresses that were asked for.  On the way there it is known for every step when it fails
and for which reason: the object is assembled unless a section leaves the address space,
its image is written unless it is too long for file offsets, and the image is loaded unless
the sections meet or there is not enough memory for them.
-/

namespace RiscvImage

/-- A header begins with its magic. -/
theorem FileHeader.take_encode (header : FileHeader) :
    header.encode.take 4 = LittleEndian.word header.magic := by
  have length : (LittleEndian.word header.magic).length = 4 := rfl
  simp only [encode, List.append_assoc]
  exact List.take_left' length

theorem Object.hasMagic_image (object : Object) (entrySymbol : String) :
    (object.image entrySymbol).HasMagic := by
  have magic : LittleEndian.word FileHeader.elfMagic = [0x7f, 0x45, 0x4c, 0x46] := by decide
  have same : (Layout.planned object entrySymbol).fileHeader.magic = FileHeader.elfMagic := rfl
  have long : 4 ≤ (Layout.planned object entrySymbol).fileHeader.encode.length := by
    rw [FileHeader.length_encode]
    decide
  have front : ((object.image entrySymbol).window 0 4).bytes = _ :=
    bytes_window_image (by decide) entrySymbol
  rw [ByteString.bytes_window, List.drop_zero, List.drop_zero, Layout.headerBlock_eq,
    List.append_assoc, List.take_append_of_le_length long, FileHeader.take_encode, same,
    magic] at front
  exact front

theorem Object.detect_image (object : Object) (entrySymbol : String) :
    ProgramFormat.detect (.ok (.regular (object.image entrySymbol))) = .ok .elf := by
  have magic := object.hasMagic_image entrySymbol
  rw [ProgramFormat.detect_regular, if_neg (Nat.not_lt.mpr magic.four_le_length), if_pos magic]

/-- Memory maps exactly the given regions, apart from those that are empty, and all of a
region is read at its base. -/
structure Memory.HoldsExactly (memory : Memory) (regions : List Region) : Prop where
  mapped : memory.regions.Perm (regions.filter (·.length ≠ 0))
  readable : ∀ region ∈ regions, region.length ≠ 0 →
    memory.read region.base region.length = .ok region.contents

theorem Memory.WellFormed.holdsExactly {memory : Memory} (wellFormed : memory.WellFormed)
    {regions : List Region} (mapped : memory.regions.Perm (regions.filter (·.length ≠ 0))) :
    memory.HoldsExactly regions where
  mapped := mapped
  readable region member nonempty := by
    have there : region ∈ memory.regions :=
      mapped.mem_iff.mpr (List.mem_filter.mpr ⟨member, decide_eq_true nonempty⟩)
    rw [wellFormed.read_eq_window there (Nat.add_zero _).symm (Nat.pos_of_ne_zero nonempty)
      (Nat.le_of_eq (Nat.zero_add _)), Region.length, ByteString.window_length]

namespace Machine

variable {machine : Machine} {object : Object} {entrySymbol : String} {source : ImageSource}
  {limit : UInt64}

/-- Empty memory takes an image unless its sections meet or exceed the limit together. -/
theorem answer_loadImage_image_empty (wellFormed : object.WellFormed) (whole : object.IsWhole)
    (fits : Layout.imageSize object < UInt32.size)
    (contents : source.contents = object.image entrySymbol)
    (fresh : machine.memory = .empty limit) :
    let crowded := (object.text.size ≠ 0 ∧ object.data.size ≠ 0 ∧
        object.text.Intersects object.data) ∨
      limit.toNat < object.text.size.toNat + object.data.size.toNat
    (crowded → ∃ error, (machine.loadImage source).answer = .error (.memory error)) ∧
    (¬ crowded →
      (machine.loadImage source).answer = .ok (Layout.entryOf object entrySymbol).1) := by
  intro crowded
  have read : readHeader source.contents = .ok (object.imageHeader entrySymbol) :=
    contents ▸ Object.readHeader_image wellFormed whole entrySymbol
  have segments : (object.imageHeader entrySymbol).phnum.toNat = 2 := rfl
  have text : object.text.WellFormed := wellFormed.sections .text
  have data : object.data.WellFormed := wellFormed.sections .data
  have answer := Memory.answer_mapSections_empty text data (text.length_contents (whole .text))
    limit
  rw [answer_loadImage read, segments, Memory.walk_image wellFormed whole fits contents, fresh,
    answer]
  have noText : object.text.size = 0 ↔ object.text.size.toNat = 0 := UInt32.toNat_inj.symm
  have noData : object.data.size = 0 ↔ object.data.size.toNat = 0 := UInt32.toNat_inj.symm
  constructor
  case left =>
    intro crowd
    split
    case isTrue => exact ⟨_, rfl⟩
    case isFalse =>
      split
      case isTrue => exact ⟨_, rfl⟩
      case isFalse =>
        split
        case isTrue => exact ⟨_, rfl⟩
        case isFalse => exact absurd crowd (by grind)
  case right =>
    intro room
    rw [if_neg (by grind), if_neg (by grind), if_neg (by grind)]
    rfl

/-- The sections that are not empty have the regions that are not. -/
theorem filter_regions (wellFormed : object.WellFormed) (whole : object.IsWhole) :
    (object.sections.filter (·.size ≠ 0)).map Section.region =
      [object.text.region, object.data.region].filter (·.length ≠ 0) := by
  have regions : [object.text.region, object.data.region] = object.sections.map Section.region :=
    rfl
  rw [regions, List.filter_map]
  refine congrArg (List.map _) (List.filter_congr fun s member => ?_)
  obtain ⟨kind, -, rfl⟩ := List.mem_map.mp member
  have length : (object.get kind).region.length = (object.get kind).size.toNat :=
    (wellFormed.sections kind).length_contents (whole kind)
  rw [Function.comp_apply, length, decide_eq_decide, ne_eq, ne_eq, ← UInt32.toNat_inj]
  rfl

/-- A fresh machine takes an image unless its sections meet or exceed the limit together. -/
theorem loadProgram_image (wellFormed : object.WellFormed) (whole : object.IsWhole)
    (fits : Layout.imageSize object < UInt32.size) (entrySymbol : String)
    (options : LoadOptions) :
    let entry := (Layout.entryOf object entrySymbol).1
    let loaded := initial.loadProgram (.ok (.regular (object.image entrySymbol))) options
    let crowded := (object.text.size ≠ 0 ∧ object.data.size ≠ 0 ∧
        object.text.Intersects object.data) ∨
      Memory.defaultLimit.toNat < object.text.size.toNat + object.data.size.toNat
    (crowded → ∃ error, loaded.answer = .error (.memory error)) ∧
    (¬ crowded → loaded.answer = .ok ⟨.elf, entry⟩ ∧ loaded.state.pc = entry ∧
      loaded.state.memory.HoldsExactly [object.text.region, object.data.region]) := by
  intro entry loaded crowded
  have magic := object.hasMagic_image entrySymbol
  have contents : (ImageSource.file (object.image entrySymbol)).contents =
      object.image entrySymbol := rfl
  have start : initial.memory.WellFormed := Memory.wellFormed_empty Memory.defaultLimit
  have outcome : loaded =
      (initial.loadImage (.file (object.image entrySymbol))).map (⟨.elf, ·⟩) := by
    refine (initial.loadProgram_regular (object.image entrySymbol) options).trans ?_
    rw [if_neg (Nat.not_lt.mpr magic.four_le_length), if_pos magic]
  obtain ⟨refused, accepted⟩ := answer_loadImage_image_empty wellFormed whole fits contents
    (rfl : initial.memory = _)
  rw [outcome]
  constructor
  case left =>
    intro crowd
    obtain ⟨error, answer⟩ := refused crowd
    exact ⟨error, Outcome.answer_map_eq_error_iff.mpr answer⟩
  case right =>
    intro room
    have answer := accepted room
    obtain ⟨-, pc, after, mapped⟩ := loadImage_image start wellFormed whole fits contents answer
    rw [filter_regions wellFormed whole] at mapped
    refine ⟨?_, pc, after.holdsExactly mapped⟩
    rw [Outcome.answer_map, answer]
    rfl

end Machine

namespace PackOptions

variable {options : PackOptions} {files : FileSystem} {text data : ByteString} {output : String}
  {location : List String}

/-- If no object is assembled, nothing is packed. -/
theorem outcome_pack_of_error {error : PackError}
    (refused : Session.outcome options.assemble files = ⟨.error error, files⟩) :
    Session.outcome (options.pack output) files = ⟨.error error, files⟩ := by
  rw [pack, Session.outcome_bind, refused, Outcome.andThen_error]

/-- An object that is assembled is stored. -/
theorem outcome_pack_of_ok (accepts : files.Accepts output location) {object : Object}
    (assembled : Session.outcome options.assemble files = ⟨.ok object, files⟩) :
    let emitted := object.emit options.entrySymbol .empty
    Session.outcome (options.pack output) files =
      ⟨emitted.answer.mapError .write, files.put location (.regular emitted.state.contents)⟩ := by
  intro emitted
  obtain ⟨answer, left⟩ := object.run_store accepts options.entrySymbol
  rw [pack, Session.outcome_bind, assembled, Outcome.andThen_ok, Session.outcome_bind,
    Session.outcome_lift, answer, left, Outcome.andThen_ok]
  simp only [emitted]
  cases (object.emit options.entrySymbol .empty).answer <;> rfl

/-- Contents that do not fit in the address space are not packed. -/
theorem outcome_of_not_fits (supplied : options.Supplied files text data)
    (tooLarge : ¬ (options.TextFits text ∧ options.DataFits data)) (output : String) :
    ∃ kind, Session.outcome options.assemble files =
        ⟨.error (.object (.sectionOverflow kind)), files⟩ ∧
      Session.outcome (options.pack output) files =
        ⟨.error (.object (.sectionOverflow kind)), files⟩ := by
  have assembled := outcome_assemble supplied
  by_cases textFits : options.TextFits text
  · have dataLong : ¬ options.DataFits data := fun dataFits => tooLarge ⟨textFits, dataFits⟩
    rw [if_pos textFits, if_neg dataLong] at assembled
    exact ⟨.data, assembled, outcome_pack_of_error assembled⟩
  · rw [if_neg textFits] at assembled
    exact ⟨.text, assembled, outcome_pack_of_error assembled⟩

/-- Contents that fit in the address space are packed, unless the image is too long. -/
theorem outcome_of_fits (supplied : options.Supplied files text data)
    (textFits : options.TextFits text) (dataFits : options.DataFits data)
    (accepts : files.Accepts output location) :
    let object := options.object text data
    Session.outcome options.assemble files = ⟨.ok object, files⟩ ∧
    (Layout.imageSize object < UInt32.size → Session.outcome (options.pack output) files =
      ⟨.ok (Layout.planned object options.entrySymbol),
        files.put location (.regular (object.image options.entrySymbol))⟩) ∧
    (¬ Layout.imageSize object < UInt32.size →
      (Session.outcome (options.pack output) files).answer = .error (.write .tooLarge)) := by
  intro object
  have wellFormed := wellFormed_object supplied textFits dataFits
  have whole := isWhole_object options text data
  have assembled := outcome_assemble supplied
  rw [if_pos textFits, if_pos dataFits] at assembled
  refine ⟨assembled, fun fits => ?_, fun long => ?_⟩
  · have held : ((Sink.empty.seek 0).store (object.image options.entrySymbol)).contents =
        object.image options.entrySymbol :=
      (Sink.empty.contents_store_seek_zero _).trans (ByteString.empty_overwrite_zero _)
    rw [outcome_pack_of_ok accepts assembled,
      Object.emit_of_grows wellFormed whole options.entrySymbol fits rfl, held]
    rfl
  · rw [outcome_pack_of_ok accepts assembled,
      Object.emit_eq_write wellFormed whole options.entrySymbol, if_neg long]
    rfl

/-- An image that is packed is read back, and is as long as planned. -/
theorem read_packed (supplied : options.Supplied files text data)
    (textFits : options.TextFits text) (dataFits : options.DataFits data)
    (accepts : files.Accepts output location)
    (fits : Layout.imageSize (options.object text data) < UInt32.size) :
    let packed := Session.outcome (options.pack output) files
    let image := (options.object text data).image options.entrySymbol
    let layout := Layout.planned (options.object text data) options.entrySymbol
    packed.answer = .ok layout ∧ packed.state.read output = .ok (.regular image) ∧
      image.length = layout.fileSize.toNat := by
  intro packed image layout
  have wellFormed := wellFormed_object supplied textFits dataFits
  have whole := isWhole_object options text data
  have written : packed = _ := (outcome_of_fits supplied textFits dataFits accepts).2.1 fits
  refine ⟨congrArg Outcome.answer written, ?_, ?_⟩
  · rw [written]
    exact accepts.read_put image
  · exact (Object.length_image wellFormed whole _).trans (Layout.toNat_fileSize fits _).symm

/-- The image has the two tables, the contents and the names of the sections. -/
theorem imageSize_object (supplied : options.Supplied files text data)
    (dataFits : options.DataFits data) :
    Layout.imageSize (options.object text data) =
      276 + text.length + (data.length + options.bss.toNat) + 21 := by
  rw [Layout.imageSize_eq, toNat_size_text_object supplied, toNat_size_data_object text dataFits]

/-- What is packed is loaded with the contents of the files. -/
theorem loadProgram_image_object (supplied : options.Supplied files text data)
    (textFits : options.TextFits text) (dataFits : options.DataFits data)
    (fits : Layout.imageSize (options.object text data) < UInt32.size) (loading : LoadOptions) :
    let dataSize := data.length + options.bss.toNat
    let meet := text.length ≠ 0 ∧ dataSize ≠ 0 ∧
      options.textBase.toNat < options.dataBase.toNat + dataSize ∧
      options.dataBase.toNat < options.textBase.toNat + text.length
    let crowded := meet ∨ 2 ^ 30 < text.length + dataSize
    let entry := options.entry?.getD options.textBase
    let loaded := Machine.initial.loadProgram
      (.ok (.regular ((options.object text data).image options.entrySymbol))) loading
    (crowded → ∃ error, loaded.answer = .error (.memory error)) ∧
    (¬ crowded → loaded.answer = .ok ⟨.elf, entry⟩ ∧ loaded.state.pc = entry ∧
      loaded.state.memory.HoldsExactly [⟨options.textBase, text⟩,
        ⟨options.dataBase, data ++ .zero options.bss.toNat⟩]) := by
  intro dataSize meet crowded entry loaded
  have loads := Machine.loadProgram_image (wellFormed_object supplied textFits dataFits)
    (isWhole_object options text data) fits options.entrySymbol loading
  have textSize := toNat_size_text_object supplied
  have dataSize_eq := toNat_size_data_object text dataFits
  have someText : (options.object text data).text.size ≠ 0 ↔ text.length ≠ 0 := by
    rw [ne_eq, ← UInt32.toNat_inj, textSize]
    rfl
  have someData : (options.object text data).data.size ≠ 0 ↔ dataSize ≠ 0 := by
    rw [ne_eq, ← UInt32.toNat_inj, dataSize_eq]
    rfl
  have intersects : (options.object text data).text.Intersects (options.object text data).data ↔
      options.textBase.toNat < options.dataBase.toNat + dataSize ∧
        options.dataBase.toNat < options.textBase.toNat + text.length := by
    rw [Section.Intersects, textSize, dataSize_eq]
    rfl
  have textRegion : (options.object text data).text.region = ⟨options.textBase, text⟩ :=
    congrArg (Region.mk _) (ByteString.append_empty text)
  have dataRegion : (options.object text data).data.region =
      ⟨options.dataBase, data ++ .zero options.bss.toNat⟩ :=
    congrArg (Region.mk _) (contents_data_object supplied)
  have limit : Memory.defaultLimit.toNat = 2 ^ 30 := rfl
  simp only [someText, someData, intersects, limit, textSize, dataSize_eq, textRegion, dataRegion,
    entryOf_object] at loads
  exact loads

/-- What is packed from files is known from their contents.  No object is assembled exactly if
the text or the data leave the address space, and then no file changes.  No image is written
exactly if it would be too long for file offsets.  An image that is written has the length
that is planned, and a fresh machine takes it for an image.  It is refused for want of memory
exactly if the sections meet or exceed the usual limit together, and otherwise the machine
starts at the entry, with exactly the text and the data with their reserved space in memory. -/
theorem pack_loads (supplied : options.Supplied files text data)
    (creatable : files.Creatable output) :
    let dataSize := data.length + options.bss.toNat
    let leaves := 2 ^ 32 < options.textBase.toNat + text.length ∨
      2 ^ 32 < options.dataBase.toNat + dataSize ∨ 2 ^ 32 ≤ dataSize
    let long := 2 ^ 32 ≤ 276 + text.length + dataSize + 21
    let meet := text.length ≠ 0 ∧ dataSize ≠ 0 ∧
      options.textBase.toNat < options.dataBase.toNat + dataSize ∧
      options.dataBase.toNat < options.textBase.toNat + text.length
    let crowded := meet ∨ 2 ^ 30 < text.length + dataSize
    let entry := options.entry?.getD options.textBase
    let assembled := Session.outcome options.assemble files
    let packed := Session.outcome (options.pack output) files
    ((∃ error, assembled.answer = .error error) ↔ leaves) ∧
    (leaves → ∃ kind, assembled.answer = .error (.object (.sectionOverflow kind)) ∧
      packed = ⟨.error (.object (.sectionOverflow kind)), files⟩) ∧
    (¬ leaves → long → packed.answer = .error (.write .tooLarge)) ∧
    (¬ leaves → ¬ long → ∃ layout image, packed.answer = .ok layout ∧
      packed.state.read output = .ok (.regular image) ∧
      image.length = layout.fileSize.toNat ∧
      ProgramFormat.detect (packed.state.read output) = .ok .elf ∧
      let loaded := Machine.initial.loadProgram (packed.state.read output) .usual
      (crowded → ∃ error, loaded.answer = .error (.memory error)) ∧
      (¬ crowded → loaded.answer = .ok ⟨.elf, entry⟩ ∧ loaded.state.pc = entry ∧
        loaded.state.memory.HoldsExactly [⟨options.textBase, text⟩,
          ⟨options.dataBase, data ++ .zero options.bss.toNat⟩])) := by
  intro dataSize leaves long meet crowded entry assembled packed
  have leaves_iff : leaves ↔ ¬ (options.TextFits text ∧ options.DataFits data) := by
    have space : addressSpace = 2 ^ 32 := rfl
    simp only [leaves, dataSize, TextFits, DataFits, space]
    omega
  by_cases fits : options.TextFits text ∧ options.DataFits data
  case neg =>
    obtain ⟨kind, assembled_eq, packed_eq⟩ := outcome_of_not_fits supplied fits output
    have leaving : leaves := leaves_iff.mpr fits
    refine ⟨iff_of_true ⟨_, congrArg Outcome.answer assembled_eq⟩ leaving,
      fun _ => ⟨kind, congrArg Outcome.answer assembled_eq, packed_eq⟩,
      fun stays => absurd leaving stays, fun stays => absurd leaving stays⟩
  case pos =>
    obtain ⟨location, accepts, -⟩ := FileSystem.write_eq_ok_iff.mp creatable.choose_spec
    have stays : ¬ leaves := fun leaving => leaves_iff.mp leaving fits
    obtain ⟨textFits, dataFits⟩ := fits
    obtain ⟨assembled_eq, -, tooLarge⟩ := outcome_of_fits supplied textFits dataFits accepts
    have long_iff : Layout.imageSize (options.object text data) < UInt32.size ↔ ¬ long := by
      rw [imageSize_object supplied dataFits]
      exact Nat.not_le.symm
    refine ⟨iff_of_false ?_ stays, fun leaving => absurd leaving stays,
      fun _ tooLong => tooLarge (mt long_iff.mp (not_not_intro tooLong)), fun _ short => ?_⟩
    · rintro ⟨error, refused⟩
      rw [show assembled = _ from assembled_eq] at refused
      contradiction
    · have short := long_iff.mpr short
      obtain ⟨answer, read, length⟩ := read_packed supplied textFits dataFits accepts short
      refine ⟨_, _, answer, read, length, ?_⟩
      rw [show packed.state.read output = _ from read]
      exact ⟨Object.detect_image _ _,
        loadProgram_image_object supplied textFits dataFits short .usual⟩

/-- A working directory with a text file and a data file. -/
def sampleFiles : FileSystem :=
  ⟨[(["t"], .regular (.ofList [0x13, 0, 0, 0, 0x73, 0, 0, 0])),
    (["d"], .regular (.ofList [0x78, 0x79, 0x7a]))]⟩

/-- Both files are to be packed, with space behind the data, and started at the second
instruction. -/
def sampleOptions : PackOptions :=
  { ofText "t" with
    textBase := 0x1000
    data? := some "d"
    dataBase := 0x3000
    bss := 13
    entry? := some 0x1004 }

/-- The names that the sample uses lead to entries of the working directory. -/
theorem located_sample {name : String} (letter : name = "t" ∨ name = "d" ∨ name = "o")
    (files : FileSystem) :
    FileSystem.requireAdmissible name = .ok () ∧ files.locate name = .ok [name] := by
  have single : name.splitOn "/" = [name] := by
    rw [String.splitOn]
    unfold String.splitOnAux
    unfold String.splitOnAux
    rcases letter with rfl | rfl | rfl <;> rfl
  constructor
  · rcases letter with rfl | rfl | rfl <;>
      exact FileSystem.requireAdmissible_of_short (by simp) (by decide)
  · rcases letter with rfl | rfl | rfl <;>
      exact FileSystem.locate_name single (by decide) (by decide) (by decide) files

theorem supplied_sample :
    sampleOptions.Supplied sampleFiles (.ofList [0x13, 0, 0, 0, 0x73, 0, 0, 0])
      (.ofList [0x78, 0x79, 0x7a]) where
  readText := by
    obtain ⟨admissible, located⟩ := located_sample (.inl rfl) sampleFiles
    exact FileSystem.read_of_lookup? admissible located rfl
  readData := by
    rintro path given
    obtain rfl : "d" = path := Option.some.inj given
    obtain ⟨admissible, located⟩ := located_sample (.inr (.inl rfl)) sampleFiles
    exact FileSystem.read_of_lookup? admissible located rfl
  noData given := absurd given (Option.some_ne_none _)
  textShort := by decide
  dataShort := by decide

theorem accepts_sample : sampleFiles.Accepts "o" ["o"] where
  admissible := (located_sample (.inr (.inr rfl)) sampleFiles).1
  bare := rfl
  located := (located_sample (.inr (.inr rfl)) sampleFiles).2
  free length := by
    have missing : sampleFiles.lookup? ["o"] = none := rfl
    rw [missing]
    exact (Option.some_ne_none _).symm
  nameable := rfl

/-- The files are packed and loaded, and execution starts at the second instruction. -/
theorem pack_loads_sample :
    let text : ByteString := .ofList [0x13, 0, 0, 0, 0x73, 0, 0, 0]
    let data : ByteString := .ofList [0x78, 0x79, 0x7a]
    let packed := Session.outcome (sampleOptions.pack "o") sampleFiles
    let loaded := Machine.initial.loadProgram (packed.state.read "o") .usual
    sampleOptions.Supplied sampleFiles text data ∧ sampleFiles.Creatable "o" ∧
      (∃ layout, packed.answer = .ok layout) ∧
      (∃ image, packed.state.read "o" = .ok (.regular image)) ∧
      loaded.answer = .ok ⟨.elf, 0x1004⟩ ∧ loaded.state.pc = 0x1004 ∧
      loaded.state.memory.HoldsExactly [⟨0x1000, text⟩, ⟨0x3000, data ++ .zero 13⟩] := by
  intro text data packed loaded
  have creatable : sampleFiles.Creatable "o" := ⟨_, accepts_sample.write .empty⟩
  obtain ⟨-, -, -, succeeds⟩ := pack_loads supplied_sample creatable
  obtain ⟨layout, image, answer, read, -, -, -, starts⟩ := succeeds (by decide) (by decide)
  exact ⟨supplied_sample, creatable, ⟨layout, answer⟩, ⟨image, read⟩, starts (by decide)⟩

end PackOptions

end RiscvImage
