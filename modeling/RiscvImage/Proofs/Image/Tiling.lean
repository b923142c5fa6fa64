import RiscvImage.Proofs.Image.Structure

/-!
# The parts of an image tile it

An image is planned exactly if its last byte can be addressed with file offsets.  Its parts
are then placed one after the other: the header block, the contents of both sections and
the names each begin where the part before ends, and the last of them ends where the image
does.  So although every part is written at an offset of its own, none of them overlap and
nothing is left out between them.
-/

namespace RiscvImage

namespace ByteString

/-- Parts with the offsets at which they are placed, each beginning where the one before it
ends, from `start` up to `stop`. -/
def Tile : (start : Nat) → (parts : List (Nat × ByteString)) → (stop : Nat) → Prop
  | start, [], stop => start = stop
  | start, part :: rest, stop => part.1 = start ∧ Tile (start + part.2.length) rest stop

/-- What is put together from the parts that are placed. -/
def assembled (parts : List (Nat × ByteString)) : ByteString :=
  concat (parts.map Prod.snd)

variable {start stop : Nat} {parts : List (Nat × ByteString)}

/-- Parts that tile are as long together as what they tile. -/
theorem Tile.add_length_assembled (tile : Tile start parts stop) :
    start + (assembled parts).length = stop := by
  induction parts generalizing start with
  | nil => exact tile
  | cons part rest ih =>
      have last := ih tile.2
      rw [assembled, List.map_cons, concat_cons, length_append, ← Nat.add_assoc]
      exact last

/-- Parts that tile are found where they are placed. -/
theorem Tile.window_assembled (tile : Tile start parts stop) {front : ByteString}
    (starts : front.length = start) {part : Nat × ByteString} (member : part ∈ parts) :
    (front ++ assembled parts).window part.1 part.2.length = part.2 := by
  induction parts generalizing start front with
  | nil => cases member
  | cons first rest ih =>
      obtain ⟨here, others⟩ := tile
      have split : front ++ assembled (first :: rest) = front ++ first.2 ++ assembled rest := by
        rw [append_assoc]
        rfl
      rw [split]
      rcases List.mem_cons.mp member with rfl | later
      · exact window_middle (starts.trans here.symm) rfl
      · refine ih others ?_ later
        rw [length_append, starts]

end ByteString

namespace Layout

/-- The parts of an image with the offsets at which they are written. -/
def parts (layout : Layout) (object : Object) (names : StringTable) : List (Nat × ByteString) :=
  (0, .ofList layout.headerBlock) ::
    layout.placements.map (fun placement =>
      (placement.offset.toNat, (object.get placement.kind).contents)) ++
    [(layout.namesOffset.toNat, names.contents)]

/-- A layout tells exactly what an image consists of and where. -/
structure Exact (layout : Layout) (object : Object) (names : StringTable) (image : ByteString) :
    Prop where
  contents : image = .ofList layout.headerBlock ++ object.text.contents ++
    object.data.contents ++ .ofList (Utf8.encode "\x00.text\x00.data\x00.strtab\x00")
  headerBlock : layout.headerBlock.length = 276
  sections : layout.placements.map (fun placement => (placement.kind, placement.offset.toNat)) =
    [(.text, 276), (.data, 276 + object.text.size.toNat)]
  sizes : ∀ placement ∈ layout.placements,
    placement.size.toNat = (object.get placement.kind).contents.length
  namesOffset : layout.namesOffset.toNat =
    276 + object.text.size.toNat + object.data.size.toNat
  namesSize : layout.namesSize.toNat = 21
  fileSize : layout.fileSize.toNat = image.length
  tile : ByteString.Tile 0 (layout.parts object names) layout.fileSize.toNat
  /-- Every part is found in the image where it is placed. -/
  found : ∀ part ∈ layout.parts object names, image.window part.1 part.2.length = part.2

variable {object : Object}

theorem imageSize_eq (object : Object) :
    imageSize object = 276 + object.text.size.toNat + object.data.size.toNat + 21 := by
  have names : nameTable.size = 21 := by decide
  rw [imageSize, names]
  rfl

theorem toNat_fileSize (fits : imageSize object < UInt32.size) (entrySymbol : String) :
    (planned object entrySymbol).fileSize.toNat = imageSize object := by
  have namesOffset := toNat_namesOffset fits
  have namesSize : (UInt32.ofNat nameTable.size).toNat = nameTable.size := by decide
  rw [imageSize] at fits
  refine (toNat_add_of_fits ?_).trans ?_
  · rw [namesOffset, namesSize]
    exact fits
  · rw [namesOffset, namesSize, imageSize]

/-- The planned parts put together are the image. -/
theorem assembled_parts_planned (object : Object) (entrySymbol : String) :
    ByteString.assembled ((planned object entrySymbol).parts object nameTable) =
      object.image entrySymbol := by
  have placements : (planned object entrySymbol).placements =
      [textPlacement object, dataPlacement object] := rfl
  simp only [ByteString.assembled, parts, placements, List.map_cons, List.map_nil,
    List.cons_append, List.nil_append, ByteString.concat_cons, ByteString.concat_nil,
    ByteString.append_empty, Object.image, ByteString.append_assoc]
  rfl

/-- Every part is planned where the one before it ends. -/
theorem tile_parts_planned (wellFormed : object.WellFormed) (whole : object.IsWhole)
    (fits : imageSize object < UInt32.size) (entrySymbol : String) :
    ByteString.Tile 0 ((planned object entrySymbol).parts object nameTable)
      (planned object entrySymbol).fileSize.toNat := by
  have block : (ByteString.ofList (planned object entrySymbol).headerBlock).length =
      headerBlockSize :=
    (ByteString.length_ofList _).trans (length_headerBlock object entrySymbol)
  have text : (object.get .text).contents.length = object.text.size.toNat :=
    (wellFormed.sections .text).length_contents (whole .text)
  have data : (object.get .data).contents.length = object.data.size.toNat :=
    (wellFormed.sections .data).length_contents (whole .data)
  refine ⟨rfl, ?text, ?data, ?names, ?stop⟩
  case text =>
    rw [block, Nat.zero_add]
    rfl
  case data =>
    rw [block, Nat.zero_add]
    exact (toNat_dataOffset fits).trans (congrArg _ text.symm)
  case names =>
    rw [block, Nat.zero_add]
    exact (toNat_namesOffset fits).trans (congrArg₂ (_ + · + ·) text.symm data.symm)
  case stop =>
    rw [block, Nat.zero_add, toNat_fileSize fits, imageSize, ← text, ← data]
    rfl

/-- What is planned for an object is exact for its image. -/
theorem exact_planned (wellFormed : object.WellFormed) (whole : object.IsWhole)
    (fits : imageSize object < UInt32.size) (entrySymbol : String) :
    (planned object entrySymbol).Exact object nameTable (object.image entrySymbol) where
  contents := by
    rw [Object.image, contents_nameTable, ByteString.append_assoc, ByteString.append_assoc,
      ByteString.append_assoc]
  headerBlock := length_headerBlock object entrySymbol
  sections := congrArg (fun offset => [(SectionKind.text, 276), (SectionKind.data, offset)])
    (toNat_dataOffset fits)
  sizes := by
    have size (kind : SectionKind) :
        (object.get kind).size.toNat = (object.get kind).contents.length :=
      ((wellFormed.sections kind).length_contents (whole kind)).symm
    intro placement member
    rcases List.mem_cons.mp member with rfl | member
    · exact size .text
    · rw [List.mem_singleton.mp member]
      exact size .data
  namesOffset := toNat_namesOffset fits
  namesSize := rfl
  fileSize := by
    have stop := (tile_parts_planned wellFormed whole fits entrySymbol).add_length_assembled
    rw [assembled_parts_planned, Nat.zero_add] at stop
    exact stop.symm
  tile := tile_parts_planned wellFormed whole fits entrySymbol
  found := by
    intro part member
    have found := (tile_parts_planned wellFormed whole fits entrySymbol).window_assembled
      ByteString.length_empty member
    rwa [ByteString.empty_append, assembled_parts_planned] at found

end Layout

namespace Object

/-- The image of an object is planned, and so encoded and emitted, unless its last byte
is beyond what file offsets can express, and then nothing is written.  The layout that
is planned and answered is exact, and a sink that grows holds the image from its
beginning on. -/
theorem encode_exact_or_tooLarge {object : Object} (reachable : object.Reachable)
    (whole : object.IsWhole) (entrySymbol : String) :
    let size := 276 + object.text.size.toNat + object.data.size.toNat + 21
    (Layout.plan object entrySymbol = .error .tooLarge ↔ 2 ^ 32 ≤ size) ∧
    (object.encode entrySymbol = .error .tooLarge ↔ 2 ^ 32 ≤ size) ∧
    (∀ sink, (object.emit entrySymbol sink).answer = .error .tooLarge ↔ 2 ^ 32 ≤ size) ∧
    (2 ^ 32 ≤ size → ∀ sink, (object.emit entrySymbol sink).state = sink) ∧
    (size < 2 ^ 32 → ∃ layout names image,
      Layout.plan object entrySymbol = .ok (layout, names) ∧
      object.encode entrySymbol = .ok image ∧
      layout.Exact object names image ∧
      ∀ sink, sink.grows = true →
        (object.emit entrySymbol sink).answer = .ok layout ∧
          (object.emit entrySymbol sink).state.contents = sink.contents.overwrite 0 image) := by
  intro size
  have wellFormed := reachable.wellFormed
  have planned := Layout.plan_eq wellFormed.kinds entrySymbol
  have encoded := encode_eq wellFormed whole entrySymbol
  have emitted := emit_eq_write wellFormed whole entrySymbol
  have imageSize : Layout.imageSize object = size := Layout.imageSize_eq object
  by_cases fits : Layout.imageSize object < UInt32.size
  case neg =>
    have tooLarge : 2 ^ 32 ≤ size := imageSize ▸ Nat.le_of_not_lt fits
    simp only [if_neg fits] at planned encoded emitted
    simp only [planned, encoded, emitted, tooLarge, implies_true, true_and]
    exact fun small => absurd tooLarge (Nat.not_le_of_lt small)
  case pos =>
    have small : ¬ 2 ^ 32 ≤ size := imageSize ▸ Nat.not_le_of_lt fits
    simp only [if_pos fits] at planned encoded emitted
    simp only [planned, encoded, small, iff_false, reduceCtorEq, true_and]
    refine ⟨?answer, False.elim, fun _ => ⟨_, _, _, rfl, rfl, ?exact, ?grown⟩⟩
    case answer =>
      intro sink
      rw [emitted, Outcome.answer_map, Outcome.writing]
      cases ((sink.seek 0).write (object.image entrySymbol)).answer <;> nofun
    case exact => exact Layout.exact_planned wellFormed whole fits entrySymbol
    case grown =>
      intro sink grows
      rw [emit_of_grows wellFormed whole entrySymbol fits grows]
      exact ⟨rfl, sink.contents_store_seek_zero _⟩

/-- Operations that leave padding in the text, and bytes in the data. -/
def paddedOperations : List Operation :=
  [.edit .text (.pushWord 0x73), .edit .text (.pushAlign 16 .nop),
    .edit .data (.pushBytes (.ofList [1, 2, 3]))]

/-- Operations that leave almost as many bytes in the data as there are file offsets. -/
def hugeOperations : List Operation :=
  [.edit .data (.pushZero 0xfffffff0)]

/-- A padded program is encoded with all parts in place, and of a huge one nothing is
written. -/
theorem encode_exact_or_tooLarge_samples :
    let padded := (empty 0x1000 0x2000).run paddedOperations
    let huge := (empty 0 0).run hugeOperations
    padded.Reachable ∧ padded.IsWhole ∧
      (∃ layout names image, padded.encode "_start" = .ok image ∧
        Layout.Exact layout padded names image ∧ layout.namesOffset.toNat = 295) ∧
      huge.Reachable ∧ huge.IsWhole ∧ huge.encode "_start" = .error .tooLarge ∧
      ∀ sink, (huge.emit "_start" sink).state = sink := by
  intro padded huge
  have reachable : padded.Reachable := ⟨0x1000, 0x2000, paddedOperations, rfl⟩
  have whole : padded.IsWhole := by
    refine (isWhole_empty 0x1000 0x2000).run ?_
    simp [paddedOperations, Operation.IsWhole, Section.Operation.IsWhole]
  have hugeReachable : huge.Reachable := ⟨0, 0, hugeOperations, rfl⟩
  have hugeWhole : huge.IsWhole := by
    refine (isWhole_empty 0 0).run ?_
    simp [hugeOperations, Operation.IsWhole, Section.Operation.IsWhole]
  obtain ⟨-, -, -, -, fitting⟩ := encode_exact_or_tooLarge reachable whole "_start"
  obtain ⟨layout, names, image, -, encoded, exact, -⟩ := fitting (by decide)
  obtain ⟨-, tooLarge, -, untouched, -⟩ := encode_exact_or_tooLarge hugeReachable hugeWhole "_start"
  exact ⟨reachable, whole, ⟨layout, names, image, encoded, exact, exact.namesOffset⟩,
    hugeReachable, hugeWhole, tooLarge.mpr (by decide), untouched (by decide)⟩

end Object

end RiscvImage
