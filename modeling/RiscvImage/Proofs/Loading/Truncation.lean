import RiscvImage.Proofs.Image.Structure
import RiscvImage.Proofs.Loading.Footprint

/-!
# Files that are cut short

A file that can be loaded may be cut short.  What is left of it is loaded as all of it was,
or it is turned down for a part that is not complete.  No cut makes a load fail for another
reason, and none makes it succeed with another result: up to the first part that is missing
the walk over what is left is the walk over the whole file.

What has to be left are the stretches of the file that the load reads.  In the image of an
object the last of them are the contents of its sections, and if it has none, the segment
descriptors.  The section headers come before the contents, but they are not read.
-/

namespace RiscvImage

/-- All that a load looks at lies in the first `count` bytes. -/
def ByteString.LoadsWithin (file : ByteString) (count : Nat) : Prop :=
  FileHeader.size ≤ count ∧ ∀ offset size, file.LoadReads offset size → offset + size ≤ count

variable {source cut : ImageSource} {header : FileHeader} {count : Nat}

namespace Memory

/-- An entry of a file that is cut short is loaded as before or is not complete. -/
theorem loadEntry_take {memory : Memory} (contents : cut.contents = source.contents.take count)
    {index : Nat} (loaded : (memory.loadEntry source header index).answer = .ok ()) :
    memory.loadEntry cut header index = memory.loadEntry source header index ∨
      ∃ part, (memory.loadEntry cut header index).answer = .error (.format (.truncated part)) := by
  obtain ⟨sound, admitted⟩ := loadEntry_eq_ok_iff.mp loaded
  have agrees {offset size : Nat} (inside : offset + size ≤ cut.contents.length) :
      source.contents.AgreesAt cut.contents offset size := by
    rw [contents] at inside ⊢
    exact ByteString.agreesAt_take inside
  by_cases inside : header.EntryInside cut.contents .programHeader index
  case neg =>
    rw [memory.loadEntry_of_outside inside]
    exact .inr ⟨_, rfl⟩
  have same := ProgramHeader.atIndex_eq_of_agreesAt (agrees inside)
  by_cases present : (ProgramHeader.atIndex source.contents header index).HasPayload →
      (ProgramHeader.atIndex source.contents header index).PayloadInside cut.contents
  case pos =>
    left
    refine memory.loadEntry_eq_of_agreesAt sound (agrees inside) fun stored => ?_
    exact agrees ((present stored).resolve_left stored.2)
  case neg =>
    right
    obtain ⟨stored, missing⟩ := Classical.not_imp.mp present
    -- The descriptor is the one of the whole file, so only its payload can be at fault.
    have effect := memory.loadEntry_effect inside
    rw [same] at effect
    generalize memory.loadEntry cut header index = outcome at effect
    cases effect with
    | unsupported unknown => exact absurd sound.supported unknown
    | skipped known notMaps => exact absurd stored.1 notMaps
    | refused error maps refusal =>
        rw [admitted maps] at refusal
        contradiction
    | incomplete maps admitted missing => exact ⟨_, rfl⟩
    | mapped maps admitted present => exact absurd present missing

/-- A walk over a file that is cut short goes on as before until a part is not complete. -/
theorem walk_take {memory : Memory} (contents : cut.contents = source.contents.take count)
    {total : Nat} (walked : (memory.walk source header total).answer = .ok ()) :
    memory.walk cut header total = memory.walk source header total ∨
      ∃ part, (memory.walk cut header total).answer = .error (.format (.truncated part)) := by
  induction total with
  | zero => exact .inl rfl
  | succ total ih =>
      obtain ⟨before, last⟩ := walk_succ_eq_ok_iff.mp walked
      rw [walk_succ, walk_succ]
      rcases ih before with same | ⟨part, failed⟩
      · rw [same]
        generalize memory.walk source header total = outcome at before last
        rcases outcome with ⟨answer, state⟩
        obtain rfl : answer = .ok () := before
        exact loadEntry_take contents last
      · right
        generalize memory.walk cut header total = outcome at failed
        rcases outcome with ⟨answer, state⟩
        obtain rfl : answer = .error (.format (.truncated part)) := failed
        exact ⟨part, rfl⟩

end Memory

namespace Machine

variable {machine : Machine} {entry : UInt32}

/-- What is left of a file that can be loaded is loaded as all of it, or turned down for a
part that is not complete.  Then nothing has changed outside of memory. -/
theorem loadImage_take (contents : cut.contents = source.contents.take count)
    (loaded : (machine.loadImage source).answer = .ok entry) :
    machine.loadImage cut = machine.loadImage source ∨
      ∃ part memory, machine.loadImage cut =
        ⟨.error (.format (.truncated part)), { machine with memory }⟩ := by
  obtain ⟨header, read, -, walked⟩ := loadImage_eq_ok_iff.mp loaded
  by_cases complete : FileHeader.size ≤ cut.contents.length
  case neg =>
    right
    have refused : readHeader cut.contents = .error (.format (.truncated .fileHeader)) := by
      rw [readHeader_eq, if_neg complete]
    exact ⟨_, machine.memory, loadImage_of_readHeader_error refused⟩
  have front : FileHeader.size ≤ count := by
    rw [contents, ByteString.length_take] at complete
    omega
  have readCut : readHeader cut.contents = .ok header := by
    rw [contents, readHeader_take front, read]
  rcases Memory.walk_take contents walked with alike | ⟨part, failed⟩
  · left
    rw [loadImage_of_walk_ok readCut (alike ▸ walked), loadImage_of_walk_ok read walked, alike]
  · right
    exact ⟨part, _, loadImage_of_walk_error readCut failed⟩

/-- A cut that leaves all that is read leaves a file that is loaded as before. -/
theorem loadImage_take_of_loadsWithin (contents : cut.contents = source.contents.take count)
    (loaded : (machine.loadImage source).answer = .ok entry)
    (within : source.contents.LoadsWithin count) :
    machine.loadImage cut = machine.loadImage source := by
  obtain ⟨front, left⟩ := within
  have agrees {offset size : Nat} (remains : offset + size ≤ count)
      (inside : offset + size ≤ source.contents.length) :
      source.contents.AgreesAt cut.contents offset size := by
    rw [contents]
    refine ByteString.agreesAt_take ?_
    rw [ByteString.length_take]
    exact Nat.le_min.mpr ⟨remains, inside⟩
  refine loadImage_eq_of_agreesAt loaded ?complete fun offset size reads => ?agrees
  case complete =>
    obtain ⟨header, read, -⟩ := loadImage_eq_ok_iff.mp loaded
    rw [contents, ByteString.length_take]
    exact Nat.le_min.mpr ⟨front, (readHeader_eq_ok_iff.mp read).1⟩
  case agrees => exact agrees (left offset size reads) (loadReads_inside loaded reads)

/-- What is left of a file is loaded only if that is all that is read. -/
theorem loadsWithin_of_loadImage_take (contents : cut.contents = source.contents.take count)
    (loaded : (machine.loadImage cut).answer = .ok entry) :
    source.contents.LoadsWithin count := by
  obtain ⟨header, read, -, walked⟩ := loadImage_eq_ok_iff.mp loaded
  obtain ⟨complete, rfl, -⟩ := readHeader_eq_ok_iff.mp read
  have sound := Memory.entrySound_of_walk walked
  have length_le : cut.contents.length ≤ count := by
    rw [contents, ByteString.length_take]
    exact Nat.min_le_left _ _
  have sameHeader : FileHeader.ofFile cut.contents = FileHeader.ofFile source.contents := by
    rw [contents] at complete ⊢
    exact FileHeader.ofFile_take complete
  rw [sameHeader] at sound
  have sameEntry {index : Nat} (listed : index < (FileHeader.ofFile source.contents).phnum.toNat) :
      ProgramHeader.atIndex cut.contents (.ofFile source.contents) index =
        ProgramHeader.atIndex source.contents (.ofFile source.contents) index := by
    have inside := (sound index listed).inside
    rw [contents] at inside ⊢
    exact ProgramHeader.atIndex_eq_of_agreesAt (ByteString.agreesAt_take inside)
  have size : FileHeader.size = 52 := rfl
  refine ⟨Nat.le_trans complete length_le, fun offset size reads => ?_⟩
  refine Nat.le_trans ?_ length_le
  cases reads with
  | identification => omega
  | purpose => omega
  | table => omega
  | descriptor listed => exact (sound _ listed).inside
  | payload listed stored =>
      have payload := (sound _ listed).payload_inside (sameEntry listed ▸ stored)
      rwa [sameEntry listed] at payload

end Machine

/-- How many bytes of the image of an object have to be left: the contents of the sections,
or if they are empty, the segment descriptors. -/
def Layout.loadedSize (object : Object) : Nat :=
  if object.text.size = 0 ∧ object.data.size = 0 then 116
  else 276 + object.text.size.toNat + object.data.size.toNat

theorem Placement.Holds.hasPayload_iff {placement : Placement} {file : ByteString} {s : Section}
    (holds : placement.Holds file s) : placement.programHeader.HasPayload ↔ s.size ≠ 0 := by
  have filesz : placement.programHeader.filesz = s.size := holds.size
  rw [ProgramHeader.HasPayload, holds.mapsRegion_iff, filesz, and_self]

namespace Object

variable {object : Object}

/-- The contents of a section are read when the image is loaded. -/
theorem loadReads_image {entrySymbol : String} {placement : Placement} {s : Section} {index : Nat}
    (index_lt : index < 2)
    (entry : ProgramHeader.atIndex (object.image entrySymbol) (object.imageHeader entrySymbol)
      index = placement.programHeader)
    (holds : placement.Holds (object.image entrySymbol) s) (nonempty : s.size ≠ 0) :
    (object.image entrySymbol).LoadReads placement.offset.toNat s.size.toNat := by
  have header := ofFile_image object entrySymbol
  have stands : ProgramHeader.atIndex (object.image entrySymbol)
      (.ofFile (object.image entrySymbol)) index = placement.programHeader := by
    rw [header, entry]
  have listed : index < (FileHeader.ofFile (object.image entrySymbol)).phnum.toNat := by
    rw [header]
    exact index_lt
  have reads := ByteString.LoadReads.payload listed (stands ▸ holds.hasPayload_iff.mpr nonempty)
  rw [stands, placement.payloadSize_programHeader, holds.size] at reads
  exact reads

/-- What is read of the contents ends where the contents of the sections end. -/
theorem payload_image_le (wellFormed : object.WellFormed) (whole : object.IsWhole)
    (fits : Layout.imageSize object < UInt32.size) {entrySymbol : String} {index : Nat}
    (index_lt : index < 2) {descriptor : ProgramHeader}
    (stands : ProgramHeader.atIndex (object.image entrySymbol) (object.imageHeader entrySymbol)
      index = descriptor)
    (stored : descriptor.HasPayload) :
    descriptor.offset.toNat + descriptor.payloadSize ≤ Layout.loadedSize object := by
  have text := holds_textPlacement wellFormed whole entrySymbol
  have data := holds_dataPlacement wellFormed whole fits entrySymbol
  match index, index_lt with
  | 0, _ =>
    obtain rfl := (atIndex_image_zero object entrySymbol).symm.trans stands
    have nonempty := text.hasPayload_iff.mp stored
    have offset : (Layout.textPlacement object).programHeader.offset.toNat = 276 := rfl
    rw [Placement.payloadSize_programHeader, text.size, offset, Layout.loadedSize,
      if_neg fun empty => nonempty empty.1]
    exact Nat.le_add_right _ _
  | 1, _ =>
    obtain rfl := (atIndex_image_one object entrySymbol).symm.trans stands
    have nonempty := data.hasPayload_iff.mp stored
    have offset : (Layout.dataPlacement object).programHeader.offset.toNat =
        276 + object.text.size.toNat := Layout.toNat_dataOffset fits
    apply Nat.le_of_eq
    rw [Placement.payloadSize_programHeader, data.size, offset, Layout.loadedSize,
      if_neg fun empty => nonempty empty.2]

theorem loadsWithin_of_loadedSize_le (wellFormed : object.WellFormed) (whole : object.IsWhole)
    (fits : Layout.imageSize object < UInt32.size) (entrySymbol : String) {count : Nat}
    (enough : Layout.loadedSize object ≤ count) :
    (object.image entrySymbol).LoadsWithin count := by
  have header := ofFile_image object entrySymbol
  have two : (object.imageHeader entrySymbol).phnum.toNat = 2 := rfl
  have headerSize : FileHeader.size = 52 := rfl
  have descriptors : 116 ≤ Layout.loadedSize object := by
    rw [Layout.loadedSize]
    split <;> omega
  refine ⟨by omega, fun offset size reads => ?_⟩
  refine Nat.le_trans ?_ enough
  cases reads with
  | identification => omega
  | purpose => omega
  | table => omega
  | @descriptor index listed =>
      have entryOffset : (object.imageHeader entrySymbol).entryOffset .programHeader index =
          52 + index * 32 := rfl
      have entrySize : DescriptorKind.programHeader.size = 32 := rfl
      rw [header, two] at listed
      rw [header, entryOffset, entrySize]
      omega
  | payload listed stored =>
      rw [header] at listed stored ⊢
      exact payload_image_le wellFormed whole fits listed rfl stored

theorem loadedSize_le_of_loadsWithin (wellFormed : object.WellFormed) (whole : object.IsWhole)
    (fits : Layout.imageSize object < UInt32.size) {entrySymbol : String} {count : Nat}
    (within : (object.image entrySymbol).LoadsWithin count) :
    Layout.loadedSize object ≤ count := by
  obtain ⟨-, left⟩ := within
  have descriptors : 116 ≤ count := by
    have header := ofFile_image object entrySymbol
    have listed : 1 < (FileHeader.ofFile (object.image entrySymbol)).phnum.toNat := by
      rw [header]
      exact Nat.lt_succ_self 1
    have last := left _ _ (.descriptor listed)
    rw [header] at last
    exact last
  have text (nonempty : object.text.size ≠ 0) : 276 + object.text.size.toNat ≤ count :=
    left _ _ (loadReads_image (by decide) (atIndex_image_zero object entrySymbol)
      (holds_textPlacement wellFormed whole entrySymbol) nonempty)
  have data (nonempty : object.data.size ≠ 0) :
      276 + object.text.size.toNat + object.data.size.toNat ≤ count := by
    have last := left _ _ (loadReads_image (by decide) (atIndex_image_one object entrySymbol)
      (holds_dataPlacement wellFormed whole fits entrySymbol) nonempty)
    rwa [Layout.toNat_dataOffset fits] at last
  rw [Layout.loadedSize]
  by_cases noData : object.data.size = 0
  · by_cases noText : object.text.size = 0
    · rwa [if_pos ⟨noText, noData⟩]
    · rw [if_neg fun empty => noText empty.1, noData]
      exact text noText
  · rw [if_neg fun empty => noData empty.2]
    exact data noData

end Object

namespace Machine

/-- What is left of an image that can be loaded is loaded exactly if the contents of both
sections are left, or the segment descriptors if there are no contents; then the machine is
in the state in which the whole image leaves it.  Otherwise the image is turned down for a
part that is not complete, and neither the registers nor the program counter have changed. -/
theorem loadImage_take_encode {object : Object} (reachable : object.Reachable)
    (whole : object.IsWhole) {entrySymbol : String} {image : ByteString}
    (encoded : object.encode entrySymbol = .ok image) {machine : Machine} {source cut : ImageSource}
    (contents : source.contents = image) {entry : UInt32}
    (loaded : (machine.loadImage source).answer = .ok entry) {count : Nat}
    (short : cut.contents = image.take count) :
    let needed :=
      if object.text.size = 0 ∧ object.data.size = 0 then 116
      else 276 + object.text.size.toNat + object.data.size.toNat
    ((∃ answer, (machine.loadImage cut).answer = .ok answer) ↔ needed ≤ count) ∧
    (∀ answer, (machine.loadImage cut).answer = .ok answer →
      machine.loadImage cut = machine.loadImage source) ∧
    ∀ error, (machine.loadImage cut).answer = .error error →
      (∃ part, error = .format (.truncated part)) ∧
        (machine.loadImage cut).state.registers = machine.registers ∧
        (machine.loadImage cut).state.pc = machine.pc := by
  intro needed
  have wellFormed := reachable.wellFormed
  obtain ⟨fits, rfl⟩ := (Object.encode_eq_ok_iff wellFormed whole).mp encoded
  have front : cut.contents = source.contents.take count := by rw [short, contents]
  refine ⟨⟨?succeeds, ?enough⟩, ?same, ?fails⟩
  case succeeds =>
    rintro ⟨answer, again⟩
    have within := loadsWithin_of_loadImage_take front again
    rw [contents] at within
    exact Object.loadedSize_le_of_loadsWithin wellFormed whole fits within
  case enough =>
    intro enough
    have within := Object.loadsWithin_of_loadedSize_le wellFormed whole fits entrySymbol enough
    rw [← contents] at within
    rw [loadImage_take_of_loadsWithin front loaded within]
    exact ⟨entry, loaded⟩
  case same =>
    intro answer again
    exact loadImage_take_of_loadsWithin front loaded (loadsWithin_of_loadImage_take front again)
  case fails =>
    intro error failed
    rcases loadImage_take front loaded with alike | ⟨part, memory, stopped⟩
    · rw [alike, loaded] at failed
      cases failed
    · rw [stopped] at failed ⊢
      exact ⟨⟨part, (Except.error.inj failed).symm⟩, rfl, rfl⟩

/-- What builds a program with three bytes of text and one of data. -/
def briefOperations : List Object.Operation :=
  [.edit .text (.pushBytes (.ofList [0x13, 0, 0])), .edit .data (.pushZero 1)]

/-- The names may be cut off an image, but no more than that. -/
theorem loadImage_take_encode_brief :
    let object := (Object.empty 0x1000 0x2000).run briefOperations
    object.Reachable ∧ object.IsWhole ∧
      ∃ image, object.encode "_start" = .ok image ∧
        (initial.loadImage (.memory image)).answer = .ok 0x1000 ∧
        initial.loadImage (.file (image.take 280)) = initial.loadImage (.memory image) ∧
        (∃ part, (initial.loadImage (.file (image.take 279))).answer =
          .error (.format (.truncated part))) ∧
        (initial.loadImage (.file (image.take 279))).state.pc = 0 := by
  intro object
  have reachable : object.Reachable := ⟨0x1000, 0x2000, briefOperations, rfl⟩
  have whole : object.IsWhole := by
    refine (Object.isWhole_empty 0x1000 0x2000).run ?_
    simp [briefOperations, Object.Operation.IsWhole, Section.Operation.IsWhole]
  have encoded : object.encode "_start" = .ok (object.image "_start") :=
    (Object.encode_eq_ok_iff reachable.wellFormed whole).mpr ⟨by decide, rfl⟩
  have contents (image : ByteString) : (ImageSource.memory image).contents = image := rfl
  have short (image : ByteString) : (ImageSource.file image).contents = image := rfl
  have loaded : (initial.loadImage (.memory (object.image "_start"))).answer = .ok 0x1000 :=
    Outcome.answer_eq_ok (by decide +kernel)
  obtain ⟨enough, same, -⟩ :=
    loadImage_take_encode reachable whole encoded (contents _) loaded (short (.take _ 280))
  obtain ⟨tooFew, -, fails⟩ :=
    loadImage_take_encode reachable whole encoded (contents _) loaded (short (.take _ 279))
  obtain ⟨answer, again⟩ := enough.mpr (by decide)
  refine ⟨reachable, whole, _, encoded, loaded, same answer again, ?_⟩
  cases stopped : (initial.loadImage (.file ((object.image "_start").take 279))).answer with
  | ok answer => exact absurd (tooFew.mp ⟨answer, stopped⟩) (by decide)
  | error error =>
      obtain ⟨⟨part, rfl⟩, -, pc⟩ := fails error stopped
      exact ⟨⟨part, rfl⟩, pc⟩

end Machine

end RiscvImage
