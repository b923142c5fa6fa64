import RiscvImage.Proofs.Image.Tiling
import RiscvImage.Proofs.Loading.Footprint
import RiscvImage.Proofs.Loading.RoundTrip

/-!
# Images over earlier contents

An image is written over whatever a sink holds, from the beginning on and wherever the sink
stood before.  A sink that grows keeps what it had beyond the end of the image, and a load
does not see that.  A sink of a fixed size takes the front of the image that it has room
for, whatever part of the image the cut goes through, and keeps the rest of its own bytes.
-/

namespace RiscvImage

namespace Machine

/-- What follows an image makes no difference to any machine, whether or not the machine
has room for the sections. -/
theorem loadImage_image_append {object : Object} (wellFormed : object.WellFormed)
    (whole : object.IsWhole) {entrySymbol : String} (fits : Layout.imageSize object < UInt32.size)
    {source other : ImageSource} (contents : source.contents = object.image entrySymbol)
    {trailing : ByteString} (extended : other.contents = source.contents ++ trailing)
    (machine : Machine) : machine.loadImage other = machine.loadImage source := by
  have read : readHeader source.contents = .ok (object.imageHeader entrySymbol) :=
    contents ▸ Object.readHeader_image wellFormed whole entrySymbol
  have sound : ∀ index < 2, ProgramHeader.EntrySound source.contents
      (object.imageHeader entrySymbol) index :=
    contents ▸ Object.entrySound_image wellFormed whole fits entrySymbol
  exact machine.loadImage_append read sound extended

end Machine

namespace Object

variable {object : Object} {sink : Sink}

/-- A sink of a fixed size takes the front of an image that it has room for. -/
theorem emit_of_fixed (wellFormed : object.WellFormed) (whole : object.IsWhole)
    (entrySymbol : String) (fits : Layout.imageSize object < UInt32.size)
    (fixed : sink.grows = false) :
    object.emit entrySymbol sink =
      ⟨if (object.image entrySymbol).length ≤ sink.contents.length then
          .ok (Layout.planned object entrySymbol)
        else .error (.io .noRoom),
        (sink.seek 0).store ((object.image entrySymbol).take sink.contents.length)⟩ := by
  have fixedOn : (sink.seek 0).grows = false := fixed
  rw [emit_eq_write wellFormed whole, if_pos fits, Sink.write_of_fixed fixedOn,
    Sink.room_seek_zero]
  by_cases room : (object.image entrySymbol).length ≤ sink.contents.length
  · rw [if_pos room, if_pos room]
    rfl
  · rw [if_neg room, if_neg room]
    rfl

/-- A program that has an image is written with the planned layout to every sink that grows.
The image replaces what the sink held from its beginning on, the sink stands at the end of
the image, and a machine loads what the sink holds as it would load the image.  A sink of a
fixed size takes the image if there is room for all of it; otherwise the write fails, and
the sink holds the front of the image. -/
theorem emit_over_earlier (reachable : object.Reachable) (whole : object.IsWhole)
    {entrySymbol : String} {image : ByteString}
    (encoded : object.encode entrySymbol = .ok image) :
    ∃ layout names, Layout.plan object entrySymbol = .ok (layout, names) ∧
      layout.fileSize.toNat = image.length ∧
      (∀ sink : Sink, sink.grows = true →
        let emitted := object.emit entrySymbol sink
        emitted.answer = .ok layout ∧
        emitted.state.contents = image ++ sink.contents.drop image.length ∧
        emitted.state.position = layout.fileSize.toNat ∧
        ∀ (machine : Machine) (source other : ImageSource), source.contents = image →
          other.contents = emitted.state.contents →
            machine.loadImage other = machine.loadImage source) ∧
      ∀ sink : Sink, sink.grows = false →
        let emitted := object.emit entrySymbol sink
        let taken := min sink.contents.length image.length
        (image.length ≤ sink.contents.length → emitted.answer = .ok layout) ∧
        (sink.contents.length < image.length → ∃ fault, emitted.answer = .error (.io fault) ∧
          fault.message = "failed to write whole buffer") ∧
        emitted.state.contents = image.take taken ++ sink.contents.drop taken := by
  have wellFormed := reachable.wellFormed
  obtain ⟨fits, rfl⟩ := (encode_eq_ok_iff wellFormed whole).mp encoded
  have fileSize : (Layout.planned object entrySymbol).fileSize.toNat =
      (object.image entrySymbol).length :=
    (Layout.toNat_fileSize fits entrySymbol).trans (length_image wellFormed whole _).symm
  refine ⟨Layout.planned object entrySymbol, Layout.nameTable, ?plan, fileSize, ?growing, ?fixed⟩
  case plan => rw [Layout.plan_eq wellFormed.kinds, if_pos fits]
  case growing =>
    intro sink grows emitted
    have outcome : emitted = _ := emit_of_grows wellFormed whole entrySymbol fits grows
    have contents : emitted.state.contents = object.image entrySymbol ++
        sink.contents.drop (object.image entrySymbol).length := by
      rw [outcome, Sink.contents_store_seek_zero, ByteString.overwrite_zero]
    refine ⟨congrArg Outcome.answer outcome, contents, ?_, ?_⟩
    · rw [outcome, Sink.position_store, Sink.seek, Sink.position_standingAt, Nat.zero_add, fileSize]
    · intro machine source other source_eq other_eq
      rw [contents, ← source_eq] at other_eq
      exact machine.loadImage_image_append wellFormed whole fits source_eq other_eq
  case fixed =>
    intro sink fixed emitted taken
    have outcome : emitted = _ := emit_of_fixed wellFormed whole entrySymbol fits fixed
    refine ⟨fun room => ?_, fun short => ⟨.noRoom, ?_, rfl⟩, ?_⟩
    · rw [outcome, if_pos room]
    · rw [outcome, if_neg (Nat.not_le_of_lt short)]
    · have front : (object.image entrySymbol).take sink.contents.length =
          (object.image entrySymbol).take taken := by
        ext1
        rw [ByteString.bytes_take, ByteString.bytes_take, List.take_eq_take_iff,
          ByteString.length_bytes, Nat.min_assoc, Nat.min_self]
      rw [outcome, Sink.contents_store_seek_zero, ByteString.overwrite_zero,
        ByteString.length_take, front]

/-- A program is written over more and over less than it needs. -/
theorem emit_over_earlier_sampleObject :
    let object := Machine.sampleObject
    let grown := (object.emit "_start" (.growing (.zero 400) 500)).state
    let cut := object.emit "_start" (.fixed (.zero 100))
    object.Reachable ∧ object.IsWhole ∧ ∃ image, object.encode "_start" = .ok image ∧
      grown.contents = image ++ .zero 80 ∧ grown.position = image.length ∧
      Machine.initial.loadImage (.file grown.contents) =
        Machine.initial.loadImage (.memory image) ∧
      (∃ fault, cut.answer = .error (.io fault)) ∧ cut.state.contents = image.take 100 := by
  intro object grown cut
  have reachable : object.Reachable := ⟨0x1000, 0x2000, Machine.sampleOperations, rfl⟩
  have whole : object.IsWhole := by
    refine (isWhole_empty 0x1000 0x2000).run ?_
    simp [Machine.sampleOperations, Operation.IsWhole, Section.Operation.IsWhole, Item.IsWhole]
  have encoded : object.encode "_start" = .ok (object.image "_start") :=
    (encode_eq_ok_iff reachable.wellFormed whole).mpr ⟨by decide, rfl⟩
  have length : (object.image "_start").length = 320 :=
    (length_image reachable.wellFormed whole _).trans (by decide)
  obtain ⟨layout, names, -, fileSize, growing, fixed⟩ := emit_over_earlier reachable whole encoded
  obtain ⟨-, contents, position, loaded⟩ := growing (.growing (.zero 400) 500) rfl
  obtain ⟨-, short, front⟩ := fixed (.fixed (.zero 100)) rfl
  have earlier : (Sink.growing (.zero 400) 500).contents = .zero 400 :=
    Sink.contents_standingAt _ _ _
  have room : (Sink.fixed (.zero 100)).contents = .zero 100 := Sink.contents_standingAt _ _ _
  rw [earlier, length] at contents
  rw [room, ByteString.length_zero, length] at short front
  obtain ⟨fault, refused, -⟩ := short (by decide)
  have kept (size count : Nat) : (ByteString.zero size).drop count = .zero (size - count) := by
    ext1
    simp
  have none : (ByteString.zero 100).drop 100 = .empty :=
    (kept 100 100).trans (ByteString.eq_empty_of_length_eq_zero (ByteString.length_zero 0))
  rw [kept] at contents
  rw [show min 100 320 = 100 from rfl, none, ByteString.append_empty] at front
  have memory (bytes : ByteString) : (ImageSource.memory bytes).contents = bytes := rfl
  have file (bytes : ByteString) : (ImageSource.file bytes).contents = bytes := rfl
  have alike := loaded Machine.initial _ _ (memory _) (file _)
  exact ⟨reachable, whole, _, encoded, contents, position.trans fileSize, alike,
    ⟨fault, refused⟩, front⟩

end Object

end RiscvImage
