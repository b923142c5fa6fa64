import RiscvImage.Proofs.Image.Encoding
import RiscvImage.Proofs.Object.Independence

/-!
# Ragged padding

An item is expanded in two places.  Flattening takes as many words of padding with
instructions as go into its size and leaves the rest out; emission writes the padding in
chunks, and refuses a size that is not made of whole words.  So the two agree on all
sections but those with ragged padding, where the contents fall short of the size and
emission fails.  Of several stretches of ragged padding the first one is blamed.

Alignment never gives rise to ragged padding, whatever the alignment and wherever the section
is moved meanwhile: only a push of an item as it is can.
-/

namespace RiscvImage

namespace Item

/-- The size of an item that is padding with instructions. -/
def nopSize? : Item → Option UInt32
  | padding .nop size => some size
  | _ => none

/-- The sizes of all padding with instructions among some items. -/
def nopSizes (items : List Item) : List UInt32 :=
  items.filterMap nopSize?

/-- The size of the first padding with instructions that is not made of whole words. -/
def ragged? (items : List Item) : Option UInt32 :=
  (nopSizes items).find? fun size => ¬ 4 ∣ size.toNat

theorem isWhole_padding_nop_iff {size : UInt32} :
    (padding .nop size).IsWhole ↔ 4 ∣ size.toNat := by
  rw [Nat.dvd_iff_mod_eq_zero]
  exact UInt32.toNat_inj.symm

/-- Padding with instructions is all that can be ragged. -/
theorem exists_of_not_isWhole {item : Item} (ragged : ¬ item.IsWhole) :
    ∃ size, item = padding .nop size ∧ ¬ 4 ∣ size.toNat := by
  cases item with
  | bytes contents => exact absurd trivial ragged
  | zero size => exact absurd trivial ragged
  | padding fill size =>
      cases fill with
      | byte value => exact absurd trivial ragged
      | nop => exact ⟨size, rfl, mt isWhole_padding_nop_iff.mpr ragged⟩

theorem forall_isWhole_iff {items : List Item} :
    (∀ item ∈ items, item.IsWhole) ↔ ∀ size ∈ nopSizes items, 4 ∣ size.toNat := by
  constructor
  case mp =>
    intro whole size member
    obtain ⟨item, member, isNop⟩ := List.mem_filterMap.mp member
    have item_eq : item = padding .nop size := by
      unfold nopSize? at isNop
      split at isNop
      · rw [Option.some.inj isNop]
      · contradiction
    exact isWhole_padding_nop_iff.mp (item_eq ▸ whole item member)
  case mpr =>
    intro whole item member
    refine Decidable.byContradiction fun ragged => ?_
    obtain ⟨size, rfl, indivisible⟩ := exists_of_not_isWhole ragged
    exact indivisible (whole size (List.mem_filterMap.mpr ⟨_, member, rfl⟩))

theorem ragged?_eq_none_iff {items : List Item} :
    ragged? items = none ↔ ∀ item ∈ items, item.IsWhole := by
  simp [ragged?, forall_isWhole_iff]

theorem ragged?_append (front rest : List Item) :
    ragged? (front ++ rest) = (ragged? front).or (ragged? rest) := by
  rw [ragged?, nopSizes, List.filterMap_append, List.find?_append]
  rfl

theorem ragged?_padding_nop {size : UInt32} (ragged : ¬ 4 ∣ size.toNat) :
    ragged? [padding .nop size] = some size :=
  List.find?_cons_of_pos (decide_eq_true ragged)

/-- The contents of an item fall short of its length by what is left of padding with
instructions after its words. -/
theorem length_contents_add (item : Item) :
    item.contents.length + ((nopSizes [item]).map (·.toNat % 4)).sum = item.length := by
  cases item with
  | bytes contents => rfl
  | zero size => exact ByteString.length_zero size.toNat
  | padding fill size =>
      cases fill with
      | byte value => exact length_contents (isWhole_padding_byte value size)
      | nop =>
          have pattern : (Fill.pattern .nop).length = 4 := rfl
          have left : ((nopSizes [padding .nop size]).map (·.toNat % 4)).sum = size.toNat % 4 :=
            rfl
          rw [left, contents, ByteString.length_repeated, pattern, length, Nat.div_add_mod']

theorem length_concat_contents_add (items : List Item) :
    (ByteString.concat (items.map contents)).length +
      ((nopSizes items).map (·.toNat % 4)).sum = (items.map length).sum := by
  induction items with
  | nil => rfl
  | cons item rest ih =>
      have head := length_contents_add item
      have split : nopSizes (item :: rest) = nopSizes [item] ++ nopSizes rest :=
        List.filterMap_append (l := [item])
      rw [split, List.map_cons, List.map_cons, List.map_append, List.sum_append, List.sum_cons,
        ByteString.concat_cons, ByteString.length_append]
      omega

/-- The answer to work that fails for ragged padding only. -/
def verdict : Option UInt32 → Except WriteError Unit
  | some size => .error (.raggedPadding size)
  | none => .ok ()

end Item

/-- Work on a sink that takes everything: if it fails, then for the ragged padding given. -/
structure Outcome.Blames (outcome : Outcome WriteError Sink Unit) (ragged : Option UInt32) :
    Prop where
  answer : outcome.answer = Item.verdict ragged
  grows : outcome.state.grows = true

/-- Work that goes on unless it fails is blamed on the first ragged padding. -/
theorem Outcome.Blames.andThen {first : Outcome WriteError Sink Unit}
    {next : Sink → Outcome WriteError Sink Unit} {front rest : Option UInt32}
    (before : first.Blames front)
    (after : ∀ sink : Sink, sink.grows = true → (next sink).Blames rest) :
    (first.andThen fun _ sink => next sink).Blames (front.or rest) := by
  rcases first with ⟨answer, sink⟩
  obtain rfl : answer = _ := before.answer
  cases front with
  | some size => exact ⟨rfl, before.grows⟩
  | none => exact after sink before.grows

/-- A sink that grows takes all bytes and grows on. -/
theorem Sink.blames_write (sink : Sink) (grows : sink.grows = true) (data : ByteString) :
    (sink.write data).writing.Blames none := by
  rw [write_of_grows grows]
  exact ⟨rfl, (sink.grows_store data).trans grows⟩

namespace Item

theorem blames_emit (item : Item) {sink : Sink} (grows : sink.grows = true) :
    (item.emit sink).Blames (ragged? [item]) := by
  by_cases whole : item.IsWhole
  case pos =>
    have none : ragged? [item] = none :=
      ragged?_eq_none_iff.mpr fun other member => List.mem_singleton.mp member ▸ whole
    rw [none, emit_eq_write whole]
    exact sink.blames_write grows _
  case neg =>
    obtain ⟨size, rfl, indivisible⟩ := exists_of_not_isWhole whole
    have ragged : ¬ size % 4 = 0 := whole
    rw [ragged?_padding_nop indivisible, emit, if_neg ragged]
    exact ⟨rfl, grows⟩

theorem blames_emitEach (items : List Item) (sink : Sink) (grows : sink.grows = true) :
    (emitEach sink items).Blames (ragged? items) := by
  induction items generalizing sink with
  | nil => exact ⟨rfl, grows⟩
  | cons item rest ih =>
      have split : ragged? (item :: rest) = (ragged? [item]).or (ragged? rest) :=
        ragged?_append [item] rest
      rw [split, emitEach]
      exact (blames_emit item grows).andThen ih

end Item

namespace Object

variable {object : Object} {sink : Sink}

theorem blames_emitSections (object : Object) (placements : List Placement) (sink : Sink)
    (grows : sink.grows = true) :
    (object.emitSections sink placements).Blames
      (Item.ragged? (placements.flatMap fun placement => (object.get placement.kind).items)) := by
  induction placements generalizing sink with
  | nil => exact ⟨rfl, grows⟩
  | cons placement rest ih =>
      rw [List.flatMap_cons, Item.ragged?_append, emitSections]
      have placed := Item.blames_emitEach (object.get placement.kind).items
        (sink.seek placement.offset.toNat) grows
      exact placed.andThen ih

/-- The size of the first ragged padding in the sections of an object. -/
def ragged? (object : Object) : Option UInt32 :=
  Item.ragged? (object.text.items ++ object.data.items)

theorem ragged?_eq_none_iff : object.ragged? = none ↔ object.IsWhole := by
  rw [ragged?, Item.ragged?_append, Option.or_eq_none_iff, Item.ragged?_eq_none_iff,
    Item.ragged?_eq_none_iff]
  constructor
  · rintro ⟨text, data⟩ kind
    cases kind with
    | text => exact text
    | data => exact data
  · exact fun whole => ⟨whole .text, whole .data⟩

/-- An object that can be planned is refused for its first ragged padding only. -/
theorem answer_emit_of_grows (wellFormed : object.WellFormed) (entrySymbol : String)
    (grows : sink.grows = true) :
    (object.emit entrySymbol sink).answer =
      if Layout.imageSize object < UInt32.size then
        (Item.verdict object.ragged?).map fun _ => Layout.planned object entrySymbol
      else .error .tooLarge := by
  rw [emit, Layout.plan_eq wellFormed.kinds]
  by_cases fits : Layout.imageSize object < UInt32.size
  case neg => rw [if_neg fits, if_neg fits]
  rw [if_pos fits, if_pos fits]
  have placed : ((Layout.planned object entrySymbol).placements.flatMap fun placement =>
      (object.get placement.kind).items) = object.text.items ++ object.data.items := by
    simp [Layout.planned, Layout.textPlacement, Layout.dataPlacement, get]
  -- Neither the header block nor the names can be blamed, so the items of the sections decide.
  have header := (sink.seek 0).blames_write grows
    (.ofList (Layout.planned object entrySymbol).headerBlock)
  have sections := object.blames_emitSections (Layout.planned object entrySymbol).placements
  have names (stop : Sink) (growsStop : stop.grows = true) :=
    (stop.seek (Layout.planned object entrySymbol).namesOffset.toNat).blames_write growsStop
      Layout.nameTable.contents
  have written := header.andThen fun start growsStart => (sections start growsStart).andThen names
  rw [placed, Option.none_or, Option.or_none] at written
  exact congrArg (Except.map fun _ => _) written.answer

/-- An object has an image unless that would be too large or there is ragged padding. -/
theorem encode_eq_verdict (wellFormed : object.WellFormed) (entrySymbol : String) :
    object.encode entrySymbol =
      if Layout.imageSize object < UInt32.size then
        (Item.verdict object.ragged?).map fun _ => object.image entrySymbol
      else .error .tooLarge := by
  cases ragged : object.ragged? with
  | none => exact encode_eq wellFormed (ragged?_eq_none_iff.mp ragged) entrySymbol
  | some size =>
      have grows : Sink.empty.grows = true := rfl
      have answer := answer_emit_of_grows wellFormed entrySymbol grows
      rw [ragged] at answer
      rw [encode, answer]
      split <;> rfl

end Object

namespace Section

variable {s : Section}

/-- A push of padding with instructions as it is. -/
def Operation.PushesNop (operation : Operation) : Prop :=
  ∃ size, operation = .push (.padding .nop size)

/-- The section has a history in which only alignment adds padding with instructions. -/
def AlignedOnly (s : Section) : Prop :=
  ∃ (kind : SectionKind) (base : UInt32) (operations : List Operation),
    (∀ operation ∈ operations, ¬ operation.PushesNop) ∧ s = (empty kind base).run operations

/-- Emitting the section writes its contents, which make up all of its size. -/
structure EmitsContents (s : Section) : Prop where
  length : s.contents.length = s.size.toNat
  written : ∀ sink : Sink, Item.emitEach sink s.items = (sink.write s.contents).writing
  taken : ∀ sink : Sink, sink.grows = true →
    Item.emitEach sink s.items = ⟨.ok (), sink.store s.contents⟩

theorem Operation.isWhole_of_not_pushesNop {operation : Operation}
    (other : ¬ operation.PushesNop) : operation.IsWhole := by
  cases operation with
  | push item =>
      by_cases whole : item.IsWhole
      case pos => exact whole
      case neg =>
        obtain ⟨size, rfl, -⟩ := Item.exists_of_not_isWhole whole
        exact absurd ⟨size, rfl⟩ other
  | _ => trivial

theorem IsWhole.run (whole : s.IsWhole) {operations : List Operation}
    (isWhole : ∀ operation ∈ operations, operation.IsWhole) : (s.run operations).IsWhole := by
  induction operations generalizing s with
  | nil => exact whole
  | cons operation rest ih =>
      have first := whole.apply (isWhole operation List.mem_cons_self)
      exact ih first fun later member => isWhole later (List.mem_cons_of_mem operation member)

/-- Alignment leaves no ragged padding behind. -/
theorem AlignedOnly.isWhole (aligned : s.AlignedOnly) : s.IsWhole := by
  obtain ⟨kind, base, operations, others, rfl⟩ := aligned
  have start : (empty kind base).IsWhole := fun item member => absurd member List.not_mem_nil
  exact start.run fun operation member =>
    Operation.isWhole_of_not_pushesNop (others operation member)

theorem WellFormed.length_contents_add (wellFormed : s.WellFormed) :
    s.contents.length + ((Item.nopSizes s.items).map (·.toNat % 4)).sum = s.size.toNat :=
  (Item.length_concat_contents_add s.items).trans wellFormed.counted.symm

theorem WellFormed.emitsContents (wellFormed : s.WellFormed) (whole : s.IsWhole) :
    s.EmitsContents where
  length := wellFormed.length_contents whole
  written sink := Item.emitEach_eq_write whole sink
  taken sink grows := by
    have written : Item.emitEach sink s.items = (sink.write s.contents).writing :=
      Item.emitEach_eq_write whole sink
    rw [written, Sink.write_of_grows grows]
    rfl

end Section

namespace Object

variable {object : Object}

theorem plan_eq_ok_iff (wellFormed : object.WellFormed) {entrySymbol : String} :
    (∃ planned, Layout.plan object entrySymbol = .ok planned) ↔
      Layout.imageSize object < UInt32.size := by
  rw [Layout.plan_eq wellFormed.kinds]
  split
  case isTrue fits => exact iff_of_true ⟨_, rfl⟩ fits
  case isFalse tooLarge => exact iff_of_false (fun ⟨_, planned⟩ => nomatch planned) tooLarge

/-- Ragged padding is the reason for a refusal if and only if the object can be planned and
there is some. -/
theorem encode_eq_raggedPadding_iff (wellFormed : object.WellFormed) (entrySymbol : String) :
    (∃ size, object.encode entrySymbol = .error (.raggedPadding size)) ↔
      (∃ planned, Layout.plan object entrySymbol = .ok planned) ∧ ¬ object.IsWhole := by
  rw [plan_eq_ok_iff wellFormed, encode_eq_verdict wellFormed, ← ragged?_eq_none_iff]
  by_cases fits : Layout.imageSize object < UInt32.size
  case neg => simp [fits]
  case pos => cases ragged : object.ragged? <;> simp [fits, Item.verdict, Except.map]

/-- What is emitted of a section is what it contains, unless some of its padding with
instructions is ragged.  Then the contents are short by what is ragged, and no object with
the section is encoded; and it never comes to that if only alignment adds such padding. -/
theorem emission_agrees_with_contents {s : Section} (built : s.Reachable)
    (reachable : object.Reachable) (entrySymbol : String) :
    s.contents.length + ((Item.nopSizes s.items).map (·.toNat % 4)).sum = s.size.toNat ∧
    ((∀ size ∈ Item.nopSizes s.items, 4 ∣ size.toNat) → s.EmitsContents) ∧
    ((∃ size, object.encode entrySymbol = .error (.raggedPadding size)) ↔
      (∃ planned, Layout.plan object entrySymbol = .ok planned) ∧
        ∃ kind, ∃ size ∈ Item.nopSizes (object.get kind).items, ¬ 4 ∣ size.toNat) ∧
    (s.AlignedOnly →
      (∀ size ∈ Item.nopSizes s.items, 4 ∣ size.toNat) ∧ s.contents.length = s.size.toNat) ∧
    ((∀ kind, (object.get kind).AlignedOnly) →
      ∀ size, object.encode entrySymbol ≠ .error (.raggedPadding size)) := by
  have refusal := encode_eq_raggedPadding_iff reachable.wellFormed entrySymbol
  refine ⟨?short, ?emitted, ?refused, ?aligned, ?encoded⟩
  case short => exact built.wellFormed.length_contents_add
  case emitted =>
    intro divisible
    exact built.wellFormed.emitsContents (Item.forall_isWhole_iff.mpr divisible)
  case refused =>
    have ragged : ¬ object.IsWhole ↔
        ∃ kind, ∃ size ∈ Item.nopSizes (object.get kind).items, ¬ 4 ∣ size.toNat := by
      simp only [IsWhole, Section.IsWhole, Item.forall_isWhole_iff, not_forall, exists_prop]
    rw [refusal, ragged]
  case aligned =>
    intro aligned
    exact ⟨Item.forall_isWhole_iff.mp aligned.isWhole,
      built.wellFormed.length_contents aligned.isWhole⟩
  case encoded =>
    intro aligned size refused
    exact (refusal.mp ⟨size, refused⟩).2 fun kind => (aligned kind).isWhole

/-- An object with six bytes of padding with instructions that were pushed as they are. -/
def raggedObject : Object :=
  (empty 0 0x100).run [.edit .text (.push (.padding .nop 6))]

/-- The same padding as alignment puts it there, after the section has been moved. -/
def alignedObject : Object :=
  (empty 0 0x100).run [.edit .text (.setBase 2), .edit .text (.pushAlign 8 .nop)]

/-- Of six bytes that were pushed four have contents, and the object is refused; the six
bytes of alignment are all there. -/
theorem emission_agrees_with_contents_samples :
    raggedObject.Reachable ∧ raggedObject.text.Reachable ∧ alignedObject.Reachable ∧
      alignedObject.text.Reachable ∧ raggedObject.text.contents.length + 2 = 6 ∧
      (∃ size, raggedObject.encode "_start" = .error (.raggedPadding size)) ∧
      alignedObject.text.AlignedOnly ∧ alignedObject.text.EmitsContents ∧
      alignedObject.text.contents.length = 6 ∧
      ∀ size, alignedObject.encode "_start" ≠ .error (.raggedPadding size) := by
  have raggedReachable : raggedObject.Reachable := ⟨0, 0x100, _, rfl⟩
  have alignedReachable : alignedObject.Reachable := ⟨0, 0x100, _, rfl⟩
  have textAligned : alignedObject.text.AlignedOnly :=
    ⟨.text, 0, [.setBase 2, .pushAlign 8 .nop], by simp [Section.Operation.PushesNop], rfl⟩
  have dataAligned : alignedObject.data.AlignedOnly := ⟨.data, 0x100, [], by simp, rfl⟩
  obtain ⟨short, -, refused, -, -⟩ :=
    emission_agrees_with_contents (raggedReachable.get .text) raggedReachable "_start"
  obtain ⟨-, emitted, -, aligned, encoded⟩ :=
    emission_agrees_with_contents (alignedReachable.get .text) alignedReachable "_start"
  obtain ⟨divisible, length⟩ := aligned textAligned
  have planned : ∃ planned, Layout.plan raggedObject "_start" = .ok planned :=
    (plan_eq_ok_iff raggedReachable.wellFormed).mpr (by decide)
  refine ⟨raggedReachable, raggedReachable.get .text, alignedReachable, alignedReachable.get .text,
    short, refused.mpr ⟨planned, .text, 6, ?_, by decide⟩, textAligned, emitted divisible,
    length, encoded fun kind => ?_⟩
  · decide
  · cases kind with
    | text => exact textAligned
    | data => exact dataAligned

end Object

end RiscvImage
