import RiscvImage.Proofs.Image.Structure
import RiscvImage.Proofs.Loading.Acceptance

/-!
# Loading what was written

Loading the image of an object maps its sections, text first, and starts the machine
at the entry address that was planned.  So the only faults that can stop it are those
of memory, and into empty memory it is known which: a section that is larger than the
limit leaves, or sections that meet.
-/

namespace RiscvImage

/-- The address ranges of two sections have an address in common. -/
def Section.Intersects (first second : Section) : Prop :=
  first.base.toNat < second.base.toNat + second.size.toNat ∧
    second.base.toNat < first.base.toNat + first.size.toNat

instance (first second : Section) : Decidable (first.Intersects second) :=
  inferInstanceAs (Decidable (_ ∧ _))

/-- The entry of a section that stands in the file is sound. -/
theorem ProgramHeader.entrySound_of_holds {file : ByteString} {header : FileHeader} {index : Nat}
    {placement : Placement} {s : Section} (inside : header.EntryInside file .programHeader index)
    (entry : ProgramHeader.atIndex file header index = placement.programHeader)
    (holds : placement.Holds file s) : EntrySound file header index := by
  constructor
  case inside => exact inside
  case supported =>
    rw [entry]
    exact .inr (.inr rfl)
  case payload =>
    intro _
    rw [entry]
    exact holds.payloadInside

/-- Both entries of an image are sound. -/
theorem Object.entrySound_image {object : Object} (wellFormed : object.WellFormed)
    (whole : object.IsWhole) (fits : Layout.imageSize object < UInt32.size)
    (entrySymbol : String) :
    ∀ index < 2, ProgramHeader.EntrySound (object.image entrySymbol)
      (object.imageHeader entrySymbol) index
  | 0, index_lt => ProgramHeader.entrySound_of_holds
      ((storesTable_image object entrySymbol .programHeader).tableInside _ index_lt)
      (atIndex_image_zero object entrySymbol)
      (holds_textPlacement wellFormed whole entrySymbol)
  | 1, index_lt => ProgramHeader.entrySound_of_holds
      ((storesTable_image object entrySymbol .programHeader).tableInside _ index_lt)
      (atIndex_image_one object entrySymbol)
      (holds_dataPlacement wellFormed whole fits entrySymbol)

namespace Memory

/-- Map the contents of a section at its base, unless there are none. -/
def mapSection (memory : Memory) (s : Section) : Outcome LoadError Memory Unit :=
  if s.size = 0 then ⟨.ok (), memory⟩
  else
    match memory.refusal? s.base s.size with
    | some error => ⟨.error (.memory error), memory⟩
    | none => ⟨.ok (), memory.insert s.region⟩

/-- The entry of a section that stands in the file maps that section. -/
theorem loadEntry_eq_mapSection (memory : Memory) {source : ImageSource} {header : FileHeader}
    {index : Nat} {placement : Placement} {s : Section}
    (inside : header.EntryInside source.contents .programHeader index)
    (entry : ProgramHeader.atIndex source.contents header index = placement.programHeader)
    (holds : placement.Holds source.contents s) (length : s.contents.length = s.size.toNat) :
    memory.loadEntry source header index = memory.mapSection s := by
  have sound := ProgramHeader.entrySound_of_holds inside entry holds
  have vaddr : placement.programHeader.vaddr = s.base := holds.address
  have memsz : placement.programHeader.memsz = s.size := holds.size
  rw [memory.loadEntry_of_sound sound, entry, holds.region_programHeader length, vaddr, memsz,
    mapSection]
  by_cases empty : s.size = 0
  · rw [if_pos empty, if_neg (mt holds.mapsRegion_iff.mp (not_not_intro empty))]
  · cases memory.refusal? s.base s.size with
    | some error => rw [if_neg empty, if_pos (holds.mapsRegion_iff.mpr empty)]
    | none => rw [if_neg empty, if_pos (holds.mapsRegion_iff.mpr empty)]

variable {object : Object} {source : ImageSource} {entrySymbol : String}

/-- The walk over the segments of an image maps its sections one after the other. -/
theorem walk_image (wellFormed : object.WellFormed) (whole : object.IsWhole)
    (fits : Layout.imageSize object < UInt32.size)
    (contents : source.contents = object.image entrySymbol) (memory : Memory) :
    memory.walk source (object.imageHeader entrySymbol) 2 =
      (memory.mapSection object.text).andThen fun _ memory => memory.mapSection object.data := by
  have inside {index : Nat} (index_lt : index < 2) :
      (object.imageHeader entrySymbol).EntryInside source.contents .programHeader index :=
    contents ▸ (Object.storesTable_image object entrySymbol .programHeader).tableInside
      index index_lt
  have text (memory : Memory) :
      memory.loadEntry source (object.imageHeader entrySymbol) 0 =
        memory.mapSection object.text :=
    memory.loadEntry_eq_mapSection (inside (by decide))
      (contents ▸ Object.atIndex_image_zero object entrySymbol)
      (contents ▸ Object.holds_textPlacement wellFormed whole entrySymbol)
      ((wellFormed.sections .text).length_contents (whole .text))
  have data (memory : Memory) :
      memory.loadEntry source (object.imageHeader entrySymbol) 1 =
        memory.mapSection object.data :=
    memory.loadEntry_eq_mapSection (inside (by decide))
      (contents ▸ Object.atIndex_image_one object entrySymbol)
      (contents ▸ Object.holds_dataPlacement wellFormed whole fits entrySymbol)
      ((wellFormed.sections .data).length_contents (whole .data))
  rw [walk_succ, walk_succ, walk_zero, Outcome.andThen_ok, text]
  simp only [data]

/-- A section with contents is refused by well-formed memory because it meets a region
or exceeds the limit. -/
theorem WellFormed.refusal?_section {memory : Memory} (memoryWellFormed : memory.WellFormed)
    {s : Section} (wellFormed : s.WellFormed) (nonempty : s.size ≠ 0) :
    memory.refusal? s.base s.size =
      match memory.regions.find? (·.meets s.base s.size) with
      | some region => some (.overlap s.base s.size region.base)
      | none =>
        if memory.limit.toNat < memory.mapped.toNat + s.size.toNat then
          some (.limitExceeded s.size memory.limit)
        else none := by
  have inside := Nat.not_lt.mpr wellFormed.inside
  cases found : memory.regions.find? (·.meets s.base s.size) with
  | some region => rw [memoryWellFormed.refusal?_eq, if_neg nonempty, if_neg inside, found]
  | none => rw [memoryWellFormed.refusal?_eq, if_neg nonempty, if_neg inside, found]

theorem answer_mapSection {memory : Memory} (memoryWellFormed : memory.WellFormed)
    {s : Section} (wellFormed : s.WellFormed) :
    (memory.mapSection s).answer =
      if s.size = 0 then .ok ()
      else
        match memory.regions.find? (·.meets s.base s.size) with
        | some region => .error (.memory (.overlap s.base s.size region.base))
        | none =>
          if memory.limit.toNat < memory.mapped.toNat + s.size.toNat then
            .error (.memory (.limitExceeded s.size memory.limit))
          else .ok () := by
  rw [mapSection]
  by_cases empty : s.size = 0
  · rw [if_pos empty, if_pos empty]
  · rw [if_neg empty, if_neg empty, memoryWellFormed.refusal?_section wellFormed empty]
    cases memory.regions.find? (·.meets s.base s.size) with
    | some region => rfl
    | none =>
        by_cases tooLarge : memory.limit.toNat < memory.mapped.toNat + s.size.toNat
        · simp only [tooLarge, if_true]
        · simp only [tooLarge, if_false]

/-- Only the limit keeps a section out of empty memory. -/
theorem refusal?_empty_section {s : Section} (wellFormed : s.WellFormed) (nonempty : s.size ≠ 0)
    (limit : UInt64) :
    (empty limit).refusal? s.base s.size =
      if limit.toNat < s.size.toNat then some (.limitExceeded s.size limit) else none := by
  have nothing : (empty limit).regions.find? (·.meets s.base s.size) = none := rfl
  have mapped : (empty limit).mapped.toNat = 0 := rfl
  have sameLimit : (empty limit).limit = limit := rfl
  rw [(wellFormed_empty limit).refusal?_section wellFormed nonempty, nothing, mapped, sameLimit,
    Nat.zero_add]

/-- The region of a section meets another section if their address ranges do. -/
theorem find?_region_section {s : Section} (length : s.contents.length = s.size.toNat)
    (other : Section) :
    [s.region].find? (·.meets other.base other.size) =
      if s.Intersects other then some s.region else none := by
  have meets : s.region.meets other.base other.size = decide (s.Intersects other) := by
    rw [Region.meets, Bool.eq_iff_iff, Bool.and_eq_true, decide_eq_true_iff, decide_eq_true_iff,
      decide_eq_true_iff, Region.stop, Region.length, Section.region, length]
    rfl
  simp only [List.find?_singleton, meets, decide_eq_true_eq]

/-- Two sections are mapped in empty memory unless one exceeds the limit or they meet. -/
theorem answer_mapSections_empty {first second : Section} (firstWellFormed : first.WellFormed)
    (secondWellFormed : second.WellFormed)
    (length : first.contents.length = first.size.toNat) (limit : UInt64) :
    (((empty limit).mapSection first).andThen fun _ memory => memory.mapSection second).answer =
      if first.size ≠ 0 ∧ limit.toNat < first.size.toNat then
        .error (.memory (.limitExceeded first.size limit))
      else if first.size ≠ 0 ∧ second.size ≠ 0 ∧ first.Intersects second then
        .error (.memory (.overlap second.base second.size first.base))
      else if second.size ≠ 0 ∧ limit.toNat < first.size.toNat + second.size.toNat then
        .error (.memory (.limitExceeded second.size limit))
      else .ok () := by
  have start := wellFormed_empty limit
  by_cases noFirst : first.size = 0
  · have zero : first.size.toNat = 0 := congrArg UInt32.toNat noFirst
    have nothing : (empty limit).regions.find? (·.meets second.base second.size) = none := rfl
    have mapped : (empty limit).mapped.toNat = 0 := rfl
    rw [mapSection, if_pos noFirst, Outcome.andThen_ok, answer_mapSection start secondWellFormed,
      nothing, mapped]
    by_cases noSecond : second.size = 0
    · simp [noFirst, noSecond]
    · simp [noFirst, noSecond, empty]
  · have refusal := refusal?_empty_section firstWellFormed noFirst limit
    by_cases tooLarge : limit.toNat < first.size.toNat
    · rw [if_pos tooLarge] at refusal
      rw [mapSection, if_neg noFirst, refusal]
      simp [noFirst, tooLarge]
    · rw [if_neg tooLarge] at refusal
      have wellFormed : ((empty limit).insert first.region).WellFormed :=
        start.insert_of_refusal? length refusal
      have regions : ((empty limit).insert first.region).regions = [first.region] := rfl
      have mapped : ((empty limit).insert first.region).mapped.toNat = first.size.toNat := by
        rw [wellFormed.counted, regions, List.map_singleton, List.sum_singleton]
        exact length
      rw [mapSection, if_neg noFirst, refusal, Outcome.andThen_ok,
        answer_mapSection wellFormed secondWellFormed, regions, find?_region_section length, mapped]
      by_cases noSecond : second.size = 0
      · simp [noSecond, tooLarge]
      · by_cases meets : first.Intersects second
        · simp [noFirst, noSecond, tooLarge, meets]
          rfl
        · simp [noFirst, noSecond, tooLarge, meets]
          rfl

end Memory

namespace Machine

/-- Loading the image of an object starts at the planned entry address and adds the
sections that are not empty to well-formed memory. -/
theorem loadImage_image {machine : Machine} (machineWellFormed : machine.memory.WellFormed)
    {object : Object} (wellFormed : object.WellFormed) (whole : object.IsWhole)
    {entrySymbol : String} (fits : Layout.imageSize object < UInt32.size) {source : ImageSource}
    (contents : source.contents = object.image entrySymbol) {entry : UInt32}
    (loaded : (machine.loadImage source).answer = .ok entry) :
    let left := (machine.loadImage source).state
    entry = (Layout.entryOf object entrySymbol).1 ∧ left.pc = entry ∧
      left.memory.WellFormed ∧
      left.memory.regions.Perm (machine.memory.regions ++
        (object.sections.filter (·.size ≠ 0)).map Section.region) := by
  obtain ⟨header, read, rfl, walked⟩ := loadImage_eq_ok_iff.mp loaded
  have expected := Object.readHeader_image wellFormed whole entrySymbol
  rw [← contents, read] at expected
  obtain rfl := Except.ok.inj expected
  have perm := Memory.regions_walk_perm walked
  rw [loadImage_of_walk_ok read walked]
  refine ⟨rfl, rfl, machineWellFormed.walk _ _ _, ?_⟩
  rw [contents] at perm
  rwa [← Object.regions_image wellFormed whole fits]

/-- What builds a program with padding in its text and the entry label behind it. -/
def sampleOperations : List Object.Operation :=
  [.edit .text (.pushWord 0x73), .edit .text (.pushAlign 16 .nop),
    .defineLabelHere "_start" .text, .edit .text (.pushZero 4),
    .edit .data (.push (.bytes (.ofList [1, 2, 3])))]

/-- The program that the operations build. -/
def sampleObject : Object :=
  (Object.empty 0x1000 0x2000).run sampleOperations

/-- The image of an object is loaded into empty memory with an outcome that the sizes
and bases of its sections decide.  Text is mapped first, so it is text that exceeds a
limit below its own size, and data that meets text or exceeds what text has left.  If
nothing stands in the way, the machine starts at the planned entry address with exactly
the sections that are not empty in memory. -/
theorem loadImage_encode {object : Object} (reachable : object.Reachable)
    (whole : object.IsWhole) {entrySymbol : String} {image : ByteString}
    (encoded : object.encode entrySymbol = .ok image) {machine : Machine} {limit : UInt64}
    (fresh : machine.memory = .empty limit) {source : ImageSource}
    (contents : source.contents = image) :
    let text := object.text
    let data := object.data
    let entry := (Layout.entryOf object entrySymbol).1
    let loaded := machine.loadImage source
    loaded.answer =
      (if text.size ≠ 0 ∧ limit.toNat < text.size.toNat then
        .error (.memory (.limitExceeded text.size limit))
      else if text.size ≠ 0 ∧ data.size ≠ 0 ∧ text.Intersects data then
        .error (.memory (.overlap data.base data.size text.base))
      else if data.size ≠ 0 ∧ limit.toNat < text.size.toNat + data.size.toNat then
        .error (.memory (.limitExceeded data.size limit))
      else .ok entry) ∧
    ∀ address, loaded.answer = .ok address →
      loaded.state.pc = entry ∧ loaded.state.registers = .replicate registerCount 0 ∧
        loaded.state.memory.regions.Perm
          ((object.sections.filter (·.size ≠ 0)).map Section.region) ∧
        loaded.state.memory.regions.Pairwise Region.Before ∧
        loaded.state.memory.mapped.toNat = text.size.toNat + data.size.toNat ∧
        loaded.state.memory.limit = limit := by
  intro text data entry loaded
  have wellFormed := reachable.wellFormed
  have start : machine.memory.WellFormed := fresh ▸ Memory.wellFormed_empty limit
  rw [Object.encode_eq wellFormed whole] at encoded
  by_cases fits : Layout.imageSize object < UInt32.size
  case neg =>
    rw [if_neg fits] at encoded
    contradiction
  rw [if_pos fits] at encoded
  obtain rfl := Except.ok.inj encoded
  have read : readHeader source.contents = .ok (object.imageHeader entrySymbol) :=
    contents ▸ Object.readHeader_image wellFormed whole entrySymbol
  have segments : (object.imageHeader entrySymbol).phnum.toNat = 2 := rfl
  constructor
  · have answer := Memory.answer_mapSections_empty (wellFormed.sections .text)
      (wellFormed.sections .data) ((wellFormed.sections .text).length_contents (whole .text)) limit
    change (machine.loadImage source).answer = _
    rw [answer_loadImage read, segments, Memory.walk_image wellFormed whole fits contents, fresh]
    refine (congrArg (Except.map fun _ => entry) answer).trans ?_
    simp only [apply_ite (Except.map fun _ => entry)]
    rfl
  · intro address answer
    obtain ⟨header, found, -, walked⟩ := loadImage_eq_ok_iff.mp answer
    obtain rfl := Except.ok.inj (read.symm.trans found)
    rw [segments] at walked
    have state : loaded.state = ⟨.replicate registerCount 0, entry,
        (machine.memory.walk source (object.imageHeader entrySymbol) 2).state⟩ :=
      congrArg Outcome.state (loadImage_of_walk_ok read walked)
    have left := start.walk source (object.imageHeader entrySymbol) 2
    have perm := Memory.regions_walk_perm walked
    have before : machine.memory.regions = [] := congrArg Memory.regions fresh
    have sameLimit : machine.memory.limit = limit := congrArg Memory.limit fresh
    rw [before, List.nil_append, contents, Object.regions_image wellFormed whole fits] at perm
    rw [state]
    refine ⟨rfl, rfl, perm, left.ordered, ?_, (machine.memory.limit_walk _ _ _).trans sameLimit⟩
    rw [left.counted, (perm.map Region.length).sum_nat]
    exact Object.sum_length_regions wellFormed whole

/-- A program with padding is loaded and starts at its label. -/
theorem loadImage_encode_sampleObject :
    sampleObject.Reachable ∧ sampleObject.IsWhole ∧
      ∃ image, sampleObject.encode "_start" = .ok image ∧
        (initial.loadImage (.memory image)).answer = .ok 0x1010 ∧
        (initial.loadImage (.memory image)).state.pc = 0x1010 := by
  have reachable : sampleObject.Reachable := ⟨0x1000, 0x2000, sampleOperations, rfl⟩
  have whole : sampleObject.IsWhole := by
    refine (Object.isWhole_empty 0x1000 0x2000).run ?_
    simp [sampleOperations, Object.Operation.IsWhole, Section.Operation.IsWhole, Item.IsWhole]
  have encoded : sampleObject.encode "_start" = .ok (sampleObject.image "_start") :=
    (Object.encode_eq reachable.wellFormed whole "_start").trans (if_pos (by decide))
  have fresh : initial.memory = .empty Memory.defaultLimit := rfl
  have contents : (ImageSource.memory (sampleObject.image "_start")).contents =
      sampleObject.image "_start" := rfl
  have entry : (Layout.entryOf sampleObject "_start").1 = 0x1010 := rfl
  obtain ⟨answer, after⟩ := loadImage_encode reachable whole encoded fresh contents
  have loaded : (initial.loadImage (.memory (sampleObject.image "_start"))).answer =
      .ok 0x1010 := by
    rw [answer, entry, if_neg (by decide), if_neg (by decide), if_neg (by decide)]
  exact ⟨reachable, whole, _, encoded, loaded, (after _ loaded).1.trans entry⟩

end Machine

end RiscvImage
