import RiscvImage.Proofs.Loading.RoundTrip
import RiscvImage.Proofs.Memory.Access
import RiscvImage.Proofs.Object.Growth

/-!
# Addresses from building to running

The addresses that are handed out while an object is built are those of the running
program.  After the image of the object is written and loaded, the bytes of every item are
read at the address that its push has answered, and a machine that starts at a label starts
at the item that was pushed behind it.
-/

namespace RiscvImage

namespace Memory

/-- An item with bytes is read at its address if its section is mapped. -/
theorem WellFormed.read_of_standsAt {memory : Memory} (memoryWellFormed : memory.WellFormed)
    {s : Section} (wellFormed : s.WellFormed) (whole : s.IsWhole)
    (mapped : s.region ∈ memory.regions) {item : Item} {address : UInt32}
    (stands : s.StandsAt item address) (nonempty : 0 < item.length) :
    memory.read address item.length = .ok item.contents := by
  obtain ⟨offset, position, ends, window⟩ :=
    wellFormed.window_of_standsAt whole stands nonempty
  have begins : offset < s.contents.length := by omega
  rw [memoryWellFormed.read_eq_window mapped position begins ends]
  exact congrArg Except.ok window

end Memory

namespace Machine

/-- A section that holds an item is mapped when the image of its object is loaded. -/
theorem region_mem_of_standsAt {machine : Machine} (machineWellFormed : machine.memory.WellFormed)
    {object : Object} (wellFormed : object.WellFormed) (whole : object.IsWhole)
    {entrySymbol : String} (fits : Layout.imageSize object < UInt32.size) {source : ImageSource}
    (contents : source.contents = object.image entrySymbol) {entry : UInt32}
    (loaded : (machine.loadImage source).answer = .ok entry) {kind : SectionKind} {item : Item}
    {address : UInt32} (stands : (object.get kind).StandsAt item address)
    (nonempty : 0 < item.length) :
    (object.get kind).region ∈ (machine.loadImage source).state.memory.regions := by
  obtain ⟨-, -, -, perm⟩ := loadImage_image machineWellFormed wellFormed whole fits contents loaded
  obtain ⟨offset, -, ends, -⟩ :=
    (wellFormed.sections kind).window_of_standsAt (whole kind) stands nonempty
  have length := (wellFormed.sections kind).length_contents (whole kind)
  -- The bytes of the item keep the section from being passed over as empty.
  have filled : (object.get kind).size ≠ 0 := by
    intro zero
    rw [zero, UInt32.toNat_zero] at length
    omega
  have listed : object.get kind ∈ object.sections := by
    cases kind
    · exact List.mem_cons_self
    · exact List.mem_cons_of_mem _ List.mem_cons_self
  refine perm.mem_iff.mpr (List.mem_append_right _ (List.mem_map_of_mem ?_))
  exact List.mem_filter.mpr ⟨listed, decide_eq_true filled⟩

/-- In every history of an object in which sections are moved first, each push of an item
with bytes answers the address at which these bytes are read when the image of the object
has been loaded.  A label that was given to the end of a section, just as long as it is when
the item is pushed, is found at that address, so a machine that starts at the label starts
at the item. -/
theorem loadImage_read_pushed {textBase dataBase : UInt32} {operations : List Object.Operation}
    (movesFirst : Object.MovesFirst operations) {object : Object}
    (built : object = (Object.empty textBase dataBase).run operations) (whole : object.IsWhole)
    {entrySymbol : String} {image : ByteString} (encoded : object.encode entrySymbol = .ok image)
    {machine : Machine} (reachable : machine.Reachable) {source : ImageSource}
    (contents : source.contents = image) {entry : UInt32}
    (loaded : (machine.loadImage source).answer = .ok entry) :
    let start := Object.empty textBase dataBase
    let left := (machine.loadImage source).state
    (∀ before kind operation after item address,
      operations = before ++ .edit kind operation :: after →
      ((start.run before).get kind).Pushes operation item address → 0 < item.length →
        left.memory.read address item.length = .ok item.contents) ∧
    ∀ before name kind between operation after labelled item address,
      operations = before ++ .defineLabelHere name kind :: between ++ .edit kind operation :: after →
      ((start.run before).defineLabelHere name kind).answer = .ok labelled →
      ((start.run (before ++ .defineLabelHere name kind :: between)).get kind).size =
        ((start.run before).get kind).size →
      ((start.run (before ++ .defineLabelHere name kind :: between)).get kind).Pushes
        operation item address →
        object.findLabel? name = some address ∧
          (entrySymbol = name → entry = address ∧ left.pc = address) := by
  intro start left
  have wellFormed : object.WellFormed :=
    built ▸ (Object.wellFormed_empty textBase dataBase).run operations
  obtain ⟨fits, rfl⟩ := (Object.encode_eq_ok_iff wellFormed whole).mp encoded
  obtain ⟨entry_eq, pc, memoryWellFormed, -⟩ :=
    loadImage_image reachable.wellFormed wellFormed whole fits contents loaded
  constructor
  · rintro before kind operation after item address rfl pushes nonempty
    have stands : (object.get kind).StandsAt item address :=
      built ▸ Object.standsAt_run movesFirst pushes
    exact memoryWellFormed.read_of_standsAt (wellFormed.sections kind) (whole kind)
      (region_mem_of_standsAt reachable.wellFormed wellFormed whole fits contents loaded stands
        nonempty) stands nonempty
  · rintro before name kind between operation after labelled item address rfl defined size pushes
    have found : object.findLabel? name = some address :=
      built ▸ Object.findLabel?_run_eq movesFirst defined size pushes
    refine ⟨found, ?_⟩
    rintro rfl
    have started : (Layout.entryOf object entrySymbol).1 = address := by
      rw [Layout.entryOf, found]
    rw [started] at entry_eq
    exact ⟨entry_eq, pc.trans entry_eq⟩

/-- What builds a program with a label behind padding in its text, and with data that ends
where the address space ends. -/
def outermostOperations : List Object.Operation :=
  [.edit .data (.setBase 0xfffffffc), .edit .text (.pushWord 0x13),
    .edit .text (.pushAlign 8 .nop), .defineLabelHere "_start" .text,
    .edit .data (.pushWord 0xdeadbeef), .edit .text (.pushBytes (.ofList [1, 2, 3]))]

/-- The last word of the address space is read where it was pushed, and the machine starts
at the label. -/
theorem loadImage_read_pushed_outermost :
    let object := (Object.empty 0x1000 0).run outermostOperations
    Object.MovesFirst outermostOperations ∧ object.IsWhole ∧
      ∃ image, object.encode "_start" = .ok image ∧ initial.Reachable ∧
        (initial.loadImage (.memory image)).answer = .ok 0x1008 ∧
        (initial.loadImage (.memory image)).state.memory.read 0xfffffffc 4 =
          .ok (.ofList (LittleEndian.word 0xdeadbeef)) ∧
        object.findLabel? "_start" = some 0x1008 ∧
        (initial.loadImage (.memory image)).state.pc = 0x1008 := by
  intro object
  have movesFirst : Object.MovesFirst outermostOperations := by
    simp [outermostOperations, Object.MovesFirst, Object.Operation.Moves, Section.Operation.Moves]
  have whole : object.IsWhole := by
    refine (Object.isWhole_empty 0x1000 0).run ?_
    simp [outermostOperations, Object.Operation.IsWhole, Section.Operation.IsWhole]
  have wellFormed : object.WellFormed :=
    (Object.wellFormed_empty 0x1000 0).run outermostOperations
  have encoded : object.encode "_start" = .ok (object.image "_start") :=
    (Object.encode_eq_ok_iff wellFormed whole).mpr ⟨by decide, rfl⟩
  have reachable : initial.Reachable := reachable_withMemory_empty Memory.defaultLimit
  have loaded : (initial.loadImage (.memory (object.image "_start"))).answer = .ok 0x1008 :=
    Outcome.answer_eq_ok (by decide +kernel)
  have contents (image : ByteString) : (ImageSource.memory image).contents = image := rfl
  obtain ⟨pushed, labelled⟩ :=
    loadImage_read_pushed movesFirst rfl whole encoded reachable (contents _) loaded
  have word : (((Object.empty 0x1000 0).run (outermostOperations.take 4)).get .data).Pushes
      (.pushWord 0xdeadbeef) (.bytes (.ofList (LittleEndian.word 0xdeadbeef))) 0xfffffffc :=
    .word rfl
  have bytes : (((Object.empty 0x1000 0).run (outermostOperations.take 5)).get .text).Pushes
      (.pushBytes (.ofList [1, 2, 3])) (.bytes (.ofList [1, 2, 3])) 0x1008 :=
    .bytes rfl
  have read := pushed (outermostOperations.take 4) .data (.pushWord 0xdeadbeef)
    (outermostOperations.drop 5) _ 0xfffffffc rfl word (by decide)
  obtain ⟨found, starts⟩ := labelled (outermostOperations.take 3) "_start" .text
    [.edit .data (.pushWord 0xdeadbeef)] (.pushBytes (.ofList [1, 2, 3])) [] 0x1008 _ 0x1008
    rfl rfl rfl bytes
  exact ⟨movesFirst, whole, _, encoded, reachable, loaded, read, found, (starts rfl).2⟩

end Machine

end RiscvImage
