import RiscvImage.Image.Emission
import RiscvImage.Proofs.Host.Sink
import RiscvImage.Proofs.Object.Reachable

/-!
# Emitting sections

Emitting an item in chunks is one write of its contents, and so is emitting a whole
section or several of them, provided that each of them is placed where the one before
it ends.  Then the moves between the parts are none at all.
-/

namespace RiscvImage

namespace ByteString

variable {pattern : List UInt8}

/-- Repetitions of a pattern go through it from its first byte on, over and over. -/
theorem getElem?_repeated (pattern : List UInt8) {count index : Nat}
    (inside : index < count * pattern.length) :
    (repeated pattern count).bytes[index]? = pattern[index % pattern.length]? := by
  rw [bytes_repeated]
  induction count generalizing index with
  | zero => omega
  | succ count ih =>
      rw [List.replicate_succ, List.flatten_cons]
      by_cases first : index < pattern.length
      case pos => rw [List.getElem?_append_left first, Nat.mod_eq_of_lt first]
      case neg =>
        have later : index - pattern.length < count * pattern.length := by
          rw [Nat.succ_mul] at inside
          omega
        rw [List.getElem?_append_right (Nat.le_of_not_lt first), ih later,
          ← Nat.mod_eq_sub_mod (Nat.le_of_not_lt first)]

/-- The byte at a position of a repeated pattern only depends on where in the pattern the
position falls. -/
theorem getElem?_cyclic (wide : 0 < pattern.length) (count index : Nat) :
    (cyclic pattern count).bytes[index]? =
      if index < count then pattern[index % pattern.length]? else none := by
  rw [cyclic, bytes_take, List.getElem?_take]
  split
  case isTrue inside =>
    refine getElem?_repeated pattern (Nat.lt_of_lt_of_le inside ?_)
    rw [Nat.mul_comm]
    exact Nat.le_of_lt (Nat.lt_mul_div_succ count wide)
  case isFalse => rfl

theorem length_cyclic (wide : 0 < pattern.length) (count : Nat) :
    (cyclic pattern count).length = count := by
  rw [cyclic, length_take, length_repeated, Nat.mul_comm]
  exact Nat.min_eq_left (Nat.le_of_lt (Nat.lt_mul_div_succ count wide))

@[simp]
theorem cyclic_zero (pattern : List UInt8) : cyclic pattern 0 = empty :=
  take_zero _

theorem take_cyclic (wide : 0 < pattern.length) {first count : Nat} (le : first ≤ count) :
    (cyclic pattern count).take first = cyclic pattern first := by
  ext1
  refine List.ext_getElem? fun index => ?_
  rw [bytes_take, List.getElem?_take, getElem?_cyclic wide, getElem?_cyclic wide]
  split
  case isTrue inside => rw [if_pos (Nat.lt_of_lt_of_le inside le)]
  case isFalse => rfl

/-- After whole patterns, a repeated pattern begins anew. -/
theorem cyclic_append (wide : 0 < pattern.length) {first : Nat}
    (whole : pattern.length ∣ first) (rest : Nat) :
    cyclic pattern first ++ cyclic pattern rest = cyclic pattern (first + rest) := by
  obtain ⟨copies, rfl⟩ := whole
  ext1
  refine List.ext_getElem? fun index => ?_
  have length : (cyclic pattern (pattern.length * copies)).bytes.length =
      pattern.length * copies := by
    rw [length_bytes, length_cyclic wide]
  rw [bytes_append, getElem?_cyclic wide]
  by_cases before : index < pattern.length * copies
  case pos =>
    rw [List.getElem?_append_left (by omega), getElem?_cyclic wide, if_pos before,
      if_pos (by omega)]
  case neg =>
    have phase : (index - pattern.length * copies) % pattern.length = index % pattern.length :=
      Nat.sub_mul_mod (Nat.le_of_not_lt before)
    have inside : index - pattern.length * copies < rest ↔
        index < pattern.length * copies + rest := by omega
    rw [List.getElem?_append_right (by omega), length, getElem?_cyclic wide, phase]
    simp only [inside]

theorem cyclic_of_dvd (wide : 0 < pattern.length) {count : Nat}
    (multiple : pattern.length ∣ count) :
    cyclic pattern count = repeated pattern (count / pattern.length) := by
  ext1
  refine List.ext_getElem? fun index => ?_
  rw [getElem?_cyclic wide]
  split
  case isTrue inside =>
    rw [getElem?_repeated pattern (by rwa [Nat.div_mul_cancel multiple])]
  case isFalse outside =>
    refine (List.getElem?_eq_none ?_).symm
    rw [length_bytes, length_repeated, Nat.div_mul_cancel multiple]
    exact Nat.le_of_not_lt outside

theorem concat_replicate_cyclic (wide : 0 < pattern.length) {size : Nat}
    (whole : pattern.length ∣ size) (copies : Nat) :
    concat (List.replicate copies (cyclic pattern size)) = cyclic pattern (copies * size) := by
  induction copies with
  | zero => rw [List.replicate_zero, concat_nil, Nat.zero_mul, cyclic_zero]
  | succ copies ih =>
      rw [List.replicate_succ, concat_cons, ih, cyclic_append wide whole, Nat.succ_mul,
        Nat.add_comm]

end ByteString

/-- The chunks of a repeated pattern are its repetition if a full chunk is made of whole
patterns. -/
theorem concat_repeatedChunks {pattern : List UInt8} (divides : pattern.length ∣ chunkSize)
    (total : Nat) :
    ByteString.concat (repeatedChunks pattern total) = .cyclic pattern total := by
  have wide : 0 < pattern.length := Nat.pos_of_dvd_of_pos divides (by decide)
  have rest_le : total % chunkSize ≤ min chunkSize total :=
    Nat.le_min.mpr ⟨Nat.le_of_lt (Nat.mod_lt _ (by decide)), Nat.mod_le _ _⟩
  have full : ByteString.concat (List.replicate (total / chunkSize)
      (.cyclic pattern (min chunkSize total))) =
        .cyclic pattern (total / chunkSize * chunkSize) := by
    by_cases short : total < chunkSize
    case pos =>
      rw [Nat.div_eq_of_lt short, List.replicate_zero, ByteString.concat_nil, Nat.zero_mul,
        ByteString.cyclic_zero]
    case neg =>
      rw [Nat.min_eq_left (Nat.le_of_not_lt short),
        ByteString.concat_replicate_cyclic wide divides]
  have whole : pattern.length ∣ total / chunkSize * chunkSize :=
    Nat.dvd_mul_left_of_dvd divides _
  rw [repeatedChunks, ByteString.concat_append, full, ByteString.concat_cons,
    ByteString.concat_nil, ByteString.append_empty, ByteString.take_cyclic wide rest_le,
    ByteString.cyclic_append wide whole, Nat.div_add_mod']

/-- Seeing faults of the host as failures to write does not change what is written. -/
theorem Outcome.writing_andThen (first : Outcome IoFault Sink Unit)
    (next : Sink → Outcome IoFault Sink Unit) :
    (first.andThen fun _ sink => next sink).writing =
      first.writing.andThen fun _ sink => (next sink).writing := by
  rcases first with ⟨answer | answer, state⟩ <;> rfl

/-- A write that is followed by another one on success is one write of both. -/
theorem Sink.writing_andThen_eq_write {sink : Sink} {front rest : ByteString}
    {next : Sink → Outcome WriteError Sink Unit}
    (follows : next (sink.store front) = ((sink.store front).write rest).writing) :
    ((sink.write front).writing.andThen fun _ sink => next sink) =
      (sink.write (front ++ rest)).writing := by
  rw [write_append, Outcome.writing_andThen]
  cases answer : (sink.write front).answer with
  | error fault =>
      generalize sink.write front = outcome at answer
      rcases outcome with ⟨_, left⟩
      obtain rfl : _ = Except.error fault := answer
      rfl
  | ok _ =>
      rw [write_eq_of_ok answer]
      exact follows

theorem Sink.writeRepeated_eq_write {pattern : List UInt8}
    (divides : pattern.length ∣ chunkSize) (total : Nat) (sink : Sink) :
    sink.writeRepeated pattern total = sink.write (.cyclic pattern total) := by
  rw [writeRepeated, writeEach_eq_write, concat_repeatedChunks divides]

namespace Item

/-- Emitting an item writes its contents. -/
theorem emit_eq_write {item : Item} (whole : item.IsWhole) (sink : Sink) :
    item.emit sink = (sink.write item.contents).writing := by
  have single (value : UInt8) (size : UInt32) :
      sink.writeRepeated [value] size.toNat = sink.write (.repeated [value] size.toNat) := by
    rw [Sink.writeRepeated_eq_write (Nat.one_dvd _),
      ByteString.cyclic_of_dvd (List.length_pos_of_mem List.mem_cons_self) (Nat.one_dvd _),
      List.length_singleton, Nat.div_one]
  cases item with
  | bytes contents => rfl
  | zero size => rw [emit, single, contents, ByteString.zero]
  | padding fill size =>
      cases fill with
      | byte value => rw [emit, single, contents]
      | nop =>
          have multiple : 4 ∣ size.toNat := Nat.dvd_of_mod_eq_zero (congrArg UInt32.toNat whole)
          have divides : (Fill.pattern .nop).length ∣ chunkSize := by decide
          have words : size % 4 = 0 := whole
          rw [emit, if_pos words, Sink.writeRepeated_eq_write divides,
            ByteString.cyclic_of_dvd (by decide) multiple]
          rfl

theorem emitEach_eq_write {items : List Item} (whole : ∀ item ∈ items, item.IsWhole)
    (sink : Sink) :
    emitEach sink items = (sink.write (.concat (items.map contents))).writing := by
  induction items generalizing sink with
  | nil =>
      rw [List.map_nil, emitEach]
      exact congrArg Outcome.writing sink.write_empty.symm
  | cons item rest ih =>
      have wholeRest : ∀ later ∈ rest, later.IsWhole := by
        intro later member
        exact whole later (List.mem_cons_of_mem item member)
      rw [emitEach, emit_eq_write (whole item List.mem_cons_self), List.map_cons,
        ByteString.concat_cons, Sink.write_append, Outcome.writing_andThen]
      simp only [ih wholeRest]

end Item

namespace Object

/-- Sections that are placed one after the other from an offset on, without gaps. -/
def Placed (object : Object) : Nat → List Placement → Prop
  | _, [] => True
  | offset, placement :: rest =>
      placement.offset.toNat = offset ∧
        object.Placed (offset + (object.get placement.kind).contents.length) rest

/-- The contents of the sections that are placed. -/
def placedContents (object : Object) (placements : List Placement) : ByteString :=
  .concat (placements.map fun placement => (object.get placement.kind).contents)

/-- Emitting sections that follow each other writes their contents.  As long as the
sink stands where the next section is placed, moving there changes nothing. -/
theorem emitSections_eq_write {object : Object} (whole : object.IsWhole)
    {placements : List Placement} {sink : Sink} (settled : sink.gap = 0)
    (placed : object.Placed sink.position placements) :
    object.emitSections sink placements =
      (sink.write (object.placedContents placements)).writing := by
  induction placements generalizing sink with
  | nil =>
      rw [emitSections]
      exact congrArg Outcome.writing sink.write_empty.symm
  | cons placement rest ih =>
      obtain ⟨here, next⟩ := placed
      have emitted : Item.emitEach sink (object.get placement.kind).items =
          (sink.write (object.get placement.kind).contents).writing :=
        Item.emitEach_eq_write (whole placement.kind) sink
      rw [emitSections, here, Sink.seek_position settled, emitted, placedContents, List.map_cons,
        ByteString.concat_cons]
      refine Sink.writing_andThen_eq_write (ih (Sink.gap_store settled _) ?_)
      rw [Sink.position_store]
      exact next

end Object

end RiscvImage
