import RiscvImage.Elf.Inspection
import RiscvImage.Image.StringTable
import RiscvImage.Proofs.Text.Utf8

/-!
# Names at offsets

A string table holds the names that were added to it and not refused, one after the other
and each with its closing zero byte.  As it is only ever extended, a name stays where it
is.

Every offset inside of the table lands in one of the names, or on the zero byte that closes
it.  What is found there is the rest of that name, unless the offset splits one of its
characters.  The writer's own lookup then finds nothing, and the lookup of the inspection,
which reads any bytes, shows that a character is broken.
-/

namespace RiscvImage.StringTable

/-- A name as it is stored: up to its first zero character. -/
def cut (name : String) : String :=
  String.ofList (name.toList.takeWhile (· != '\x00'))

/-- The bytes of names, each with its closing zero byte. -/
def serialize (names : List String) : List UInt8 :=
  names.flatMap fun name => Utf8.encode (cut name) ++ [0]

/-- Add names one after the other, going on after one that is refused.  Each has an answer
of its own. -/
def addEach (table : StringTable) : List String → List (Except WriteError UInt32) × StringTable
  | [] => ([], table)
  | name :: names =>
    let (answers, last) := (table.add name).state.addEach names
    ((table.add name).answer :: answers, last)

/-- The table consists of the empty name and then these ones. -/
def Holds (table : StringTable) (names : List String) : Prop :=
  table.contents.bytes = 0 :: serialize names

/-- An offset lands in a name, so many bytes behind its beginning.  The closing zero byte
counts as the end of the name. -/
def Lands (names : List String) (offset : Nat) (name : String) (position : Nat) : Prop :=
  ∃ earlier later, names = earlier ++ name :: later ∧
    offset = (serialize earlier).length + position ∧ position ≤ (Utf8.encode (cut name)).length

/-- What a table that consists of these names finds at each of its offsets. -/
structure Resolves (table : StringTable) (names : List String) : Prop where
  holds : table.Holds names
  beyond : ∀ offset, table.size ≤ offset → table.get? offset = none
  landing : ∀ offset < table.size, ∃ name position, Lands ("" :: names) offset name position ∧
    (Utf8.IsBoundary (cut name) position ∨ Utf8.SplitsCharacter (cut name) position)
  /-- From a boundary on the rest of the name is found, which is empty on its zero byte. -/
  boundary : ∀ offset name front rest, cut name = front ++ rest →
    Lands ("" :: names) offset name (Utf8.encode front).length →
      table.get? offset = some rest ∧
        Utf8.encode rest = (table.contents.bytes.drop offset).takeWhile (· != 0)
  inside : ∀ offset name position, Lands ("" :: names) offset name position →
    Utf8.SplitsCharacter (cut name) position → table.get? offset = none

theorem addEach_cons (table : StringTable) (name : String) (names : List String) :
    table.addEach (name :: names) =
      ((table.add name).answer :: ((table.add name).state.addEach names).1,
        ((table.add name).state.addEach names).2) :=
  rfl

theorem serialize_cons (name : String) (names : List String) :
    serialize (name :: names) = Utf8.encode (cut name) ++ 0 :: serialize names := by
  rw [serialize, List.flatMap_cons, List.append_assoc]
  rfl

@[simp]
theorem serialize_append (front rest : List String) :
    serialize (front ++ rest) = serialize front ++ serialize rest :=
  List.flatMap_append

/-- The empty name stands for the zero byte in front. -/
theorem serialize_empty_cons (names : List String) :
    serialize ("" :: names) = 0 :: serialize names :=
  rfl

theorem zero_not_mem_encode_cut (name : String) : 0 ∉ Utf8.encode (cut name) := by
  rw [Utf8.zero_mem_encode_iff, cut, String.toList_ofList]
  intro member
  have passes := List.all_eq_true.mp List.all_takeWhile _ member
  contradiction

/-- A name is appended, cut and closed, if the whole table stays within reach. -/
theorem add_eq (table : StringTable) (name : String) :
    table.add name =
      if table.size + (serialize [name]).length < UInt32.size then
        ⟨.ok (.ofNat table.size), ⟨table.contents ++ .ofList (serialize [name]),
          table.grownCapacity (serialize [name]).length⟩⟩
      else ⟨.error .tooLarge, table⟩ := by
  have entry : (ByteString.ofList (Utf8.encode name)).untilZero ++ .zero 1 =
      .ofList (serialize [name]) := by
    ext1
    rw [ByteString.bytes_append, ByteString.bytes_untilZero, ByteString.bytes_ofList,
      Utf8.takeWhile_encode, ByteString.bytes_zero, ByteString.bytes_ofList, serialize_cons]
    rfl
  rw [add, entry, ByteString.length_ofList]

theorem holds_empty : empty.Holds [] := by
  rw [Holds, empty, ByteString.bytes_zero]
  rfl

section Holds

variable {table : StringTable} {names : List String}

theorem Holds.size_eq (holds : table.Holds names) : table.size = (serialize names).length + 1 := by
  rw [size, ← ByteString.length_bytes, holds, List.length_cons]

/-- A name that fits is stored behind the others, and its offset is the answer. -/
theorem Holds.add_of_fits (holds : table.Holds names) {name : String}
    (fits : (serialize (names ++ [name])).length + 1 < UInt32.size) :
    (table.add name).answer = .ok (.ofNat table.size) ∧
      (table.add name).state.Holds (names ++ [name]) := by
  rw [serialize_append, List.length_append] at fits
  rw [add_eq, if_pos (by rw [holds.size_eq]; omega)]
  refine ⟨rfl, ?_⟩
  rw [Holds, ByteString.bytes_append, ByteString.bytes_ofList, holds, serialize_append,
    List.cons_append]

/-- A name is stored behind the others or not at all. -/
theorem Holds.add (holds : table.Holds names) (name : String) :
    ∃ kept, kept.Sublist [name] ∧ (table.add name).state.Holds (names ++ kept) := by
  by_cases fits : (serialize (names ++ [name])).length + 1 < UInt32.size
  · exact ⟨[name], .refl _, (holds.add_of_fits fits).2⟩
  · rw [serialize_append, List.length_append] at fits
    rw [add_eq, if_neg (by rw [holds.size_eq]; omega)]
    refine ⟨[], List.nil_sublist _, ?_⟩
    rwa [List.append_nil]

/-- However many names are added, those that were there stay where they are. -/
theorem Holds.addEach (holds : table.Holds names) (more : List String) :
    ∃ kept, kept.Sublist more ∧ (table.addEach more).2.Holds (names ++ kept) := by
  induction more generalizing table names with
  | nil => exact ⟨[], .refl _, by rwa [List.append_nil]⟩
  | cons name more ih =>
      obtain ⟨first, stored, added⟩ := holds.add name
      obtain ⟨others, kept, last⟩ := ih added
      rw [List.append_assoc] at last
      rw [addEach_cons]
      exact ⟨first ++ others, stored.append kept, last⟩

/-- Names that fit all together are all stored, each behind the ones before it. -/
theorem Holds.addEach_of_fits (holds : table.Holds names) {more : List String}
    (fits : (serialize (names ++ more)).length + 1 < UInt32.size) :
    (table.addEach more).2.Holds (names ++ more) ∧
      ∀ (index : Nat) (name : String), more[index]? = some name →
        (table.addEach more).1[index]? =
          some (.ok (.ofNat ((serialize (names ++ more.take index)).length + 1))) := by
  induction more generalizing table names with
  | nil => exact ⟨by rwa [List.append_nil], by simp⟩
  | cons name more ih =>
      rw [List.append_cons] at fits ⊢
      have first : (serialize (names ++ [name])).length + 1 < UInt32.size := by
        rw [serialize_append, List.length_append] at fits
        omega
      obtain ⟨answer, added⟩ := holds.add_of_fits first
      obtain ⟨last, answers⟩ := ih added fits
      rw [addEach_cons]
      refine ⟨last, ?_⟩
      rintro (_ | index) other found
      · rw [List.getElem?_cons_zero, List.take_zero, List.append_nil, answer, holds.size_eq]
      · rw [List.getElem?_cons_succ, List.take_succ_cons, List.append_cons]
        exact answers index other found

end Holds

/-- Every position in a row of names lands in one of them. -/
theorem exists_lands {names : List String} {offset : Nat}
    (inside : offset < (serialize names).length) :
    ∃ name position, Lands names offset name position := by
  induction names generalizing offset with
  | nil => exact absurd inside (Nat.not_lt_zero offset)
  | cons name names ih =>
      rw [serialize_cons, List.length_append, List.length_cons] at inside
      by_cases here : offset ≤ (Utf8.encode (cut name)).length
      · exact ⟨name, offset, [], names, rfl, (Nat.zero_add offset).symm, here⟩
      · have behind :
            offset - ((Utf8.encode (cut name)).length + 1) < (serialize names).length := by
          omega
        obtain ⟨found, position, earlier, later, parts, there, within⟩ := ih behind
        refine ⟨found, position, name :: earlier, later, ?_, ?_, within⟩
        · rw [parts, List.cons_append]
        · rw [serialize_cons, List.length_append, List.length_cons]
          omega

/-- Names that are stored later leave an offset where it lands. -/
theorem Lands.append {names : List String} {offset : Nat} {name : String} {position : Nat}
    (lands : Lands names offset name position) (more : List String) :
    Lands (names ++ more) offset name position := by
  obtain ⟨earlier, later, rfl, here, within⟩ := lands
  exact ⟨earlier, later ++ more, by rw [List.append_assoc, List.cons_append], here, within⟩

section Lookup

variable {table : StringTable} {names : List String} {offset : Nat} {name : String}
  {position : Nat}

/-- From an offset on stand the rest of the name that it lands in and its closing byte. -/
theorem Holds.drop_eq (holds : table.Holds names)
    (lands : Lands ("" :: names) offset name position) :
    ∃ others, (table.contents.drop offset).bytes =
      (Utf8.encode (cut name)).drop position ++ 0 :: others := by
  obtain ⟨earlier, later, parts, rfl, within⟩ := lands
  refine ⟨serialize later, ?_⟩
  rw [ByteString.bytes_drop, holds, ← serialize_empty_cons, parts, serialize_append,
    serialize_cons, List.drop_append, List.drop_of_length_le (Nat.le_add_right _ _),
    List.nil_append, Nat.add_sub_cancel_left, List.drop_append_of_le_length within]

theorem Holds.untilZero_drop (holds : table.Holds names)
    (lands : Lands ("" :: names) offset name position) :
    (table.contents.drop offset).untilZero.bytes = (Utf8.encode (cut name)).drop position ∧
      (table.contents.drop offset).untilZero.length < (table.contents.drop offset).length := by
  obtain ⟨others, tail⟩ := holds.drop_eq lands
  have nonzero : 0 ∉ (Utf8.encode (cut name)).drop position := by
    intro member
    exact zero_not_mem_encode_cut name (List.mem_of_mem_drop member)
  have rest : (table.contents.drop offset).untilZero.bytes =
      (Utf8.encode (cut name)).drop position := by
    rw [ByteString.bytes_untilZero, tail, Utf8.takeWhile_append_of_zero_not_mem nonzero]
    exact List.append_nil _
  refine ⟨rest, ?_⟩
  rw [ByteString.length_eq, ByteString.length_eq, rest, tail, List.length_append, List.length_cons]
  omega

/-- The writer's lookup reads the rest of the name strictly. -/
theorem Holds.get?_eq (holds : table.Holds names)
    (lands : Lands ("" :: names) offset name position) :
    table.get? offset = Utf8.decode? ((Utf8.encode (cut name)).drop position) := by
  obtain ⟨rest, closed⟩ := holds.untilZero_drop lands
  rw [get?, if_pos closed, rest]

/-- The lookup of the inspection reads it leniently. -/
theorem Holds.nameAt_eq (holds : table.Holds names)
    (lands : Lands ("" :: names) offset name position) :
    Inspection.nameAt table.contents offset =
      Utf8.decodeLossy ((Utf8.encode (cut name)).drop position) := by
  rw [Inspection.nameAt, (holds.untilZero_drop lands).1]

theorem get?_of_size_le (outside : table.size ≤ offset) : table.get? offset = none := by
  have none : (table.contents.drop offset).length = 0 := by
    rw [ByteString.length_drop]
    exact Nat.sub_eq_zero_of_le outside
  rw [get?, none, if_neg (Nat.not_lt_zero _)]

theorem nameAt_of_size_le (outside : table.size ≤ offset) :
    Inspection.nameAt table.contents offset = "" := by
  have none : (table.contents.drop offset).bytes = [] := by
    rw [ByteString.bytes_drop]
    exact List.drop_of_length_le (Nat.le_trans (Nat.le_of_eq table.contents.length_bytes) outside)
  rw [Inspection.nameAt, ByteString.bytes_untilZero, none]
  rfl

end Lookup

/-- Every offset of a table that consists of names is accounted for. -/
theorem Holds.resolves {table : StringTable} {names : List String} (holds : table.Holds names) :
    table.Resolves names where
  holds := holds
  beyond _ outside := get?_of_size_le outside
  landing := by
    intro offset inside
    rw [holds.size_eq, ← List.length_cons (a := 0), ← serialize_empty_cons] at inside
    obtain ⟨name, position, lands⟩ := exists_lands inside
    have within := lands
    obtain ⟨_, _, -, -, within⟩ := within
    exact ⟨name, position, lands, Utf8.isBoundary_or_splitsCharacter within⟩
  boundary := by
    intro offset name front rest parts lands
    obtain ⟨tail, -⟩ := holds.untilZero_drop lands
    rw [ByteString.bytes_untilZero, ByteString.bytes_drop, parts, Utf8.drop_encode] at tail
    rw [holds.get?_eq lands, parts, Utf8.drop_encode, Utf8.decode?_encode]
    exact ⟨rfl, tail.symm⟩
  inside := by
    intro offset name position lands splits
    rw [holds.get?_eq lands, splits.decode?_drop]

/-- Every name is found at the offset that it was given, whatever is added later, and every
other offset finds what stands there. -/
theorem resolves_addEach {names : List String}
    (fits : (serialize names).length + 1 < UInt32.size) :
    (empty.addEach names).2.Resolves names ∧
      ∀ (index : Nat) (name : String), names[index]? = some name →
        ∃ offset : UInt32, (empty.addEach names).1[index]? = some (.ok offset) ∧
          offset.toNat = (serialize (names.take index)).length + 1 ∧
          ∀ later, ((empty.addEach names).2.addEach later).2.get? offset.toNat =
            some (cut name) := by
  obtain ⟨holds, answers⟩ := holds_empty.addEach_of_fits fits
  simp only [List.nil_append] at holds answers
  refine ⟨holds.resolves, ?_⟩
  intro index name found
  obtain ⟨index_lt, here⟩ := List.getElem?_eq_some_iff.mp found
  have parts : names = names.take index ++ name :: names.drop (index + 1) := by
    rw [← here, ← List.drop_eq_getElem_cons index_lt, List.take_append_drop]
  have before : (serialize (names.take index)).length ≤ (serialize names).length := by
    conv => rhs; rw [parts]
    rw [serialize_append, List.length_append]
    exact Nat.le_add_right _ _
  have offset : (UInt32.ofNat ((serialize (names.take index)).length + 1)).toNat =
      (serialize (names.take index)).length + 1 := UInt32.toNat_ofNat_of_lt (by omega)
  refine ⟨_, answers index name found, offset, ?_⟩
  intro later
  obtain ⟨kept, -, extended⟩ := holds.addEach later
  have lands : Lands ("" :: names) ((serialize (names.take index)).length + 1) name
      (Utf8.encode "").length :=
    ⟨"" :: names.take index, names.drop (index + 1), by rw [List.cons_append, ← parts], rfl,
      Nat.zero_le _⟩
  rw [offset]
  exact (extended.resolves.boundary _ name "" (cut name) String.empty_append.symm
    (lands.append kept)).1

/-- An empty name, one with a zero character, and characters of one, two and three bytes. -/
def sampleNames : List String :=
  ["", "aé", "b\x00c", "€"]

theorem resolves_addEach_sampleNames :
    (serialize sampleNames).length + 1 < UInt32.size ∧
      (empty.addEach sampleNames).2.Resolves sampleNames ∧
      ∃ offset : UInt32, (empty.addEach sampleNames).1[2]? = some (.ok offset) ∧
        offset.toNat = (serialize (sampleNames.take 2)).length + 1 ∧
        ∀ later, ((empty.addEach sampleNames).2.addEach later).2.get? offset.toNat =
          some (cut "b\x00c") := by
  have fits : (serialize sampleNames).length + 1 < UInt32.size := by decide
  exact ⟨fits, (resolves_addEach fits).1, (resolves_addEach fits).2 2 "b\x00c" rfl⟩

/-- What the two lookups make of an offset of the same table. -/
structure LookupsAgree (table : StringTable) (offset : Nat) : Prop where
  found : ∀ text, table.get? offset = some text →
    Inspection.nameAt table.contents offset = text
  beyond : table.size ≤ offset →
    table.get? offset = none ∧ Inspection.nameAt table.contents offset = ""
  /-- Inside of the table nothing is found only in the middle of a character. -/
  broken : offset < table.size → table.get? offset = none →
    (∃ names name position, table.Holds names ∧ Lands ("" :: names) offset name position ∧
      Utf8.SplitsCharacter (cut name) position) ∧
    ∃ shown, Inspection.nameAt table.contents offset = String.singleton '\ufffd' ++ shown

/-- The inspection resolves a name as the table that was written does, and shows it to be
broken where the table finds none. -/
theorem lookupsAgree_addEach (names : List String) (offset : Nat) :
    (empty.addEach names).2.LookupsAgree offset := by
  obtain ⟨kept, -, holds⟩ := holds_empty.addEach names
  rw [List.nil_append] at holds
  refine ⟨?found, ?beyond, ?broken⟩
  case found =>
    intro text found
    rw [get?] at found
    split at found
    case isTrue => exact Utf8.decodeLossy_of_decode? found
    case isFalse => contradiction
  case beyond =>
    intro outside
    exact ⟨get?_of_size_le outside, nameAt_of_size_le outside⟩
  case broken =>
    intro inside missing
    obtain ⟨name, position, lands, ⟨front, rest, parts, rfl⟩ | splits⟩ :=
      holds.resolves.landing offset inside
    · rw [(holds.resolves.boundary offset name front rest parts lands).1] at missing
      contradiction
    · rw [holds.nameAt_eq lands]
      exact ⟨⟨kept, name, position, holds, lands, splits⟩, splits.decodeLossy_drop⟩

/-- A name, an offset behind the table, and one inside of a character. -/
theorem lookupsAgree_addEach_sampleNames :
    Inspection.nameAt (empty.addEach sampleNames).2.contents 2 = "aé" ∧
      ((empty.addEach sampleNames).2.get? 12 = none ∧
        Inspection.nameAt (empty.addEach sampleNames).2.contents 12 = "") ∧
      ∃ shown, Inspection.nameAt (empty.addEach sampleNames).2.contents 4 =
        String.singleton '\ufffd' ++ shown := by
  refine ⟨?found, ?beyond, ?broken⟩
  case found => exact (lookupsAgree_addEach sampleNames 2).found "aé" (by decide)
  case beyond => exact (lookupsAgree_addEach sampleNames 12).beyond (by decide)
  case broken => exact ((lookupsAgree_addEach sampleNames 4).broken (by decide) (by decide)).2

end RiscvImage.StringTable
