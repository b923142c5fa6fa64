import RiscvImage.Proofs.Machine.Invariant
import RiscvImage.Proofs.Memory.Access

/-!
# Memory as a map of bytes

Reachable memory is a map from addresses to bytes: an address that lies in a region is
mapped, and it lies in that region alone, so its byte is the one that the region has there.
Reads and writes of several bytes are reads and writes of this map, but for one restriction.
They stay inside a single region, and are refused where the region ends even if the next one
begins at the very same address.

A refused access names the address that stands in its way, and changes nothing.  It is the
address that was asked for unless this is mapped, and the end of its region otherwise.  For
a region that reaches up to the last address that end is zero.
-/

namespace RiscvImage

namespace LittleEndian

/-- The word at the beginning of a byte sequence, byte by byte. -/
theorem toNat_wordAt_zero {bytes : List UInt8} (long : 4 ≤ bytes.length) :
    (wordAt bytes 0).toNat = bytes[0].toNat + 256 * bytes[1].toNat + 65536 * bytes[2].toNat +
      16777216 * bytes[3].toNat := by
  match bytes, long with
  | first :: second :: third :: fourth :: rest, _ =>
      have sum : decode [first, second, third, fourth] = first.toNat + 256 * second.toNat +
          65536 * third.toNat + 16777216 * fourth.toNat := by
        simp only [decode]
        omega
      have short : decode [first, second, third, fourth] < UInt32.size := by
        have := first.toNat_lt
        have := second.toNat_lt
        have := third.toNat_lt
        have := fourth.toNat_lt
        rw [sum, UInt32.size]
        omega
      exact (UInt32.toNat_ofNat_of_lt short).trans sum

end LittleEndian

namespace Region

variable {region : Region}

/-- The byte that a region has at an address. -/
def byteAt (region : Region) (address : UInt32) : UInt8 :=
  LittleEndian.byteAt region.contents.bytes (address.toNat - region.base.toNat)

/-- Bytes of a window on the contents are those at the addresses of the window. -/
theorem getElem_window {offset count index : Nat}
    (inside : index < (region.contents.window offset count).bytes.length) {address : UInt32}
    (position : address.toNat = region.base.toNat + (offset + index)) :
    (region.contents.window offset count).bytes[index] = region.byteAt address := by
  have distance : address.toNat - region.base.toNat = offset + index := by omega
  simp only [ByteString.bytes_window, List.length_take, List.length_drop] at inside
  simp only [byteAt, LittleEndian.byteAt, distance, ByteString.bytes_window, List.getElem_take,
    List.getElem_drop, List.getD_eq_getElem?_getD]
  rw [List.getElem?_eq_getElem (by omega), Option.getD_some]

/-- The region with other bytes from an address on. -/
def patched (region : Region) (address : UInt32) (bytes : ByteString) : Region :=
  ⟨region.base, region.contents.overwrite (address.toNat - region.base.toNat) bytes⟩

section Patched

variable {address : UInt32} {bytes : ByteString} (contained : region.contains address = true)
  (inside : address.toNat + bytes.length ≤ region.stop)

include contained inside

theorem offset_add_length_le :
    address.toNat - region.base.toNat + bytes.length ≤ region.contents.length := by
  have bounds := contains_iff.mp contained
  rw [stop, length] at inside
  omega

/-- Bytes that fit do not lengthen the region. -/
theorem stop_patched : (region.patched address bytes).stop = region.stop :=
  congrArg (region.base.toNat + ·)
    (ByteString.length_overwrite (offset_add_length_le contained inside))

theorem contains_patched (other : UInt32) :
    (region.patched address bytes).contains other = region.contains other := by
  rw [Bool.eq_iff_iff, contains_iff, contains_iff, stop_patched contained inside]
  rfl

/-- Outside of the new bytes the region has its bytes of before. -/
theorem byteAt_patched {other : UInt32} (containedOther : region.contains other = true)
    (outside : other.toNat < address.toNat ∨ address.toNat + bytes.length ≤ other.toNat) :
    (region.patched address bytes).byteAt other = region.byteAt other := by
  have bounds := contains_iff.mp contained
  have boundsOther := contains_iff.mp containedOther
  have apart : other.toNat - region.base.toNat < address.toNat - region.base.toNat ∨
      address.toNat - region.base.toNat + bytes.length ≤ other.toNat - region.base.toNat := by
    omega
  have same := ByteString.getElem?_overwrite (offset_add_length_le contained inside) apart
  rw [byteAt, byteAt, LittleEndian.byteAt, LittleEndian.byteAt, List.getD_eq_getElem?_getD,
    List.getD_eq_getElem?_getD]
  exact congrArg (·.getD 0) same

end Patched

/-- The end address of a region is its end, wrapped around. -/
theorem WellFormed.toNat_endAddress (wellFormed : region.WellFormed) :
    region.endAddress.toNat = region.stop % addressSpace := by
  rw [endAddress, UInt32.toNat_add, wellFormed.toNat_size]
  rfl

/-- The end address of a region does not lie in the region, wrapped around or not. -/
theorem WellFormed.not_contains_endAddress (wellFormed : region.WellFormed) :
    region.contains region.endAddress = false := by
  have wrapped := wellFormed.toNat_endAddress
  have nonempty := wellFormed.nonempty
  have short := wellFormed.short
  have inside := wellFormed.inside
  rw [← Bool.not_eq_true, contains_iff, wrapped]
  rw [stop] at inside ⊢
  rcases Nat.lt_or_eq_of_le inside with before | last
  · rw [Nat.mod_eq_of_lt before]
    omega
  · rw [last, Nat.mod_self]
    omega

end Region

namespace Memory

variable {memory : Memory} {region : Region} {address : UInt32} {count : Nat}

/-- Some machine that can be reached has this memory. -/
def Reachable (memory : Memory) : Prop :=
  ∃ machine : Machine, machine.Reachable ∧ machine.memory = memory

/-- Memory is reachable exactly if it is well formed. -/
theorem reachable_iff_wellFormed : memory.Reachable ↔ memory.WellFormed := by
  constructor
  · rintro ⟨machine, reachable, rfl⟩
    exact reachable.wellFormed
  · intro wellFormed
    exact ⟨_, Machine.reachable_withMemory wellFormed, rfl⟩

/-- An address is mapped if it lies in a region. -/
def Maps (memory : Memory) (address : UInt32) : Prop :=
  ∃ region ∈ memory.regions, region.contains address = true

/-- The `count` bytes at an address lie in one region, which has the address even if there
are no bytes. -/
def Spans (memory : Memory) (address : UInt32) (count : Nat) : Prop :=
  ∃ region ∈ memory.regions, region.contains address = true ∧ address.toNat + count ≤ region.stop

instance (memory : Memory) (address : UInt32) : Decidable (memory.Maps address) :=
  inferInstanceAs (Decidable (∃ region ∈ memory.regions, _))

instance (memory : Memory) (address : UInt32) (count : Nat) :
    Decidable (memory.Spans address count) :=
  inferInstanceAs (Decidable (∃ region ∈ memory.regions, _ ∧ _))

/-- The address that stands in the way of an access to `count` bytes. -/
inductive Blocks (memory : Memory) (address : UInt32) (count : Nat) : UInt32 → Prop
  | unmapped (nowhere : ¬ memory.Maps address) : Blocks memory address count address
  | stop {region : Region} (member : region ∈ memory.regions)
      (contained : region.contains address = true)
      (exceeds : region.stop < address.toNat + count) :
      Blocks memory address count region.endAddress

/-- The bytes are those that are read one by one from the address on. -/
def Shows (memory : Memory) (address : UInt32) (found : ByteString) : Prop :=
  ∀ (index : Nat) (inside : index < found.bytes.length),
    memory.readByte (address + .ofNat index) = .ok found.bytes[index]

/-- What is left after bytes have been written at an address: they are read there, and
nothing else has changed. -/
structure Overwritten (memory : Memory) (address : UInt32) (bytes : ByteString)
    (after : Memory) : Prop where
  found : after.read address bytes.length = .ok bytes
  elsewhere : ∀ other : UInt32,
    other.toNat < address.toNat ∨ address.toNat + bytes.length ≤ other.toNat →
      after.readByte other = memory.readByte other
  extents : after.regions.map Region.extent = memory.regions.map Region.extent
  mapped : after.mapped = memory.mapped
  limit : after.limit = memory.limit

theorem regionFor_of_not_maps (nowhere : ¬ memory.Maps address) (count : Nat) :
    memory.regionFor address count = .error (.unmapped address) := by
  cases found : memory.regionAt? address with
  | none => rw [regionFor, found]
  | some region =>
      exact absurd ⟨region, mem_of_regionAt? found, contains_of_regionAt? found⟩ nowhere

theorem readByte_of_not_maps (nowhere : ¬ memory.Maps address) :
    memory.readByte address = .error (.unmapped address) := by
  rw [readByte, read, regionFor_of_not_maps nowhere]
  rfl

namespace WellFormed

/-- The region of an address decides whether there is a region for an access. -/
theorem regionFor_eq (wellFormed : memory.WellFormed) (member : region ∈ memory.regions)
    (contained : region.contains address = true) (count : Nat) :
    memory.regionFor address count =
      if address.toNat + count ≤ region.stop then .ok region
      else .error (.unmapped region.endAddress) := by
  obtain ⟨above, -⟩ := Region.contains_iff.mp contained
  have inside : address.toNat - region.base.toNat + count ≤ region.length ↔
      address.toNat + count ≤ region.stop := by
    rw [Region.stop]
    omega
  rw [regionFor, wellFormed.regionAt?_eq_some_iff.mpr ⟨member, contained⟩]
  simp only [Region.offsetOf_eq above, inside]

/-- Either the bytes lie in one region or some address stands in the way. -/
theorem regionFor_of_not_spans (wellFormed : memory.WellFormed)
    (apart : ¬ memory.Spans address count) :
    ∃ obstacle, memory.Blocks address count obstacle ∧
      memory.regionFor address count = .error (.unmapped obstacle) := by
  by_cases mapped : memory.Maps address
  · obtain ⟨region, member, contained⟩ := mapped
    have exceeds : ¬ address.toNat + count ≤ region.stop :=
      fun inside => apart ⟨region, member, contained, inside⟩
    refine ⟨region.endAddress, .stop member contained (Nat.lt_of_not_le exceeds), ?_⟩
    rw [wellFormed.regionFor_eq member contained, if_neg exceeds]
  · exact ⟨address, .unmapped mapped, regionFor_of_not_maps mapped count⟩

theorem read_of_inside (wellFormed : memory.WellFormed) (member : region ∈ memory.regions)
    (contained : region.contains address = true)
    (inside : address.toNat + count ≤ region.stop) :
    memory.read address count =
      .ok (region.contents.window (address.toNat - region.base.toNat) count) := by
  have bounds := Region.contains_iff.mp contained
  rw [Region.stop] at bounds inside
  exact wellFormed.read_eq_window member (by omega) (by omega) (by omega)

/-- The byte at a mapped address is that of its region. -/
theorem readByte_eq (wellFormed : memory.WellFormed) (member : region ∈ memory.regions)
    (contained : region.contains address = true) :
    memory.readByte address = .ok (region.byteAt address) := by
  obtain ⟨above, below⟩ := Region.contains_iff.mp contained
  have inside : address.toNat - region.base.toNat < region.contents.bytes.length := by
    rw [Region.stop, Region.length] at below
    rw [ByteString.length_bytes]
    omega
  rw [readByte, wellFormed.read_of_inside member contained below]
  simp only [Except.map, Region.byteAt, LittleEndian.byteAt, ByteString.bytes_window,
    List.getD_eq_getElem?_getD, List.getElem?_take_of_lt Nat.zero_lt_one, List.getElem?_drop,
    Nat.add_zero]

/-- A read of bytes that lie in one region finds all of them. -/
theorem read_of_spans (wellFormed : memory.WellFormed) (spans : memory.Spans address count) :
    ∃ found, memory.read address count = .ok found ∧ found.length = count ∧
      memory.Shows address found := by
  obtain ⟨region, member, contained, inside⟩ := spans
  have bounds := Region.contains_iff.mp contained
  have space := (wellFormed.regions region member).inside
  refine ⟨_, wellFormed.read_of_inside member contained inside, ?length, ?shows⟩
  case length =>
    rw [Region.stop, Region.length] at inside
    rw [ByteString.length_window]
    omega
  case shows =>
    intro index index_lt
    have small : index < count := by
      rw [ByteString.length_bytes, ByteString.length_window] at index_lt
      omega
    -- The region ends within the address space, so the address does not wrap around.
    have position : (address + .ofNat index).toNat = address.toNat + index := by
      have word : (UInt32.ofNat index).toNat = index :=
        UInt32.toNat_ofNat_of_lt (by rw [addressSpace] at space; rw [UInt32.size]; omega)
      rw [UInt32.toNat_add, word]
      exact Nat.mod_eq_of_lt (by rw [addressSpace] at space; omega)
    have also : region.contains (address + .ofNat index) = true := by
      rw [Region.contains_iff, position]
      omega
    have distance : (address + .ofNat index).toNat =
        region.base.toNat + (address.toNat - region.base.toNat + index) := by omega
    rw [wellFormed.readByte_eq member also, Region.getElem_window index_lt distance]

/-- A read that does not stay inside one region is refused. -/
theorem read_of_not_spans (wellFormed : memory.WellFormed) (apart : ¬ memory.Spans address count) :
    ∃ obstacle, memory.Blocks address count obstacle ∧
      memory.read address count = .error (.unmapped obstacle) := by
  obtain ⟨obstacle, blocks, refused⟩ := wellFormed.regionFor_of_not_spans apart
  refine ⟨obstacle, blocks, ?_⟩
  rw [read, refused]
  rfl

/-- A word is made of four bytes of one region. -/
theorem readWord_of_spans (wellFormed : memory.WellFormed) (spans : memory.Spans address 4) :
    ∃ word b₀ b₁ b₂ b₃, memory.readWord address = .ok word ∧
      memory.readByte address = .ok b₀ ∧ memory.readByte (address + 1) = .ok b₁ ∧
      memory.readByte (address + 2) = .ok b₂ ∧ memory.readByte (address + 3) = .ok b₃ ∧
      word.toNat = b₀.toNat + 256 * b₁.toNat + 65536 * b₂.toNat + 16777216 * b₃.toNat := by
  obtain ⟨found, read, length, shows⟩ := wellFormed.read_of_spans spans
  have long : 4 ≤ found.bytes.length := Nat.le_of_eq (length.symm.trans found.length_eq)
  have first := shows 0 (by omega)
  rw [show address + UInt32.ofNat 0 = address from UInt32.add_zero address] at first
  refine ⟨_, _, _, _, _, ?_, first, shows 1 (by omega), shows 2 (by omega), shows 3 (by omega),
    LittleEndian.toNat_wordAt_zero long⟩
  rw [readWord, read]
  rfl

end WellFormed

theorem WellFormed.readWord_of_not_spans (wellFormed : memory.WellFormed)
    (apart : ¬ memory.Spans address 4) :
    ∃ obstacle, memory.Blocks address 4 obstacle ∧
      memory.readWord address = .error (.unmapped obstacle) := by
  obtain ⟨obstacle, blocks, refused⟩ := wellFormed.read_of_not_spans apart
  refine ⟨obstacle, blocks, ?_⟩
  rw [readWord, refused]
  rfl

/-- Whether an address is mapped is told by where the regions lie. -/
theorem maps_iff_of_extents {after : Memory}
    (extents : after.regions.map Region.extent = memory.regions.map Region.extent) :
    after.Maps address ↔ memory.Maps address := by
  have carries {first second : Memory}
      (same : second.regions.map Region.extent = first.regions.map Region.extent)
      (mapped : first.Maps address) : second.Maps address := by
    obtain ⟨region, member, contained⟩ := mapped
    obtain ⟨other, otherMem, extent⟩ :=
      List.mem_map.mp (same ▸ List.mem_map_of_mem (f := Region.extent) member)
    obtain ⟨base, length⟩ := Prod.mk.inj extent
    refine ⟨other, otherMem, ?_⟩
    rw [Region.contains_iff, Region.stop] at contained ⊢
    rwa [base, length]
  exact ⟨carries extents.symm, carries extents⟩

/-- The memory with another region in the place of the one with the same base. -/
def withRegion (memory : Memory) (region : Region) : Memory :=
  { memory with
    regions := memory.regions.map fun other => if other.base = region.base then region else other }

namespace WellFormed

variable {bytes : ByteString} (wellFormed : memory.WellFormed) (member : region ∈ memory.regions)
  (contained : region.contains address = true)
  (inside : address.toNat + bytes.length ≤ region.stop)

include wellFormed member contained inside

theorem write_of_inside :
    memory.write address bytes = ⟨.ok (), memory.withRegion (region.patched address bytes)⟩ := by
  obtain ⟨above, -⟩ := Region.contains_iff.mp contained
  rw [Memory.write, wellFormed.regionFor_eq member contained, if_pos inside]
  simp only [Region.offsetOf_eq above]
  rfl

theorem extent_withRegion_patched :
    (memory.withRegion (region.patched address bytes)).regions.map Region.extent =
      memory.regions.map Region.extent := by
  have extents := wellFormed.extent_regions_write address bytes
  rwa [wellFormed.write_of_inside member contained inside] at extents

theorem withRegion_patched : (memory.withRegion (region.patched address bytes)).WellFormed :=
  wellFormed.of_extents (wellFormed.extent_withRegion_patched member contained inside) rfl rfl

/-- What is written is read again. -/
theorem read_withRegion_patched :
    (memory.withRegion (region.patched address bytes)).read address bytes.length = .ok bytes := by
  have after := wellFormed.withRegion_patched member contained inside
  have patchedMem : region.patched address bytes ∈
      (memory.withRegion (region.patched address bytes)).regions :=
    List.mem_map.mpr ⟨region, member, if_pos rfl⟩
  have patchedContains := (Region.contains_patched contained inside address).trans contained
  have patchedInside := (Region.stop_patched contained inside).symm ▸ inside
  rw [after.read_of_inside patchedMem patchedContains patchedInside]
  exact congrArg Except.ok (ByteString.window_middle (ByteString.length_padded _ _) rfl)

/-- Other addresses keep their bytes, whether in the same region or not, and unmapped ones
stay unmapped. -/
theorem readByte_withRegion_patched {other : UInt32}
    (outside : other.toNat < address.toNat ∨ address.toNat + bytes.length ≤ other.toNat) :
    (memory.withRegion (region.patched address bytes)).readByte other = memory.readByte other := by
  have after := wellFormed.withRegion_patched member contained inside
  have extents := wellFormed.extent_withRegion_patched member contained inside
  by_cases mapped : memory.Maps other
  case neg =>
    have stillNot := mt (maps_iff_of_extents extents).mp mapped
    rw [readByte_of_not_maps mapped, readByte_of_not_maps stillNot]
  obtain ⟨host, hostMem, hostContains⟩ := mapped
  rw [wellFormed.readByte_eq hostMem hostContains]
  by_cases same : host = region
  · subst same
    have patchedContains := (Region.contains_patched contained inside other).trans hostContains
    rw [after.readByte_eq (List.mem_map.mpr ⟨host, hostMem, if_pos rfl⟩) patchedContains,
      Region.byteAt_patched contained inside hostContains outside]
  · have different : host.base ≠ region.base := mt (wellFormed.eq_of_base_eq hostMem member) same
    exact after.readByte_eq (List.mem_map.mpr ⟨host, hostMem, if_neg different⟩) hostContains

end WellFormed

/-- Bytes that lie in one region are written there, and nowhere else. -/
theorem WellFormed.write_of_spans (wellFormed : memory.WellFormed) {bytes : ByteString}
    (spans : memory.Spans address bytes.length) :
    ∃ after, memory.write address bytes = ⟨.ok (), after⟩ ∧
      memory.Overwritten address bytes after := by
  obtain ⟨region, member, contained, inside⟩ := spans
  refine ⟨_, wellFormed.write_of_inside member contained inside, ?_⟩
  exact {
    found := wellFormed.read_withRegion_patched member contained inside
    elsewhere := fun _ => wellFormed.readByte_withRegion_patched member contained inside
    extents := wellFormed.extent_withRegion_patched member contained inside
    mapped := rfl
    limit := rfl }

/-- A write that does not stay inside one region is refused, and no part of it is done. -/
theorem WellFormed.write_of_not_spans (wellFormed : memory.WellFormed) {bytes : ByteString}
    (apart : ¬ memory.Spans address bytes.length) :
    ∃ obstacle, memory.Blocks address bytes.length obstacle ∧
      memory.write address bytes = ⟨.error (.unmapped obstacle), memory⟩ := by
  obtain ⟨obstacle, blocks, refused⟩ := wellFormed.regionFor_of_not_spans apart
  refine ⟨obstacle, blocks, ?_⟩
  rw [Memory.write, refused]

/-- Accesses to reachable memory are accesses to a map of bytes, as long as they stay inside
one region; all others are refused and change nothing.  The address that a refusal names is
never one of the region that is left. -/
theorem accesses_stay_in_region (reachable : memory.Reachable) (address : UInt32) :
    (∀ count, memory.Spans address count →
      ∃ found, memory.read address count = .ok found ∧ found.length = count ∧
        memory.Shows address found) ∧
    (∀ count, ¬ memory.Spans address count →
      ∃ obstacle, memory.Blocks address count obstacle ∧
        memory.read address count = .error (.unmapped obstacle)) ∧
    (∀ bytes : ByteString, memory.Spans address bytes.length →
      ∃ after, memory.write address bytes = ⟨.ok (), after⟩ ∧
        memory.Overwritten address bytes after) ∧
    (∀ bytes : ByteString, ¬ memory.Spans address bytes.length →
      ∃ obstacle, memory.Blocks address bytes.length obstacle ∧
        memory.write address bytes = ⟨.error (.unmapped obstacle), memory⟩) ∧
    (∀ region ∈ memory.regions, region.endAddress.toNat = region.stop % addressSpace ∧
      region.contains region.endAddress = false) ∧
    (memory.Spans address 4 →
      ∃ word b₀ b₁ b₂ b₃, memory.readWord address = .ok word ∧
        memory.readByte address = .ok b₀ ∧ memory.readByte (address + 1) = .ok b₁ ∧
        memory.readByte (address + 2) = .ok b₂ ∧ memory.readByte (address + 3) = .ok b₃ ∧
        word.toNat = b₀.toNat + 256 * b₁.toNat + 65536 * b₂.toNat + 16777216 * b₃.toNat) ∧
    (¬ memory.Spans address 4 →
      ∃ obstacle, memory.Blocks address 4 obstacle ∧
        memory.readWord address = .error (.unmapped obstacle)) := by
  have wellFormed := reachable_iff_wellFormed.mp reachable
  refine ⟨fun _ => wellFormed.read_of_spans, fun _ => wellFormed.read_of_not_spans,
    fun _ => wellFormed.write_of_spans, fun _ => wellFormed.write_of_not_spans, ?stop,
    wellFormed.readWord_of_spans, wellFormed.readWord_of_not_spans⟩
  case stop =>
    intro region member
    have region := wellFormed.regions region member
    exact ⟨region.toNat_endAddress, region.not_contains_endAddress⟩

/-- Two regions that touch, the second of which reaches up to the last address. -/
def touching : Memory :=
  ((Machine.withMemory (.empty 0x10)).run
    [.map 0xfffffff8 4 (.ofList [1, 2, 3, 4]), .map 0xfffffffc 4 (.ofList [5, 6, 7, 8])]).memory

/-- The last two bytes of the address space are read and overwritten, but not three bytes
there, for which address zero stands in the way. -/
theorem accesses_stay_in_region_touching :
    touching.Reachable ∧
      touching.Spans 0xfffffffe 2 ∧ touching.Shows 0xfffffffe (.ofList [7, 8]) ∧
      (∃ after, touching.write 0xfffffffe (.ofList [9, 10]) = ⟨.ok (), after⟩ ∧
        touching.Overwritten 0xfffffffe (.ofList [9, 10]) after) ∧
      ¬ touching.Spans 0xfffffffe 3 ∧ touching.Blocks 0xfffffffe 3 0 := by
  have reachable : touching.Reachable :=
    ⟨_, (Machine.reachable_withMemory_empty 0x10).run _, rfl⟩
  obtain ⟨reads, refuses, writes, -⟩ := accesses_stay_in_region reachable 0xfffffffe
  have spans : touching.Spans 0xfffffffe 2 := by decide
  have apart : ¬ touching.Spans 0xfffffffe 3 := by decide
  obtain ⟨found, read, -, shows⟩ := reads 2 spans
  obtain ⟨obstacle, blocks, refused⟩ := refuses 3 apart
  obtain rfl : .ofList [7, 8] = found := Except.ok.inj read
  obtain rfl : 0 = obstacle := MemoryError.unmapped.inj (Except.error.inj refused)
  exact ⟨reachable, spans, shows, writes (.ofList [9, 10]) spans, apart, blocks⟩

end Memory

end RiscvImage
