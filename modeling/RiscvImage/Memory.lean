import RiscvImage.AddressSpace
import RiscvImage.ByteString.Window
import RiscvImage.LittleEndian
import RiscvImage.Outcome
import RiscvImage.Text.Hexadecimal

/-!
# Sparse memory

The address space of the machine is empty until regions are mapped into it.
Regions are kept in address order and never meet.  All accesses stay inside a
single region, even where two regions touch.
-/

namespace RiscvImage

/-- Why memory refuses a mapping or an access. -/
inductive MemoryError
  | invalidSize (size : UInt32)
  /-- The range ends beyond the address space. -/
  | outOfRange (base size : UInt32)
  /-- The range meets the region at `existing`. -/
  | overlap (base size existing : UInt32)
  | limitExceeded (size : UInt32) (limit : UInt64)
  | unmapped (address : UInt32)
  deriving DecidableEq, Repr

namespace MemoryError

/-- The wording of a refusal. -/
def message : MemoryError → String
  | invalidSize size => s!"invalid mapping size: {size.toNat}"
  | outOfRange base size =>
    s!"range {Hexadecimal.address base}+{Hexadecimal.plain size.toNat} leaves the 32-bit address space"
  | overlap base size existing =>
    s!"range {Hexadecimal.address base}+{Hexadecimal.plain size.toNat} overlaps the mapping at {Hexadecimal.address existing}"
  | limitExceeded size limit =>
    s!"mapping {Hexadecimal.plain size.toNat} bytes would exceed the memory limit of {Hexadecimal.plain limit.toNat} bytes"
  | unmapped address => s!"access to unmapped address {Hexadecimal.address address}"

end MemoryError

/-- A stretch of mapped addresses. -/
structure Region where
  base : UInt32
  /-- The contents, in address order. -/
  contents : ByteString
  deriving DecidableEq, Repr

namespace Region

/-- The number of bytes. -/
def length (region : Region) : Nat :=
  region.contents.length

/-- The number of bytes, as a word. -/
def size (region : Region) : UInt32 :=
  .ofNat region.length

/-- One past the last address, which is `addressSpace` for a region at the very
end. -/
def stop (region : Region) : Nat :=
  region.base.toNat + region.length

/-- Whether an address lies in the region. -/
def contains (region : Region) (address : UInt32) : Bool :=
  region.base ≤ address && address.toNat < region.stop

/-- The first address after the region; it is zero after the last address. -/
def endAddress (region : Region) : UInt32 :=
  region.base + region.size

/-- The distance of an address from the base. -/
def offsetOf (region : Region) (address : UInt32) : Nat :=
  (address - region.base).toNat

end Region

/-- The mapped memory of a machine. -/
structure Memory where
  /-- The regions in address order. -/
  regions : List Region
  /-- The number of mapped bytes. -/
  mapped : UInt64
  /-- The number of bytes that may be mapped. -/
  limit : UInt64
  deriving DecidableEq, Repr

namespace Memory

/-- How much can be mapped unless told otherwise: one gibibyte. -/
def defaultLimit : UInt64 :=
  0x40000000

/-- Memory without regions. -/
def empty (limit : UInt64) : Memory :=
  ⟨[], 0, limit⟩

/-- Whether nothing is mapped. -/
def isEmpty (memory : Memory) : Bool :=
  memory.regions.isEmpty

/-- The regions that begin below an address. -/
def below (memory : Memory) (address : UInt32) : List Region :=
  memory.regions.takeWhile fun region => region.base < address

/-- The regions that begin at an address or above it. -/
def fromAddress (memory : Memory) (address : UInt32) : List Region :=
  memory.regions.dropWhile fun region => region.base < address

/-- A region that meets the range of `size` bytes at `base`.  Since regions never
meet each other, only the neighbours of the base can: the last region that
begins below it and the first one that does not. -/
def neighbour? (memory : Memory) (base size : UInt32) : Option Region :=
  match (memory.below base).getLast?.filter fun region => base.toNat < region.stop with
  | some region => some region
  | none =>
    (memory.fromAddress base).head?.filter fun region =>
      region.base.toNat < base.toNat + size.toNat

/-- Why `size` bytes cannot be mapped at `base`, if they cannot. -/
def refusal? (memory : Memory) (base size : UInt32) : Option MemoryError :=
  if size = 0 then some (.invalidSize size)
  else if addressSpace < base.toNat + size.toNat then some (.outOfRange base size)
  else
    match memory.neighbour? base size with
    | some region => some (.overlap base size region.base)
    | none =>
      if memory.limit < memory.mapped + size.toUInt64 then
        some (.limitExceeded size memory.limit)
      else none

/-- Put a region in its place among the others. -/
def insert (memory : Memory) (region : Region) : Memory :=
  { memory with
    regions := memory.below region.base ++ region :: memory.fromAddress region.base
    mapped := memory.mapped + region.size.toUInt64 }

/-- Map `size` bytes at `base`.  The region begins with `contents`, as far as
they fit, and is zero from there on.  The host is taken to grant every allocation, so no
mapping is refused for want of its memory. -/
def map (memory : Memory) (base size : UInt32) (contents : ByteString) :
    Outcome MemoryError Memory Unit :=
  match memory.refusal? base size with
  | some error => ⟨.error error, memory⟩
  | none => ⟨.ok (), memory.insert ⟨base, contents.padded size.toNat⟩⟩

/-- The region in which an address lies.  Since regions never meet each other, only
the last one that begins at the address or below it can have it. -/
def regionAt? (memory : Memory) (address : UInt32) : Option Region :=
  (memory.regions.takeWhile fun region => region.base ≤ address).getLast?.filter
    (·.contains address)

/-- The region that holds all of the `count` bytes at an address, or the first
address that stands in the way of there being one. -/
def regionFor (memory : Memory) (address : UInt32) (count : Nat) :
    Except MemoryError Region :=
  match memory.regionAt? address with
  | none => .error (.unmapped address)
  | some region =>
    if region.offsetOf address + count ≤ region.length then .ok region
    else .error (.unmapped region.endAddress)

/-- The `count` bytes at an address. -/
def read (memory : Memory) (address : UInt32) (count : Nat) : Except MemoryError ByteString :=
  (memory.regionFor address count).map fun region =>
    region.contents.window (region.offsetOf address) count

/-- The byte at an address. -/
def readByte (memory : Memory) (address : UInt32) : Except MemoryError UInt8 :=
  (memory.read address 1).map fun found => LittleEndian.byteAt found.bytes 0

/-- The word at an address, which need not be aligned. -/
def readWord (memory : Memory) (address : UInt32) : Except MemoryError UInt32 :=
  (memory.read address 4).map fun found => LittleEndian.wordAt found.bytes 0

/-- Write bytes from an address on. -/
def write (memory : Memory) (address : UInt32) (bytes : ByteString) :
    Outcome MemoryError Memory Unit :=
  match memory.regionFor address bytes.length with
  | .error error => ⟨.error error, memory⟩
  | .ok target =>
    let written : Region :=
      ⟨target.base, target.contents.overwrite (target.offsetOf address) bytes⟩
    let regions := memory.regions.map fun region =>
      if region.base = target.base then written else region
    ⟨.ok (), { memory with regions }⟩

end Memory

end RiscvImage
