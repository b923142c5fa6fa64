import RiscvImage.Loading.Program
import RiscvImage.Proofs.Loading.Walk

/-!
# Reachable machines

A machine is reachable if some sequence of operations leads to it from a machine
that has not run, around empty memory of any limit.  The operations of the sequence
may fail; what a failed one leaves behind is operated on further.

Whatever an operation does, loading included, is made of five kinds of changes.  A
property that survives each of them is kept by every operation and so by every sequence
of operations.  Well-formed memory is such a property, and so are the limit and the zero
in register zero; together they give what can be relied on in every reachable machine.
-/

namespace RiscvImage

namespace Machine

/-- What can be done to a machine. -/
inductive Operation
  | map (base size : UInt32) (contents : ByteString)
  | write (address : UInt32) (bytes : ByteString)
  | writeRegister (index : Nat) (value : UInt32)
  | jump (pc : UInt32)
  | reset (entry : UInt32)
  | loadImage (source : ImageSource)
  | loadImageFile (opened : Except IoFault File)
  | loadRaw (opened : Except IoFault File) (base entry : UInt32) (maxSize : Nat)
  | loadProgram (opened : Except IoFault File) (options : LoadOptions)

/-- The machine that an operation leaves behind, whether or not it succeeds. -/
def apply (machine : Machine) : Operation → Machine
  | .map base size contents => (machine.onMemory (·.map base size contents)).state
  | .write address bytes => (machine.onMemory (·.write address bytes)).state
  | .writeRegister index value => (machine.writeRegister index value).state
  | .jump pc => machine.jump pc
  | .reset entry => machine.reset entry
  | .loadImage source => (machine.loadImage source).state
  | .loadImageFile opened => (machine.loadImageFile opened).state
  | .loadRaw opened base entry maxSize => (machine.loadRaw opened base entry maxSize).state
  | .loadProgram opened options => (machine.loadProgram opened options).state

/-- The machine after a sequence of operations. -/
def run (machine : Machine) (operations : List Operation) : Machine :=
  operations.foldl apply machine

/-- Some sequence of operations leads to the machine from one that has not run. -/
def Reachable (machine : Machine) : Prop :=
  ∃ (limit : UInt64) (operations : List Operation),
    machine = (withMemory (.empty limit)).run operations

theorem reachable_withMemory_empty (limit : UInt64) : (withMemory (.empty limit)).Reachable :=
  ⟨limit, [], rfl⟩

theorem Reachable.run {machine : Machine} (reachable : machine.Reachable)
    (operations : List Operation) : (machine.run operations).Reachable := by
  obtain ⟨limit, before, rfl⟩ := reachable
  exact ⟨limit, before ++ operations, List.foldl_append.symm⟩

theorem Reachable.apply {machine : Machine} (reachable : machine.Reachable)
    (operation : Operation) : (machine.apply operation).Reachable :=
  reachable.run [operation]

/-- A property of machines that survives every change that an operation is made of: a
region that is put in its place, a write to memory or to a register, a jump and a reset. -/
structure Stable (motive : Machine → Prop) : Prop where
  insert : ∀ {machine : Machine} {region : Region} {size : UInt32}, motive machine →
    region.length = size.toNat → machine.memory.refusal? region.base size = none →
      motive { machine with memory := machine.memory.insert region }
  write : ∀ {machine : Machine} (address : UInt32) (bytes : ByteString), motive machine →
    motive (machine.onMemory (·.write address bytes)).state
  writeRegister : ∀ {machine : Machine} (index : Nat) (value : UInt32), motive machine →
    motive (machine.writeRegister index value).state
  jump : ∀ {machine : Machine} (pc : UInt32), motive machine → motive (machine.jump pc)
  reset : ∀ {machine : Machine} (entry : UInt32), motive machine → motive (machine.reset entry)

variable {machine : Machine}

namespace Stable

variable {motive : Machine → Prop}

theorem map (stable : Stable motive) (start : motive machine) (base size : UInt32)
    (contents : ByteString) : motive (machine.onMemory (·.map base size contents)).state := by
  simp only [onMemory, Memory.map]
  cases refusal : machine.memory.refusal? base size with
  | some error => exact start
  | none => exact stable.insert start (ByteString.length_padded _ _) refusal

theorem walk (stable : Stable motive) (start : motive machine) (source : ImageSource)
    (header : FileHeader) (count : Nat) :
    motive { machine with memory := (machine.memory.walk source header count).state } :=
  Memory.walk_induction (motive := fun memory => motive { machine with memory }) start
    (fun before length admitted => stable.insert before length admitted) source header count

theorem loadImage (stable : Stable motive) (start : motive machine) (source : ImageSource) :
    motive (machine.loadImage source).state := by
  cases read : readHeader source.contents with
  | error error =>
      rw [loadImage_of_readHeader_error read]
      exact start
  | ok header =>
      have walked := stable.walk start source header header.phnum.toNat
      cases answer : (machine.memory.walk source header header.phnum.toNat).answer with
      | error error =>
          rw [loadImage_of_walk_error read answer]
          exact walked
      | ok value =>
          rw [loadImage_of_walk_ok read answer]
          exact stable.reset header.entry walked

theorem loadImageFile (stable : Stable motive) (start : motive machine)
    (opened : Except IoFault File) : motive (machine.loadImageFile opened).state := by
  rw [Machine.loadImageFile]
  split
  · exact start
  · exact stable.loadImage start _

theorem mapFile (stable : Stable motive) (start : motive machine) {file : File}
    (short : file.length < addressSpace) (base : UInt32) :
    motive (machine.mapFile file base).state := by
  have size : (UInt32.ofNat file.length).toNat = file.length := UInt32.toNat_ofNat_of_lt short
  rw [Machine.mapFile]
  cases refusal : machine.memory.refusal? base (.ofNat file.length) with
  | some error => exact start
  | none =>
      cases file with
      | regular contents => exact stable.insert start size.symm refusal
      | directory length =>
          exact stable.insert start ((ByteString.length_zero length).trans size.symm) refusal

theorem loadRaw (stable : Stable motive) (start : motive machine) (opened : Except IoFault File)
    (base entry : UInt32) (maxSize : Nat) :
    motive (machine.loadRaw opened base entry maxSize).state := by
  cases opened with
  | error fault => exact start
  | ok file =>
      simp only [Machine.loadRaw]
      split
      case isTrue tooLarge => exact start
      case isFalse accepted =>
        split
        case isTrue empty => exact stable.reset entry start
        case isFalse nonempty =>
          have short : file.length < addressSpace := by omega
          have mapped := stable.mapFile start short base
          generalize machine.mapFile file base = outcome at mapped
          rcases outcome with ⟨answer | answer, state⟩
          · exact mapped
          · exact stable.reset entry mapped

theorem loadProgram (stable : Stable motive) (start : motive machine)
    (opened : Except IoFault File) (options : LoadOptions) :
    motive (machine.loadProgram opened options).state := by
  rw [Machine.loadProgram]
  split
  · exact start
  · exact stable.loadImageFile start opened
  · exact stable.loadRaw start opened _ _ _

/-- A stable property is kept by every operation, whether or not it succeeds. -/
theorem apply (stable : Stable motive) (start : motive machine) (operation : Operation) :
    motive (machine.apply operation) := by
  cases operation with
  | map base size contents => exact stable.map start base size contents
  | write address bytes => exact stable.write address bytes start
  | writeRegister index value => exact stable.writeRegister index value start
  | jump pc => exact stable.jump pc start
  | reset entry => exact stable.reset entry start
  | loadImage source => exact stable.loadImage start source
  | loadImageFile opened => exact stable.loadImageFile start opened
  | loadRaw opened base entry maxSize => exact stable.loadRaw start opened base entry maxSize
  | loadProgram opened options => exact stable.loadProgram start opened options

theorem run (stable : Stable motive) (start : motive machine) (operations : List Operation) :
    motive (machine.run operations) := by
  induction operations generalizing machine with
  | nil => exact start
  | cons operation operations ih => exact ih (stable.apply start operation)

end Stable

theorem memory_writeRegister (machine : Machine) (index : Nat) (value : UInt32) :
    (machine.writeRegister index value).state.memory = machine.memory := by
  rw [writeRegister]
  split
  · rfl
  · split <;> rfl

/-- Register zero is not written to. -/
theorem readRegister_zero_writeRegister (machine : Machine) (index : Nat) (value : UInt32) :
    (machine.writeRegister index value).state.readRegister 0 = machine.readRegister 0 := by
  rw [writeRegister]
  split
  · rfl
  · split
    case isTrue nonzero known => simp [readRegister, nonzero]
    case isFalse => rfl

theorem readRegister_zero_replicate (pc : UInt32) (memory : Memory) :
    (Machine.mk (.replicate registerCount 0) pc memory).readRegister 0 = .ok 0 :=
  rfl

theorem stable_wellFormed : Stable (·.memory.WellFormed) where
  insert wellFormed length admitted := wellFormed.insert_of_refusal? length admitted
  write address bytes wellFormed := wellFormed.write address bytes
  writeRegister index value wellFormed := by
    rw [memory_writeRegister]
    exact wellFormed
  jump _ wellFormed := wellFormed
  reset _ wellFormed := wellFormed

theorem stable_limit (limit : UInt64) : Stable (·.memory.limit = limit) where
  insert same _ _ := same
  write {machine} address bytes same := (machine.memory.limit_write address bytes).trans same
  writeRegister index value same := by
    rw [memory_writeRegister]
    exact same
  jump _ same := same
  reset _ same := same

theorem stable_zero : Stable (·.readRegister 0 = .ok 0) where
  insert zero _ _ := zero
  write _ _ zero := zero
  writeRegister {machine} index value zero :=
    (machine.readRegister_zero_writeRegister index value).trans zero
  jump _ zero := zero
  reset entry _ := readRegister_zero_replicate entry _

theorem Reachable.wellFormed (reachable : machine.Reachable) : machine.memory.WellFormed := by
  obtain ⟨limit, operations, rfl⟩ := reachable
  exact stable_wellFormed.run (Memory.wellFormed_empty limit) operations

theorem Reachable.readRegister_zero (reachable : machine.Reachable) :
    machine.readRegister 0 = .ok 0 := by
  obtain ⟨limit, operations, rfl⟩ := reachable
  exact stable_zero.run (readRegister_zero_replicate 0 _) operations

end Machine

end RiscvImage
