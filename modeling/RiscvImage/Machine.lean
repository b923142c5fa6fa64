import RiscvImage.Memory

/-!
# The machine

One hart with its thirty-two registers, its program counter and its memory.
Register zero reads as zero, whatever is written to it.
-/

namespace RiscvImage

/-- An access to a register that does not exist. -/
structure RegisterFault where
  index : Nat
  deriving DecidableEq, Repr

/-- The number of registers. -/
def registerCount : Nat :=
  32

namespace RegisterFault

/-- The wording of the fault. -/
def message (fault : RegisterFault) : String :=
  s!"index out of bounds: the len is {registerCount} but the index is {fault.index}"

end RegisterFault

/-- The state of a machine. -/
structure Machine where
  registers : Vector UInt32 registerCount
  /-- The program counter. -/
  pc : UInt32
  memory : Memory
  deriving DecidableEq, Repr

namespace Machine

/-- A machine that has not run, around the given memory. -/
def withMemory (memory : Memory) : Machine :=
  ⟨.replicate registerCount 0, 0, memory⟩

/-- A machine that has not run, with empty memory of the usual limit. -/
def initial : Machine :=
  withMemory (.empty Memory.defaultLimit)

/-- The value of a register. -/
def readRegister (machine : Machine) (index : Nat) : Except RegisterFault UInt32 :=
  match machine.registers[index]? with
  | some value => .ok value
  | none => .error ⟨index⟩

/-- Set a register.  Writing to register zero does nothing. -/
def writeRegister (machine : Machine) (index : Nat) (value : UInt32) :
    Outcome RegisterFault Machine Unit :=
  if index = 0 then ⟨.ok (), machine⟩
  else if known : index < registerCount then
    ⟨.ok (), { machine with registers := machine.registers.set index value known }⟩
  else ⟨.error ⟨index⟩, machine⟩

/-- The registers that are not zero, with their indices. -/
def nonzeroRegisters (machine : Machine) : List (Nat × UInt32) :=
  (machine.registers.toList.zipIdx.filter fun (value, _) => value != 0).map fun (value, index) =>
    (index, value)

/-- Set the program counter. -/
def jump (machine : Machine) (pc : UInt32) : Machine :=
  { machine with pc }

/-- Start over at an entry address: all registers are zero, memory stays. -/
def reset (machine : Machine) (entry : UInt32) : Machine :=
  { machine with registers := .replicate registerCount 0, pc := entry }

/-- Carry out an operation on the memory. -/
def onMemory {ε α : Type} (machine : Machine) (operation : Memory → Outcome ε Memory α) :
    Outcome ε Machine α :=
  let outcome := operation machine.memory
  ⟨outcome.answer, { machine with memory := outcome.state }⟩

end Machine

end RiscvImage
