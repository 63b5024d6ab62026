import Handheld.Access
import Handheld.Processor.Registers

/-!
# The processor's state

The program counter reads two instructions ahead of the one executing: the pipeline holds the
executing opcode, the decoded one and the one just fetched at the program counter.

1. `Processor.width` is the width of an opcode, and `nextPc` the address of the instruction
   after the one executing.
2. `Processor.writeStatus` replaces the status word and brings the bank of its mode into view.
-/

namespace Handheld

/-- The opcodes on their way through the processor. -/
structure Pipeline where
  executing : Word
  decoded : Word
  fetched : Word
  deriving DecidableEq, Inhabited

structure Processor where
  registers : RegisterFile
  status : Status
  pipeline : Pipeline
  /-- The cost of the opcode fetch made by the current step. -/
  fetchTiming : Timing
  /-- Whether interrupts have to wait for the next step. -/
  locked : Bool
  /-- The cycles spent through every entry point. -/
  cycles : Nat
  deriving DecidableEq

namespace Processor

/-- The status word of a processor that is switched on. -/
def powerOnStatus : Status :=
  ⟨Mode.supervisor.bits ||| Status.irqMask ||| Status.fiqMask⟩

/-- A processor that is switched on but not yet reset. -/
def powerOn : Processor :=
  ⟨RegisterFile.zero.switchBank .supervisor, powerOnStatus, ⟨0, 0, 0⟩, Timing.single, false, 0⟩

instance : Inhabited Processor := ⟨powerOn⟩

/-! ## Views -/

/-- Whether 16-bit instructions are selected. -/
def thumb (p : Processor) : Bool := p.status.thumb

def width (p : Processor) : Width :=
  if p.thumb then .halfword else .word

/-- The mode; the mode field always holds a valid encoding. -/
def mode (p : Processor) : Mode :=
  p.status.mode?.getD .supervisor

/-- A register as the current mode sees it. -/
def get (p : Processor) (register : Register) : Word :=
  p.registers.get register.val

/-- The program counter, two instructions ahead of the one executing. -/
def pc (p : Processor) : Word := p.registers.pc

/-- The address of the instruction after the one executing. -/
def nextPc (p : Processor) : Word :=
  p.registers.pc - p.width.bytes

/-- A register, of which the program counter reads further ahead by a given distance. -/
def getAhead (p : Processor) (register : Register) (distance : Word) : Word :=
  if register = Register.pc then p.registers.pc + distance else p.get register

/-- The saved status word of the current mode, if it has one. -/
def savedStatus? (p : Processor) : Option Status :=
  if p.registers.hasSavedStatus then some ⟨p.registers.savedStatus⟩ else none

/-- The word in the fetch slot; a halfword shows in both halves of the data bus. -/
def prefetched (p : Processor) : Word :=
  if p.thumb then (p.pipeline.fetched &&& 0xFFFF) * 0x00010001 else p.pipeline.fetched

/-! ## Changes -/

/-- Write a register through the current bank; the pipeline stays as it is. -/
def set (p : Processor) (register : Register) (value : Word) : Processor :=
  match p with
  | ⟨registers, status, pipeline, timing, locked, cycles⟩ =>
    ⟨registers.set register.val value, status, pipeline, timing, locked, cycles⟩

/-- Write a register as user mode sees it. -/
def setUser (p : Processor) (register : Register) (value : Word) : Processor :=
  match p with
  | ⟨registers, status, pipeline, timing, locked, cycles⟩ =>
    ⟨registers.setUser register.val value, status, pipeline, timing, locked, cycles⟩

def setPc (p : Processor) (value : Word) : Processor :=
  match p with
  | ⟨registers, status, pipeline, timing, locked, cycles⟩ =>
    ⟨registers.setPc value, status, pipeline, timing, locked, cycles⟩

/-- Write the saved status word of the current bank. -/
def setSavedStatus (p : Processor) (value : Word) : Processor :=
  { p with registers := p.registers.setSavedStatus value }

/-- Replace all four condition flags. -/
def setFlags (p : Processor) (flags : Flags) : Processor :=
  { p with status := p.status.setFlags flags }

/-- Enter a mode and bring its bank into view. -/
def switchMode (p : Processor) (mode : Mode) : Processor :=
  { p with
    registers := p.registers.switchBank (Bank.ofMode mode)
    status := p.status.setMode mode }

/-- Replace the status word; a reserved mode field leaves the mode as it is. -/
def writeStatus (p : Processor) (bits : Word) : Processor :=
  match Mode.ofBits? bits with
  | some mode =>
    { p with registers := p.registers.switchBank (Bank.ofMode mode), status := ⟨bits⟩ }
  | none =>
    { p with status := ⟨bits &&& ~~~Mode.fieldMask ||| (p.status.bits &&& Mode.fieldMask)⟩ }

/-- Restore the saved status word, if the current mode has one. -/
def restoreStatus (p : Processor) : Processor :=
  if p.registers.hasSavedStatus then p.writeStatus p.registers.savedStatus else p

/-- Count the cycles that an entry point spent. -/
def spend (p : Processor) (cycles : UInt32) : Processor :=
  { p with cycles := p.cycles + cycles.toNat }

end Processor

end Handheld
