import Handheld.Proofs.Processor.Instruction

/-!
# Executing instructions

What each instruction does to the processor and the bus, and what it costs on top of nothing:
the cost of the opcode fetch made by the step is part of it.

1. `Operand.evaluate` is the value of a second operand and the carry of its shift.
2. `Processor.execute` is one case per instruction, each a function of its own.
-/

namespace Handheld

namespace Operand

/-- How much further ahead the program counter reads: a shift by a register takes a cycle in
which it moves on by one instruction. -/
def distance (operand : Operand) (width : Width) : Word :=
  match operand with
  | .shiftedBy .. => width.bytes
  | _ => 0

/-- The internal cycles an operand takes. -/
def cycles : Operand → UInt32
  | .shiftedBy .. => Cost.registerShift
  | _ => 0

/-- The value of an operand and the carry of its shift. -/
def evaluate (operand : Operand) (p : Processor) : Shifted :=
  let carry := p.status.carry
  match operand with
  | .rotated constant amount => Shift.rotate constant amount carry
  | .shifted register shift amount => shift.byImmediate (p.get register) amount carry
  | .shiftedBy register shift amount =>
    let distance := p.width.bytes
    shift.byAmount (p.getAhead register distance) (p.getAhead amount distance &&& 0xFF) carry

end Operand

namespace Processor

variable {β : Type} [Bus β]

/-! ## Registers and status -/

/-- A data-processing instruction. A result in the program counter refills the pipeline, and
restores the saved status word where the flags are set. -/
def process (p : Processor) (bus : β) (operation : Operation) (setFlags : Bool)
    (destination first : Register) (second : Operand) : Outcome β :=
  let shifted := second.evaluate p
  let left := p.getAhead first (second.distance p.width)
  let result := operation.compute left shifted.value shifted.carry p.status.flags
  let cycles := p.fetchTiming.seq + second.cycles
  let p := if setFlags then p.setFlags result.flags else p
  if operation.writesResult then
    let p := p.set destination result.value
    if destination = Register.pc then (p.completePcWrite bus setFlags).costing cycles
    else ⟨p, bus, cycles⟩
  else ⟨p, bus, cycles⟩

/-- Copy the current or the saved status word into a register. -/
def readStatusWord (p : Processor) (saved : Bool) (destination : Register) : Processor :=
  p.set destination (if saved then p.registers.savedStatus else p.status.bits)

/-- Write the bits of a mask into the current or the saved status word; user mode reaches only
the byte of the flags. -/
def writeStatusWord (p : Processor) (saved : Bool) (mask value : Word) : Processor :=
  if saved then
    p.setSavedStatus (p.registers.savedStatus &&& ~~~mask ||| (value &&& mask))
  else
    let mask := if p.mode.privileged then mask else mask &&& 0xFF000000
    p.writeStatus (p.status.bits &&& ~~~mask ||| (value &&& mask))

/-! ## Multiplication -/

/-- Multiply two registers and perhaps add a third. -/
def multiplyRegisters (p : Processor) (setFlags : Bool) (destination left right : Register)
    (accumulator : Option Register) : Processor :=
  let addend :=
    match accumulator with
    | some register => p.get register
    | none => 0
  let result := multiply (p.get left) (p.get right) addend p.status.flags
  let p := p.set destination result.value
  if setFlags then { p with status := p.status.setNZ result.flags } else p

/-- Multiply two registers into a pair of registers, of which the low one is written first. -/
def multiplyLongRegisters (p : Processor) (signed accumulate setFlags : Bool)
    (low high left right : Register) : Processor :=
  let addend : UInt64 :=
    if accumulate then (p.get high).toUInt64 <<< 32 ||| (p.get low).toUInt64 else 0
  let result := multiplyLong (p.get left) (p.get right) addend signed p.status.flags
  let p := (p.set low result.1.toUInt32).set high (result.1 >>> 32).toUInt32
  if setFlags then { p with status := p.status.setNZ result.2 } else p

/-! ## Memory and coprocessor -/

/-- Exchange a register with memory. -/
def swap (p : Processor) (bus : β) (width : Width) (destination base source : Register) :
    Outcome β :=
  let address := p.get base
  match loadValue bus address width true false with
  | (answer, bus) =>
    match storeValue bus address (p.get source) width with
    | (timing, bus) =>
      ⟨p.set destination answer.data, bus, Cost.swap p.fetchTiming answer.timing timing⟩

/-- The program counter with bit 1 cleared, from which literals are addressed. -/
def literalBase (p : Processor) : Word := p.pc &&& ~~~2

/-- Read from coprocessor 14; a read into the program counter sets the flags instead. -/
def readCoprocessor (p : Processor) (destination : Register) : Processor :=
  let data := p.prefetched
  if destination = Register.pc then
    { p with status :=
        ⟨p.status.bits &&& ~~~Status.flagsMask ||| (data &&& Status.flagsMask)⟩ }
  else p.set destination data

/-! ## Instructions -/

/-- Execute an instruction whose condition holds. -/
def execute (p : Processor) (bus : β) (instruction : Instruction) : Outcome β :=
  let fetch := p.fetchTiming
  match instruction with
  | .process operation setFlags destination first second =>
    p.process bus operation setFlags destination first second
  | .readStatus saved destination => ⟨p.readStatusWord saved destination, bus, fetch.seq⟩
  | .writeStatus saved mask source =>
    ⟨p.writeStatusWord saved mask (source.evaluate p).value, bus, fetch.seq⟩
  | .multiply setFlags destination left right accumulator =>
    ⟨p.multiplyRegisters setFlags destination left right accumulator, bus,
      Cost.multiply fetch (p.get right) accumulator.isSome⟩
  | .multiplyLong signed accumulate setFlags low high left right =>
    ⟨p.multiplyLongRegisters signed accumulate setFlags low high left right, bus,
      Cost.multiplyLong fetch (p.get right) signed accumulate⟩
  | .swap width destination base source => p.swap bus width destination base source
  | .transfer moved indexing offset =>
    p.indexedTransfer bus moved indexing (offset.evaluate p).value
  | .loadLiteral destination offset =>
    p.transfer bus (p.literalBase + offset) ⟨true, destination, .word, false, false⟩
  | .loadAddress destination offset =>
    ⟨p.set destination (p.literalBase + offset), bus, fetch.seq⟩
  | .blockTransfer load list indexing userBank =>
    p.blockTransfer bus load list indexing userBank
  | .branch offset link =>
    let target := p.pc + offset
    (if link then p.branchLink bus target p.nextPc else p.refill bus target).costing fetch.seq
  | .branchExchange target => (p.branchExchange bus (p.get target)).costing fetch.seq
  | .longBranchStart offset =>
    ⟨{ p.set Register.lr (p.pc + offset) with locked := true }, bus, fetch.seq⟩
  | .longBranchEnd offset =>
    (p.branchLink bus (p.get Register.lr + offset) (p.nextPc ||| 1)).costing fetch.seq
  | .softwareInterrupt => (p.enterException bus .softwareInterrupt).costing fetch.seq
  | .writeCoprocessor => ⟨p, bus, fetch.seq + Cost.coprocessorWrite⟩
  | .readCoprocessor destination =>
    ⟨p.readCoprocessor destination, bus, fetch.seq + Cost.coprocessorRead⟩
  | .undefined => (p.enterException bus .undefined).costing fetch.seq

end Processor

end Handheld
