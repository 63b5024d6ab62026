import Handheld.Processor.Arithmetic
import Handheld.Processor.Condition
import Handheld.Processor.Shifter
import Handheld.Processor.Transfer

/-!
# The 32-bit instruction set

Bits 28 to 31 of an opcode are its condition; bits 25 to 27 select a group.

1. Each `execute...` is one format: it reads its operands out of the opcode, changes the processor
   and the bus, and counts the cycles, among them the fetch that the step made.
2. `executeRegisterGroup` tells apart the formats of the most crowded group by bits 4 to 7 and 20 to
   24, and `execute` those of all groups. What means nothing is trapped.
-/

namespace Handheld.Arm

variable {β : Type} [Bus β] (p : Processor) (bus : β) (opcode : Word)

/-! ## Fields -/

/-- How a transfer opcode addresses memory. -/
def indexing : Indexing where
  base := registerField opcode 16
  up := bit opcode 23
  pre := bit opcode 24
  writeBack := bit opcode 21

/-- The mask of the bytes of a status word that bits 16 to 19 select. -/
def statusMask : Word :=
  (if bit opcode 16 then 0x000000FF else 0) ||| (if bit opcode 17 then 0x0000FF00 else 0) |||
    (if bit opcode 18 then 0x00FF0000 else 0) ||| (if bit opcode 19 then 0xFF000000 else 0)

/-- Whether an opcode is a test that sets no flags, the place of the status transfers. -/
def isStatusTransfer : Bool :=
  bit opcode 24 && !bit opcode 23 && !bit opcode 20

/-! ## Traps and branches -/

def executeUndefined : Outcome β :=
  (p.enterException bus .undefined).costing p.fetchTiming.seq

def executeSoftwareInterrupt : Outcome β :=
  (p.enterException bus .softwareInterrupt).costing p.fetchTiming.seq

/-- BX. -/
def executeBranchExchange : Outcome β :=
  (p.branchExchange bus (p.get (registerField opcode 0))).costing p.fetchTiming.seq

/-- B and BL. -/
def executeBranch : Outcome β :=
  let offset := ((opcode <<< 8).toInt32 >>> 6).toUInt32
  let target := p.get Register.pc + offset
  (if bit opcode 24 then p.branchLink bus target p.nextPc else p.refill bus target).costing
    p.fetchTiming.seq

/-! ## Registers and status -/

/-- The data-processing operations. A shift by a register takes a cycle, in which the program
counter moves on. A result in the program counter refills the pipeline, and restores the saved
status word where the flags are set. -/
def executeDataProcessing : Outcome β :=
  let setFlags := bit opcode 20
  let operation := Operation.ofCode (opcode >>> 21)
  let carry := p.status.carry
  let (operand, internal, ahead) : Shifted × UInt32 × Word :=
    if bit opcode 25 then (Shift.rotate (opcode &&& 0xFF) (field opcode 8 0xF * 2) carry, 0, 0)
    else
      let shift := Shift.ofCode (opcode >>> 5)
      if bit opcode 4 then
        let ahead := p.width.bytes
        let amount := p.getAhead (registerField opcode 8) ahead &&& 0xFF
        (shift.byAmount (p.getAhead (registerField opcode 0) ahead) amount carry,
          Cost.registerShift, ahead)
      else (shift.byImmediate (p.get (registerField opcode 0)) (field opcode 7 0x1F) carry, 0, 0)
  let first := p.getAhead (registerField opcode 16) ahead
  let result := operation.compute first operand.value operand.carry p.status.flags
  let cycles := p.fetchTiming.seq + internal
  let p := if setFlags then p.setFlags result.flags else p
  let destination := registerField opcode 12
  if operation.writesResult then
    let p := p.set destination result.value
    if destination = Register.pc then (p.completePcWrite bus setFlags).costing cycles
    else ⟨p, bus, cycles⟩
  else ⟨p, bus, cycles⟩

/-- MRS and MSR. A write changes whole bytes, in user mode only that of the flags. -/
def executeStatusTransfer : Outcome β :=
  let saved := bit opcode 22
  let cycles := p.fetchTiming.seq
  if bit opcode 21 then
    let value :=
      if bit opcode 25 then rotateRight (opcode &&& 0xFF) (field opcode 8 0xF * 2)
      else p.get (registerField opcode 0)
    let mask := statusMask opcode
    if saved then
      let word := p.registers.savedStatus
      ⟨p.setSavedStatus (word &&& ~~~mask ||| (value &&& mask)), bus, cycles⟩
    else
      let mask :=
        if !p.mode.privileged && mask &&& 0x00FFFFFF != 0 then mask &&& 0xFF000000 else mask
      ⟨p.writeStatus (p.status.bits &&& ~~~mask ||| (value &&& mask)), bus, cycles⟩
  else
    let value := if saved then p.registers.savedStatus else p.status.bits
    ⟨p.set (registerField opcode 12) value, bus, cycles⟩

/-! ## Multiplication -/

/-- MUL and MLA. -/
def executeMultiply : Outcome β :=
  let accumulate := bit opcode 21
  let multiplier := p.get (registerField opcode 8)
  let addend := if accumulate then p.get (registerField opcode 12) else 0
  let result := multiply (p.get (registerField opcode 0)) multiplier addend p.status.flags
  let cycles := Cost.multiply p.fetchTiming multiplier accumulate
  let p := p.set (registerField opcode 16) result.value
  let p := if bit opcode 20 then { p with status := p.status.setNZ result.flags } else p
  ⟨p, bus, cycles⟩

/-- UMULL, UMLAL, SMULL and SMLAL. -/
def executeMultiplyLong : Outcome β :=
  let accumulate := bit opcode 21
  let signed := bit opcode 22
  let low := registerField opcode 12
  let high := registerField opcode 16
  let multiplier := p.get (registerField opcode 8)
  let addend : UInt64 :=
    if accumulate then (p.get high).toUInt64 <<< 32 ||| (p.get low).toUInt64 else 0
  let result :=
    multiplyLong (p.get (registerField opcode 0)) multiplier addend signed p.status.flags
  let cycles := Cost.multiplyLong p.fetchTiming multiplier signed accumulate
  let p := (p.set low result.1.toUInt32).set high (result.1 >>> 32).toUInt32
  let p := if bit opcode 20 then { p with status := p.status.setNZ result.2 } else p
  ⟨p, bus, cycles⟩

/-! ## Memory and coprocessor -/

/-- LDR, STR, LDRB and STRB. -/
def executeSingleTransfer : Outcome β :=
  let offset :=
    if bit opcode 25 then
      ((Shift.ofCode (opcode >>> 5)).byImmediate (p.get (registerField opcode 0))
        (field opcode 7 0x1F) p.status.carry).value
    else opcode &&& 0xFFF
  let moved : Transfer :=
    { load := bit opcode 20
      register := registerField opcode 12
      width := if bit opcode 22 then .byte else .word
      realign := true
      signed := false }
  p.indexedTransfer bus moved (indexing opcode) offset

/-- LDRH, STRH, LDRSB and LDRSH. -/
def executeHalfwordTransfer : Outcome β :=
  let offset :=
    if bit opcode 22 then opcode &&& 0xF ||| field opcode 4 0xF0
    else p.get (registerField opcode 0)
  let moved : Transfer :=
    { load := bit opcode 20
      register := registerField opcode 12
      width := if bit opcode 5 then .halfword else .byte
      realign := true
      signed := bit opcode 6 }
  p.indexedTransfer bus moved (indexing opcode) offset

/-- LDM and STM. -/
def executeBlockTransfer : Outcome β :=
  p.blockTransfer bus (bit opcode 20) opcode.toUInt16 (indexing opcode) (bit opcode 22)

/-- SWP and SWPB. -/
def executeSwap : Outcome β :=
  let width : Width := if bit opcode 22 then .byte else .word
  let address := p.get (registerField opcode 16)
  match Processor.loadValue bus address width true false with
  | (answer, bus) =>
    let source := p.get (registerField opcode 0)
    match Processor.storeValue bus address source width with
    | (timing, bus) =>
      ⟨p.set (registerField opcode 12) answer.data, bus,
        Cost.swap p.fetchTiming answer.timing timing⟩

/-- MRC and MCR. Coprocessor 14 alone answers: it ignores a write, and is read as the word in the
fetch slot. A read into the program counter sets the flags instead. -/
def executeCoprocessor : Outcome β :=
  if field opcode 8 0xF ≠ 14 then executeUndefined p bus
  else if bit opcode 20 then
    let cycles := p.fetchTiming.seq + Cost.coprocessorRead
    let data := p.prefetched
    let destination := registerField opcode 12
    let p :=
      if destination = Register.pc then
        { p with status :=
            ⟨p.status.bits &&& ~~~Status.flagsMask ||| (data &&& Status.flagsMask)⟩ }
      else p.set destination data
    ⟨p, bus, cycles⟩
  else ⟨p, bus, p.fetchTiming.seq + Cost.coprocessorWrite⟩

/-! ## Opcodes -/

/-- The multiplications and swaps: bits 4 to 7 are 9. -/
def executeMultiplyGroup : Outcome β :=
  if bit opcode 24 then
    if opcode &&& 0x00B00F00 = 0 then executeSwap p bus opcode else executeUndefined p bus
  else if bit opcode 23 then executeMultiplyLong p bus opcode
  else if bit opcode 22 then executeUndefined p bus
  else executeMultiply p bus opcode

/-- The group whose second operand is a register: bits 25 to 27 are 0. -/
def executeRegisterGroup : Outcome β :=
  if opcode &&& 0x0FFFFFF0 = 0x012FFF10 then executeBranchExchange p bus opcode
  else if opcode &&& 0xF0 = 0x90 then executeMultiplyGroup p bus opcode
  else if opcode &&& 0x90 = 0x90 then
    if bit opcode 22 || opcode &&& 0xF00 == 0 then executeHalfwordTransfer p bus opcode
    else executeUndefined p bus
  else if isStatusTransfer opcode then
    if opcode &&& 0xFF0 = 0 then executeStatusTransfer p bus opcode else executeUndefined p bus
  else executeDataProcessing p bus opcode

/-- The group whose second operand is a constant: bits 25 to 27 are 1. -/
def executeConstantGroup : Outcome β :=
  if isStatusTransfer opcode then
    if bit opcode 21 then executeStatusTransfer p bus opcode else executeUndefined p bus
  else executeDataProcessing p bus opcode

/-- The group of coprocessor and software interrupt opcodes: bits 25 to 27 are 7. -/
def executeCoprocessorGroup : Outcome β :=
  if bit opcode 24 then executeSoftwareInterrupt p bus
  else if bit opcode 4 then executeCoprocessor p bus opcode
  else executeUndefined p bus

/-- Execute an opcode whose condition holds. -/
def executeBody : Outcome β :=
  match (field opcode 25 7).toNat with
  | 0 => executeRegisterGroup p bus opcode
  | 1 => executeConstantGroup p bus opcode
  | 2 => executeSingleTransfer p bus opcode
  | 3 => if bit opcode 4 then executeUndefined p bus else executeSingleTransfer p bus opcode
  | 4 => executeBlockTransfer p bus opcode
  | 5 => executeBranch p bus opcode
  | 6 => executeUndefined p bus
  | _ => executeCoprocessorGroup p bus opcode

/-- Execute an opcode, or pass over it where its condition fails. -/
def execute : Outcome β :=
  if p.status.passes (opcode >>> 28) then executeBody p bus opcode
  else ⟨p, bus, p.fetchTiming.seq⟩

end Handheld.Arm
