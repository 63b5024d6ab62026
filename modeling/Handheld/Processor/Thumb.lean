import Handheld.Processor.Arithmetic
import Handheld.Processor.Condition
import Handheld.Processor.Shifter
import Handheld.Processor.Transfer

/-!
# The 16-bit instruction set

Bits 13 to 15 of an opcode, given as the low half of a word, select a group. The conditional branch
alone carries a condition.

1. Each `execute...` is one format: it reads its operands out of the opcode, changes the processor
   and the bus, and counts the cycles, among them the fetch that the step made.
2. `execute` tells the formats apart. What means nothing is trapped.
-/

namespace Handheld.Thumb

/-! ## Transfers -/

/-- A load that rotates a misaligned value and perhaps extends its sign. -/
def load (register : Register) (width : Width) (signed : Bool) : Transfer :=
  ⟨true, register, width, true, signed⟩

def store (register : Register) (width : Width) : Transfer :=
  ⟨false, register, width, true, false⟩

/-- A load where bit 11 is set, and otherwise a store. -/
def loadOrStore (opcode : Word) (register : Register) (width : Width) : Transfer :=
  if bit opcode 11 then load register width false else store register width

variable {β : Type} [Bus β] (p : Processor) (bus : β) (opcode : Word)

/-! ## Computing -/

/-- Format 1: a shift by a constant. -/
def executeShift : Outcome β :=
  let shift := Shift.ofCode (opcode >>> 11)
  let shifted :=
    shift.byImmediate (p.get (lowRegisterField opcode 3)) (field opcode 6 0x1F) p.status.carry
  let p := p.set (lowRegisterField opcode 0) shifted.value
  ⟨{ p with status := p.status.setNZC (Flags.ofResult shifted.value shifted.carry false) }, bus,
    p.fetchTiming.seq⟩

/-- Format 2: the sum or difference of a register and a register or a constant of three bits. -/
def executeSum : Outcome β :=
  let operand :=
    if bit opcode 10 then field opcode 6 7 else p.get (lowRegisterField opcode 6)
  let source := p.get (lowRegisterField opcode 3)
  let result :=
    if bit opcode 9 then subtract source operand else addWithCarry source operand false
  ⟨(p.set (lowRegisterField opcode 0) result.value).setFlags result.flags, bus,
    p.fetchTiming.seq⟩

/-- Format 3: a register moved, compared, added or subtracted with a constant of eight bits. -/
def executeConstant : Outcome β :=
  let register := lowRegisterField opcode 8
  let constant := opcode &&& 0xFF
  let value := p.get register
  let changed :=
    match (field opcode 11 3).toNat with
    | 0 =>
      let p := p.set register constant
      { p with status := p.status.setNZ (Flags.ofResult constant false false) }
    | 1 => p.setFlags (subtract value constant).flags
    | 2 =>
      let result := addWithCarry value constant false
      (p.set register result.value).setFlags result.flags
    | _ =>
      let result := subtract value constant
      (p.set register result.value).setFlags result.flags
  ⟨changed, bus, p.fetchTiming.seq⟩

/-- What an operation of two low registers computes, whether it keeps the result, and the internal
cycles that it takes. -/
def computeRegisters (code : Word) (a b : Word) (flags : Flags) : Computed × Bool × UInt32 :=
  let logicalOf (operation : Operation) := operation.compute a b flags.c flags
  let shiftedBy (shift : Shift) :=
    let shifted := shift.byAmount a (b &&& 0xFF) flags.c
    logical shifted.value shifted.carry flags.v
  match code.toNat with
  | 0x0 => (logicalOf .and, true, 0)
  | 0x1 => (logicalOf .eor, true, 0)
  | 0x2 => (shiftedBy .lsl, true, Cost.registerShift)
  | 0x3 => (shiftedBy .lsr, true, Cost.registerShift)
  | 0x4 => (shiftedBy .asr, true, Cost.registerShift)
  | 0x5 => (addWithCarry a b flags.c, true, 0)
  | 0x6 => (subtractWithCarry a b flags.c, true, 0)
  | 0x7 => (shiftedBy .ror, true, Cost.registerShift)
  | 0x8 => (logicalOf .tst, false, 0)
  | 0x9 => (subtract 0 b, true, 0)
  | 0xA => (subtract a b, false, 0)
  | 0xB => (addWithCarry a b false, false, 0)
  | 0xC => (logicalOf .orr, true, 0)
  | 0xD => (multiply b a 0 flags, true, Cost.multiplierCycles a true)
  | 0xE => (logicalOf .bic, true, 0)
  | _ => (logicalOf .mvn, true, 0)

/-- Format 4: an operation of two low registers. -/
def executeRegisters : Outcome β :=
  let destination := lowRegisterField opcode 0
  let a := p.get destination
  let b := p.get (lowRegisterField opcode 3)
  let (result, writes, internal) := computeRegisters (field opcode 6 0xF) a b p.status.flags
  let changed := p.setFlags result.flags
  ⟨if writes then changed.set destination result.value else changed, bus,
    p.fetchTiming.seq + internal⟩

/-- Format 5: a sum, comparison or move of any two registers, or BX. -/
def executeHighRegister : Outcome β :=
  let destination := Register.ofNat ((opcode &&& 7) ||| field opcode 4 8).toNat
  let source := p.get (registerField opcode 3)
  let cycles := p.fetchTiming.seq
  let write (value : Word) : Outcome β :=
    let p := p.set destination value
    if destination = Register.pc then (p.completePcWrite bus false).costing cycles
    else ⟨p, bus, cycles⟩
  match (field opcode 8 3).toNat with
  | 0 => write (p.get destination + source)
  | 1 => ⟨p.setFlags (subtract (p.get destination) source).flags, bus, cycles⟩
  | 2 => write source
  | _ => (p.branchExchange bus source).costing cycles

/-! ## Loads and stores -/

/-- Format 6: a load relative to the program counter, with bit 1 of it cleared. -/
def executeLiteralLoad : Outcome β :=
  let address := (p.get Register.pc &&& ~~~2) + (opcode &&& 0xFF) * 4
  p.transfer bus address { load (lowRegisterField opcode 8) .word false with realign := false }

/-- Format 7: a word or a byte at a register plus a register. -/
def executeRegisterOffset : Outcome β :=
  let address := p.get (lowRegisterField opcode 3) + p.get (lowRegisterField opcode 6)
  let width : Width := if bit opcode 10 then .byte else .word
  p.transfer bus address (loadOrStore opcode (lowRegisterField opcode 0) width)

/-- Format 8: a halfword or a signed value at a register plus a register. -/
def executeSignedTransfer : Outcome β :=
  let address := p.get (lowRegisterField opcode 3) + p.get (lowRegisterField opcode 6)
  let register := lowRegisterField opcode 0
  let moved :=
    match (field opcode 10 3).toNat with
    | 0 => store register .halfword
    | 1 => load register .byte true
    | 2 => load register .halfword false
    | _ => load register .halfword true
  p.transfer bus address moved

/-- Format 9: a word or a byte at a register plus a constant. -/
def executeConstantOffset : Outcome β :=
  let width : Width := if bit opcode 12 then .byte else .word
  let address := p.get (lowRegisterField opcode 3) + field opcode 6 0x1F * width.bytes
  p.transfer bus address (loadOrStore opcode (lowRegisterField opcode 0) width)

/-- Format 10: a halfword at a register plus a constant. -/
def executeHalfwordTransfer : Outcome β :=
  let address := p.get (lowRegisterField opcode 3) + field opcode 6 0x1F * 2
  p.transfer bus address (loadOrStore opcode (lowRegisterField opcode 0) .halfword)

/-- Format 11: a word at the stack pointer plus a constant. -/
def executeStackTransfer : Outcome β :=
  let address := p.get Register.sp + (opcode &&& 0xFF) * 4
  p.transfer bus address (loadOrStore opcode (lowRegisterField opcode 8) .word)

/-! ## Addresses and the stack -/

/-- Format 12: an address relative to the stack pointer or the program counter. -/
def executeAddress : Outcome β :=
  let base := if bit opcode 11 then p.get Register.sp else p.get Register.pc &&& ~~~2
  ⟨p.set (lowRegisterField opcode 8) (base + (opcode &&& 0xFF) * 4), bus, p.fetchTiming.seq⟩

/-- Format 13: a constant added to the stack pointer, or subtracted from it. -/
def executeStackAdjust : Outcome β :=
  let magnitude := (opcode &&& 0x7F) * 4
  let sp := p.get Register.sp
  ⟨p.set Register.sp (if bit opcode 7 then sp - magnitude else sp + magnitude), bus,
    p.fetchTiming.seq⟩

/-- Format 14: a push of a list that may add the link register, or a pop that may add the program
counter. -/
def executePushPop : Outcome β :=
  let isLoad := bit opcode 11
  let extra : Word := if bit opcode 8 then if isLoad then 0x8000 else 0x4000 else 0
  p.blockTransfer bus isLoad (opcode &&& 0xFF ||| extra).toUInt16
    { base := Register.sp, up := isLoad, pre := !isLoad, writeBack := true } false

/-- Format 15: a list of registers at ascending addresses. -/
def executeBlockTransfer : Outcome β :=
  p.blockTransfer bus (bit opcode 11) (opcode &&& 0xFF).toUInt16
    { base := lowRegisterField opcode 8, up := true, pre := false, writeBack := true } false

/-! ## Traps and branches -/

/-- Trap an opcode that means nothing. -/
def executeUndefined : Outcome β :=
  (p.enterException bus .undefined).costing p.fetchTiming.seq

def executeSoftwareInterrupt : Outcome β :=
  (p.enterException bus .softwareInterrupt).costing p.fetchTiming.seq

/-- Format 16: a branch on a condition. -/
def executeConditionalBranch : Outcome β :=
  if p.status.passes (field opcode 8 0xF) then
    (p.refill bus (p.get Register.pc + signExtend 8 opcode <<< 1)).costing p.fetchTiming.seq
  else ⟨p, bus, p.fetchTiming.seq⟩

def executeBranch : Outcome β :=
  (p.refill bus (p.get Register.pc + signExtend 11 opcode <<< 1)).costing p.fetchTiming.seq

/-- Format 19: the two halves of a branch with link. The first keeps the upper part of the offset in
the link register, and no interrupt comes between the two. -/
def executeLongBranch : Outcome β :=
  if bit opcode 11 then
    let target := p.get Register.lr + (opcode &&& 0x7FF) <<< 1
    (p.branchLink bus target (p.nextPc ||| 1)).costing p.fetchTiming.seq
  else
    let upper := p.get Register.pc + signExtend 11 opcode <<< 12
    ⟨{ p with locked := true }.set Register.lr upper, bus, p.fetchTiming.seq⟩

/-! ## Opcodes -/

/-- The group of register operations and transfers: bits 13 to 15 are 2. -/
def executeRegisterGroup : Outcome β :=
  if bit opcode 12 then
    if bit opcode 9 then executeSignedTransfer p bus opcode
    else executeRegisterOffset p bus opcode
  else if bit opcode 11 then executeLiteralLoad p bus opcode
  else if bit opcode 10 then executeHighRegister p bus opcode
  else executeRegisters p bus opcode

/-- The group of addresses and the stack: bits 13 to 15 are 5. -/
def executeStackGroup : Outcome β :=
  if bit opcode 12 then
    if bit opcode 10 then
      if bit opcode 9 then executeUndefined p bus else executePushPop p bus opcode
    else if opcode &&& 0xF00 = 0 then executeStackAdjust p bus opcode
    else executeUndefined p bus
  else executeAddress p bus opcode

/-- The group of block transfers and conditional branches: bits 13 to 15 are 6. -/
def executeBranchGroup : Outcome β :=
  if bit opcode 12 then
    match (field opcode 8 0xF).toNat with
    | 0xE => executeUndefined p bus
    | 0xF => executeSoftwareInterrupt p bus
    | _ => executeConditionalBranch p bus opcode
  else executeBlockTransfer p bus opcode

def execute : Outcome β :=
  match (field opcode 13 7).toNat with
  | 0 => if field opcode 11 3 = 3 then executeSum p bus opcode else executeShift p bus opcode
  | 1 => executeConstant p bus opcode
  | 2 => executeRegisterGroup p bus opcode
  | 3 => executeConstantOffset p bus opcode
  | 4 =>
    if bit opcode 12 then executeStackTransfer p bus opcode
    else executeHalfwordTransfer p bus opcode
  | 5 => executeStackGroup p bus opcode
  | 6 => executeBranchGroup p bus opcode
  | _ =>
    if bit opcode 12 then executeLongBranch p bus opcode
    else if bit opcode 11 then executeUndefined p bus
    else executeBranch p bus opcode

end Handheld.Thumb
