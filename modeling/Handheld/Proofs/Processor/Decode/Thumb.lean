import Handheld.Processor.Thumb
import Handheld.Proofs.Processor.Instruction

/-!
# What 16-bit opcodes mean

The instruction that an opcode asks for, read out of it without executing it. All but the
conditional branch hold always, and all but the address forms relative to the program counter and
the two halves of a long branch mean what some 32-bit opcode means.

1. The groups are read by `decodeShiftGroup`, `decodeRegisterGroup`, `decodeMiscellaneous` and
   their neighbours.
2. `Thumb.decode` reads every opcode; what means nothing is the undefined instruction.
-/

namespace Handheld.Thumb

/-! ## Transfers -/

/-- A transfer at a base register plus an offset. -/
def transferAt (moved : Transfer) (base : Register) (offset : Operand) : Instruction :=
  .transfer moved ⟨base, true, true, false⟩ offset

/-! ## Groups -/

/-- The group of shifts by a constant and three-operand sums: bits 13 to 15 are 0. -/
def decodeShiftGroup (opcode : Word) : Instruction :=
  let destination := lowRegisterField opcode 0
  let source := lowRegisterField opcode 3
  if field opcode 11 3 = 3 then
    let second :=
      if bit opcode 10 then Operand.constant (field opcode 6 7)
      else .register (lowRegisterField opcode 6)
    .process (if bit opcode 9 then .sub else .add) true destination source second
  else
    .process .mov true destination Register.r0
      (.shifted source (Shift.ofCode (opcode >>> 11)) (field opcode 6 0x1F))

/-- The group of operations on a register and a constant: bits 13 to 15 are 1. -/
def decodeConstantGroup (opcode : Word) : Instruction :=
  let register := lowRegisterField opcode 8
  let constant := Operand.constant (opcode &&& 0xFF)
  match (field opcode 11 3).toNat with
  | 0 => .process .mov true register Register.r0 constant
  | 1 => .process .cmp true Register.r0 register constant
  | 2 => .process .add true register register constant
  | _ => .process .sub true register register constant

/-- The operations of two low registers: bits 10 to 15 are 16. -/
def decodeRegisterOperation (opcode : Word) : Instruction :=
  let first := lowRegisterField opcode 0
  let second := lowRegisterField opcode 3
  let process (operation : Operation) : Instruction :=
    .process operation true first first (.register second)
  let shift (shift : Shift) : Instruction :=
    .process .mov true first Register.r0 (.shiftedBy first shift second)
  let test (operation : Operation) : Instruction :=
    .process operation true Register.r0 first (.register second)
  match (field opcode 6 0xF).toNat with
  | 0x0 => process .and
  | 0x1 => process .eor
  | 0x2 => shift .lsl
  | 0x3 => shift .lsr
  | 0x4 => shift .asr
  | 0x5 => process .adc
  | 0x6 => process .sbc
  | 0x7 => shift .ror
  | 0x8 => test .tst
  | 0x9 => .process .rsb true first second (.constant 0)
  | 0xA => test .cmp
  | 0xB => test .cmn
  | 0xC => process .orr
  | 0xD => .multiply true first second first none
  | 0xE => process .bic
  | _ => .process .mvn true first Register.r0 (.register second)

/-- The operations that reach all sixteen registers: bits 10 to 15 are 17. -/
def decodeHighRegister (opcode : Word) : Instruction :=
  let first := Register.ofNat ((opcode &&& 7) ||| field opcode 4 8).toNat
  let second := registerField opcode 3
  match (field opcode 8 3).toNat with
  | 0 => .process .add false first first (.register second)
  | 1 => .process .cmp true Register.r0 first (.register second)
  | 2 => .process .mov false first Register.r0 (.register second)
  | _ => .branchExchange second

/-- The transfers at a base plus a register: bits 12 to 15 are 5. -/
def decodeRegisterOffset (opcode : Word) : Instruction :=
  let register := lowRegisterField opcode 0
  let moved :=
    if bit opcode 9 then
      match (field opcode 10 3).toNat with
      | 0 => store register .halfword
      | 1 => load register .byte true
      | 2 => load register .halfword false
      | _ => load register .halfword true
    else loadOrStore opcode register (if bit opcode 10 then .byte else .word)
  transferAt moved (lowRegisterField opcode 3) (.register (lowRegisterField opcode 6))

/-- The group of register operations: bits 13 to 15 are 2. -/
def decodeRegisterGroup (opcode : Word) : Instruction :=
  if bit opcode 12 then decodeRegisterOffset opcode
  else if bit opcode 11 then
    .loadLiteral (lowRegisterField opcode 8) ((opcode &&& 0xFF) * 4)
  else if bit opcode 10 then decodeHighRegister opcode
  else decodeRegisterOperation opcode

/-- The group of transfers at a base plus a constant: bits 13 to 15 are 3. -/
def decodeConstantOffset (opcode : Word) : Instruction :=
  let width : Width := if bit opcode 12 then .byte else .word
  transferAt (loadOrStore opcode (lowRegisterField opcode 0) width) (lowRegisterField opcode 3)
    (.constant (field opcode 6 0x1F * width.bytes))

/-- The group of halfword and stack transfers: bits 13 to 15 are 4. -/
def decodeHalfwordGroup (opcode : Word) : Instruction :=
  if bit opcode 12 then
    transferAt (loadOrStore opcode (lowRegisterField opcode 8) .word) Register.sp
      (.constant ((opcode &&& 0xFF) * 4))
  else
    transferAt (loadOrStore opcode (lowRegisterField opcode 0) .halfword)
      (lowRegisterField opcode 3) (.constant (field opcode 6 0x1F * 2))

/-- A push of a list that may add the link register, or a pop that may add the program
counter. -/
def pushOrPop (opcode : Word) : Instruction :=
  let load := bit opcode 11
  let extra : Word := if bit opcode 8 then if load then 0x8000 else 0x4000 else 0
  .blockTransfer load (opcode &&& 0xFF ||| extra).toUInt16 ⟨Register.sp, load, !load, true⟩ false

/-- The group of addresses and stack operations: bits 13 to 15 are 5. -/
def decodeMiscellaneous (opcode : Word) : Instruction :=
  if bit opcode 12 then
    if bit opcode 10 then if bit opcode 9 then .undefined else pushOrPop opcode
    else if opcode &&& 0xF00 = 0 then
      .process (if bit opcode 7 then .sub else .add) false Register.sp Register.sp
        (.rotated (opcode &&& 0x7F) 30)
    else .undefined
  else if bit opcode 11 then
    .process .add false (lowRegisterField opcode 8) Register.sp (.rotated (opcode &&& 0xFF) 30)
  else .loadAddress (lowRegisterField opcode 8) ((opcode &&& 0xFF) * 4)

/-- The block transfers and conditional branches: bits 13 to 15 are 6. -/
def decodeBranchGroup (opcode : Word) : Condition × Instruction :=
  if bit opcode 12 then
    match (field opcode 8 0xF).toNat with
    | 0xE => (.always, .undefined)
    | 0xF => (.always, .softwareInterrupt)
    | _ => (Condition.ofCode (opcode >>> 8), .branch (signExtend 8 opcode <<< 1) false)
  else
    (.always, .blockTransfer (bit opcode 11) (opcode &&& 0xFF).toUInt16
      ⟨lowRegisterField opcode 8, true, false, true⟩ false)

/-- The group of long branches: bits 13 to 15 are 7. -/
def decodeLongBranch (opcode : Word) : Instruction :=
  if bit opcode 12 then
    if bit opcode 11 then .longBranchEnd ((opcode &&& 0x7FF) <<< 1)
    else .longBranchStart (signExtend 11 opcode <<< 12)
  else if bit opcode 11 then .undefined
  else .branch (signExtend 11 opcode <<< 1) false

/-- The condition and the instruction of an opcode, given as the low half of a word. -/
def decode (opcode : Word) : Condition × Instruction :=
  match (field opcode 13 7).toNat with
  | 0 => (.always, decodeShiftGroup opcode)
  | 1 => (.always, decodeConstantGroup opcode)
  | 2 => (.always, decodeRegisterGroup opcode)
  | 3 => (.always, decodeConstantOffset opcode)
  | 4 => (.always, decodeHalfwordGroup opcode)
  | 5 => (.always, decodeMiscellaneous opcode)
  | 6 => decodeBranchGroup opcode
  | _ => (.always, decodeLongBranch opcode)

end Handheld.Thumb
