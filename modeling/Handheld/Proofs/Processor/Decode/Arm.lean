import Handheld.Processor.Arm
import Handheld.Proofs.Processor.Instruction

/-!
# What 32-bit opcodes mean

The instruction that an opcode asks for, read out of it without executing it.

1. `Arm.decodeRegisterGroup` reads the most crowded group, in which multiplications, swaps,
   halfword transfers and status transfers are told apart by bits 4 to 7 and 20 to 24.
2. `Arm.decode` reads every opcode; what means nothing is the undefined instruction.
-/

namespace Handheld.Arm

/-! ## Operands -/

/-- The operand that is a constant of eight bits, rotated by twice a field of four. -/
def rotatedConstant (opcode : Word) : Operand :=
  .rotated (opcode &&& 0xFF) (field opcode 8 0xF * 2)

/-- The operand that is a register, shifted by a field or by a register. -/
def shiftedRegister (opcode : Word) : Operand :=
  let shift := Shift.ofCode (opcode >>> 5)
  if bit opcode 4 then .shiftedBy (registerField opcode 0) shift (registerField opcode 8)
  else .shifted (registerField opcode 0) shift (field opcode 7 0x1F)

/-! ## Groups -/

/-- A data-processing opcode with a given second operand. -/
def process (opcode : Word) (second : Operand) : Instruction :=
  .process (Operation.ofCode (opcode >>> 21)) (bit opcode 20) (registerField opcode 12)
    (registerField opcode 16) second

/-- A status transfer with a given source. -/
def statusTransfer (opcode : Word) (source : Operand) : Instruction :=
  if bit opcode 21 then .writeStatus (bit opcode 22) (statusMask opcode) source
  else .readStatus (bit opcode 22) (registerField opcode 12)

/-- A swap of a word or a byte. -/
def swap (opcode : Word) : Instruction :=
  .swap (if bit opcode 22 then .byte else .word) (registerField opcode 12)
    (registerField opcode 16) (registerField opcode 0)

/-- A double-word multiplication. -/
def multiplyLong (opcode : Word) : Instruction :=
  .multiplyLong (bit opcode 22) (bit opcode 21) (bit opcode 20) (registerField opcode 12)
    (registerField opcode 16) (registerField opcode 0) (registerField opcode 8)

/-- A multiplication. -/
def multiply (opcode : Word) : Instruction :=
  .multiply (bit opcode 20) (registerField opcode 16) (registerField opcode 0)
    (registerField opcode 8)
    (if bit opcode 21 then some (registerField opcode 12) else none)

/-- A transfer of a word or a byte with a given offset. -/
def wordTransfer (opcode : Word) (offset : Operand) : Instruction :=
  .transfer
    { load := bit opcode 20
      register := registerField opcode 12
      width := if bit opcode 22 then .byte else .word
      realign := true
      signed := false }
    (indexing opcode) offset

/-- A transfer of a halfword or a signed value. -/
def halfwordTransfer (opcode : Word) : Instruction :=
  .transfer
    { load := bit opcode 20
      register := registerField opcode 12
      width := if bit opcode 5 then .halfword else .byte
      realign := true
      signed := bit opcode 6 }
    (indexing opcode)
    (if bit opcode 22 then .constant (opcode &&& 0xF ||| field opcode 4 0xF0)
     else .register (registerField opcode 0))

/-- The group of multiplications and swaps: bits 4 to 7 are 9. -/
def decodeMultiply (opcode : Word) : Instruction :=
  if bit opcode 24 then if opcode &&& 0x00B00F00 = 0 then swap opcode else .undefined
  else if bit opcode 23 then multiplyLong opcode
  else if bit opcode 22 then .undefined
  else multiply opcode

/-- The group whose second operand is a register: bits 25 to 27 are 0. -/
def decodeRegisterGroup (opcode : Word) : Instruction :=
  if opcode &&& 0x0FFFFFF0 = 0x012FFF10 then .branchExchange (registerField opcode 0)
  else if opcode &&& 0xF0 = 0x90 then decodeMultiply opcode
  else if opcode &&& 0x90 = 0x90 then
    if bit opcode 22 || opcode &&& 0xF00 == 0 then halfwordTransfer opcode else .undefined
  else if isStatusTransfer opcode then
    if opcode &&& 0xFF0 = 0 then statusTransfer opcode (.register (registerField opcode 0))
    else .undefined
  else process opcode (shiftedRegister opcode)

/-- The group whose second operand is a constant: bits 25 to 27 are 1. -/
def decodeConstantGroup (opcode : Word) : Instruction :=
  if isStatusTransfer opcode then
    if bit opcode 21 then statusTransfer opcode (rotatedConstant opcode) else .undefined
  else process opcode (rotatedConstant opcode)

/-- The group of coprocessor and software interrupt opcodes: bits 25 to 27 are 7. -/
def decodeCoprocessorGroup (opcode : Word) : Instruction :=
  if bit opcode 24 then .softwareInterrupt
  else if bit opcode 4 && field opcode 8 0xF == 14 then
    if bit opcode 20 then .readCoprocessor (registerField opcode 12) else .writeCoprocessor
  else .undefined

/-- The instruction of an opcode, apart from its condition. -/
def decodeBody (opcode : Word) : Instruction :=
  match (field opcode 25 7).toNat with
  | 0 => decodeRegisterGroup opcode
  | 1 => decodeConstantGroup opcode
  | 2 => wordTransfer opcode (.constant (opcode &&& 0xFFF))
  | 3 =>
    if bit opcode 4 then .undefined
    else
      wordTransfer opcode
        (.shifted (registerField opcode 0) (Shift.ofCode (opcode >>> 5)) (field opcode 7 0x1F))
  | 4 => .blockTransfer (bit opcode 20) opcode.toUInt16 (indexing opcode) (bit opcode 22)
  | 5 => .branch (signExtend 24 opcode <<< 2) (bit opcode 24)
  | 6 => .undefined
  | _ => decodeCoprocessorGroup opcode

/-- The condition and the instruction of an opcode. -/
def decode (opcode : Word) : Condition × Instruction :=
  (Condition.ofCode (opcode >>> 28), decodeBody opcode)

end Handheld.Arm
