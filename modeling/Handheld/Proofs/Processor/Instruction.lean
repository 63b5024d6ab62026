import Handheld.Processor.Arithmetic
import Handheld.Processor.Condition
import Handheld.Processor.Shifter
import Handheld.Processor.Transfer

/-!
# Instructions

What an opcode of either instruction set asks the processor to do. The two instruction sets have
an engine each, and this is the language in which both are spoken about: a 16-bit opcode means the
same instruction as its 32-bit equivalent wherever it has one.

1. `Operand` is a second operand: a rotated constant or a shifted register.
2. `Instruction` is the language of both instruction sets.
-/

namespace Handheld

/-- The second operand of a data-processing instruction, or the offset of a transfer. -/
inductive Operand
  /-- A constant rotated right by an amount below 32. -/
  | rotated (constant amount : Word)
  /-- A register shifted by a five-bit field. -/
  | shifted (register : Register) (shift : Shift) (amount : Word)
  /-- A register shifted by the low byte of another. -/
  | shiftedBy (register : Register) (shift : Shift) (amount : Register)
  deriving DecidableEq

namespace Operand

/-- A constant as it stands. -/
def constant (value : Word) : Operand := .rotated value 0

/-- A register as it stands. -/
def register (register : Register) : Operand := .shifted register .lsl 0

end Operand

/-- An instruction of either instruction set, apart from its condition. -/
inductive Instruction
  /-- Compute from a register and a second operand. -/
  | process (operation : Operation) (setFlags : Bool) (destination first : Register)
      (second : Operand)
  /-- Copy the current or the saved status word into a register. -/
  | readStatus (saved : Bool) (destination : Register)
  /-- Write the bits of a mask into the current or the saved status word. -/
  | writeStatus (saved : Bool) (mask : Word) (source : Operand)
  /-- Multiply two registers and perhaps add a third. -/
  | multiply (setFlags : Bool) (destination left right : Register)
      (accumulator : Option Register)
  /-- Multiply two registers into a pair of registers. -/
  | multiplyLong (signed accumulate setFlags : Bool) (low high left right : Register)
  /-- Exchange a register with memory. -/
  | swap (width : Width) (destination base source : Register)
  /-- Load or store one value at an address formed from a base register. -/
  | transfer (moved : Transfer) (indexing : Indexing) (offset : Operand)
  /-- Load a word at an offset from the program counter. -/
  | loadLiteral (destination : Register) (offset : Word)
  /-- Form an address at an offset from the program counter. -/
  | loadAddress (destination : Register) (offset : Word)
  /-- Load or store a list of registers, one bit for each. -/
  | blockTransfer (load : Bool) (list : UInt16) (indexing : Indexing) (userBank : Bool)
  /-- Branch to an offset from the program counter. -/
  | branch (offset : Word) (link : Bool)
  /-- Branch to a register and select the instruction set from its lowest bit. -/
  | branchExchange (target : Register)
  /-- Put the upper part of a branch offset into the link register. -/
  | longBranchStart (offset : Word)
  /-- Branch to an offset from the link register, and link. -/
  | longBranchEnd (offset : Word)
  /-- Enter the software interrupt. -/
  | softwareInterrupt
  /-- Write to coprocessor 14, which ignores it. -/
  | writeCoprocessor
  /-- Read from coprocessor 14, which answers with the word in the fetch slot. -/
  | readCoprocessor (destination : Register)
  /-- Enter the undefined instruction trap. -/
  | undefined
  deriving DecidableEq

end Handheld
