import Handheld.Processor.Status

/-!
# Arithmetic and logic

What the data-processing operations compute, as values with the flags that go with them.

1. `addWithCarry` is the one adder; subtraction adds the complement, with the carry set where
   nothing was borrowed.
2. `Operation.compute` is the table of the sixteen operations.
3. `multiply` and `multiplyLong` keep the carry and overflow flags.
-/

namespace Handheld

/-- A value and the flags that go with it. -/
structure Computed where
  value : Word
  flags : Flags
  deriving DecidableEq, Inhabited

/-! ## The adder -/

/-- The sum of two words and a carry, with the carry out and the signed overflow. -/
def addWithCarry (a b : Word) (carry : Bool) : Computed :=
  let wide := a.toUInt64 + b.toUInt64 + carry.toUInt64
  let value := wide.toUInt32
  let overflow := ~~~(a ^^^ b) &&& (a ^^^ value) &&& 0x80000000 != 0
  ⟨value, Flags.ofResult value (0xFFFFFFFF < wide) overflow⟩

/-- The difference of two words; the carry is set where nothing was borrowed. -/
def subtract (a b : Word) : Computed :=
  addWithCarry a (~~~b) true

/-- The difference of two words, less one where the carry is clear. -/
def subtractWithCarry (a b : Word) (carry : Bool) : Computed :=
  addWithCarry a (~~~b) carry

/-- A logical result: its carry comes from the shifter and its overflow flag is kept. -/
def logical (value : Word) (shifterCarry overflow : Bool) : Computed :=
  ⟨value, Flags.ofResult value shifterCarry overflow⟩

/-! ## Data processing -/

inductive Operation
  | and
  | eor
  | sub
  | rsb
  | add
  | adc
  | sbc
  | rsc
  | tst
  | teq
  | cmp
  | cmn
  | orr
  | mov
  | bic
  | mvn
  deriving DecidableEq, Inhabited

namespace Operation

/-- The operation that the low four bits of a code select. -/
def ofCode (code : Word) : Operation :=
  match (code &&& 0xF).toNat with
  | 0x0 => and
  | 0x1 => eor
  | 0x2 => sub
  | 0x3 => rsb
  | 0x4 => add
  | 0x5 => adc
  | 0x6 => sbc
  | 0x7 => rsc
  | 0x8 => tst
  | 0x9 => teq
  | 0xA => cmp
  | 0xB => cmn
  | 0xC => orr
  | 0xD => mov
  | 0xE => bic
  | _ => mvn

/-- Whether the result is kept; a test only sets the flags. -/
def writesResult : Operation → Bool
  | tst | teq | cmp | cmn => false
  | _ => true

/-- Whether the carry comes from the shifter and the overflow flag is kept. -/
def isLogical : Operation → Bool
  | and | eor | tst | teq | orr | mov | bic | mvn => true
  | _ => false

/-- What an operation computes from its operands, the shifter's carry and the flags before. -/
def compute (operation : Operation) (a b : Word) (shifterCarry : Bool) (flags : Flags) :
    Computed :=
  match operation with
  | and | tst => logical (a &&& b) shifterCarry flags.v
  | eor | teq => logical (a ^^^ b) shifterCarry flags.v
  | orr => logical (a ||| b) shifterCarry flags.v
  | mov => logical b shifterCarry flags.v
  | bic => logical (a &&& ~~~b) shifterCarry flags.v
  | mvn => logical (~~~b) shifterCarry flags.v
  | sub | cmp => subtract a b
  | rsb => subtract b a
  | add | cmn => addWithCarry a b false
  | adc => addWithCarry a b flags.c
  | sbc => subtractWithCarry a b flags.c
  | rsc => subtractWithCarry b a flags.c

end Operation

/-! ## Multiplication -/

/-- The low word of a product plus an accumulator. -/
def multiply (a b accumulator : Word) (flags : Flags) : Computed :=
  let value := a * b + accumulator
  ⟨value, Flags.ofResult value flags.c flags.v⟩

/-- The product of two words as unsigned or as signed numbers, modulo `2 ^ 64`. -/
def product (a b : Word) (signed : Bool) : UInt64 :=
  if signed then (a.toInt32.toInt64 * b.toInt32.toInt64).toUInt64
  else a.toUInt64 * b.toUInt64

/-- A double-word product plus an accumulator, with the flags of all 64 bits. -/
def multiplyLong (a b : Word) (accumulator : UInt64) (signed : Bool) (flags : Flags) :
    UInt64 × Flags :=
  let value := product a b signed + accumulator
  (value, ⟨value &&& 0x8000000000000000 != 0, value == 0, flags.c, flags.v⟩)

end Handheld
