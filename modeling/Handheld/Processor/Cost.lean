import Handheld.Access

/-!
# Costs of instructions

Costs follow from the access timings that the bus reported; `fetch` is always the timing of the
opcode fetch made at the start of the step.

1. `multiplierCycles` counts the cycles a multiplier operand takes, one to four.
2. `load`, `store`, `swap`, `blockStart` and `blockWord` cost the data transfers.
3. `refill` costs a branch.
-/

namespace Handheld.Cost

/-! ## Fixed costs -/

def registerShift : UInt32 := 1
/-- The internal cycle in which a load writes its register. -/
def loadInternal : UInt32 := 1
def coprocessorWrite : UInt32 := 2
def coprocessorRead : UInt32 := 3
def undefinedEntry : UInt32 := 1
def interruptEntry : UInt32 := 4

/-! ## Multiplication -/

/-- The number of zeros at the top of a word. -/
def leadingZeros (value : Word) : UInt32 :=
  ⟨value.toBitVec.clz⟩

/-- The number of ones at the top of a word. -/
def leadingOnes (value : Word) : UInt32 :=
  leadingZeros (~~~value)

/-- The whole bytes among some leading bits, of three at most. -/
def leadingBytes (bits : UInt32) : UInt32 :=
  let bytes := bits / 8
  if 3 < bytes then 3 else bytes

/-- The cycles of the multiplier array: each leading byte of zeros saves one, and in a signed
multiplication so does each leading byte of ones. -/
def multiplierCycles (operand : Word) (signed : Bool) : UInt32 :=
  let zeros := leadingBytes (leadingZeros operand)
  if signed then
    let ones := leadingBytes (leadingOnes operand)
    4 - if ones < zeros then zeros else ones
  else 4 - zeros

/-- The cost of a multiplication, one cycle more with an accumulator. -/
def multiply (fetch : Timing) (operand : Word) (accumulate : Bool) : UInt32 :=
  fetch.seq + multiplierCycles operand true + accumulate.toUInt32

/-- The cost of a double-word multiplication. -/
def multiplyLong (fetch : Timing) (operand : Word) (signed accumulate : Bool) : UInt32 :=
  fetch.seq + multiplierCycles operand signed + accumulate.toUInt32 + 1

/-! ## Data transfers -/

def load (fetch data : Timing) : UInt32 :=
  fetch.seq + data.nonseq + loadInternal

def store (fetch data : Timing) : UInt32 :=
  fetch.nonseq + data.nonseq

def swap (fetch read write : Timing) : UInt32 :=
  fetch.seq + read.nonseq + write.nonseq + loadInternal

/-- The fixed part of the cost of a block transfer. -/
def blockStart (fetch : Timing) (load : Bool) : UInt32 :=
  if load then fetch.seq + loadInternal else fetch.nonseq

/-- The part of the cost of a block transfer that each word adds. -/
def blockWord (data : Timing) (first : Bool) : UInt32 :=
  (if first then data.nonseq else data.seq) + data.seq

/-! ## Branches -/

/-- The cost of refilling the pipeline from its first and second fetch. -/
def refill (first second : Timing) : UInt32 :=
  first.nonseq + second.seq

end Handheld.Cost
