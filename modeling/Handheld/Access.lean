import Handheld.Word

/-!
# Bus accesses

The widths in which a bus moves words, and what an access costs.

1. `Width.align` and `Width.mask` fit an address and a value to a width.
2. `Width.assemble` puts a little-endian value together from its bytes.
3. `Timing` is the pair of costs every access reports; `Read` is a value with its cost.
-/

namespace Handheld

/-! ## Widths -/

/-- The number of bytes one access moves. -/
inductive Width
  | byte
  | halfword
  | word
  deriving DecidableEq, Inhabited

namespace Width

def bytes : Width → Word
  | byte => 1
  | halfword => 2
  | word => 4

/-- The number of byte lanes, as a count. -/
def lanes (width : Width) : Nat :=
  width.bytes.toNat

/-- The address rounded down to a multiple of the width. -/
def align (width : Width) (address : Word) : Word :=
  address &&& ~~~(width.bytes - 1)

/-- The bits of a value that the width carries. -/
def mask : Width → Word
  | byte => 0x000000FF
  | halfword => 0x0000FFFF
  | word => 0xFFFFFFFF

/-- The value whose byte lanes are given, the lowest first. -/
def assemble (width : Width) (lanes : Nat → UInt8) : Word :=
  match width with
  | byte => (lanes 0).toUInt32
  | halfword => (lanes 0).toUInt32 ||| (lanes 1).toUInt32 <<< 8
  | word =>
    (lanes 0).toUInt32 ||| (lanes 1).toUInt32 <<< 8 ||| (lanes 2).toUInt32 <<< 16 |||
      (lanes 3).toUInt32 <<< 24

end Width

/-! ## Costs -/

/-- The cost of an access in cycles: at a new address, and following on at the next address. -/
structure Timing where
  nonseq : UInt32
  seq : UInt32
  deriving DecidableEq, Inhabited

namespace Timing

/-- The same cost either way. -/
def uniform (cycles : UInt32) : Timing := ⟨cycles, cycles⟩

/-- The cheapest access: one cycle either way. -/
def single : Timing := uniform 1

/-- The cost of an access that was never made. -/
def zero : Timing := uniform 0

end Timing

/-- A value read from the bus, zero-extended, and what reading it cost. -/
structure Read where
  data : Word
  timing : Timing
  deriving DecidableEq, Inhabited

def Read.single (data : Word) : Read := ⟨data, Timing.single⟩

end Handheld
