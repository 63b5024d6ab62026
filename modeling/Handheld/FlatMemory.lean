import Handheld.Bus
import Handheld.Memory

/-!
# Flat memory

A single memory behind a bus: addresses wrap at its end, and every access costs the same.

1. `FlatMemory.index` maps an address to a byte; the size is meant to be a power of two.
2. `peek`, `write` and `load` read and change bytes; the `Bus` instance adds the cost.
-/

namespace Handheld

/-- Random-access memory that fills the whole address space by repetition. -/
structure FlatMemory where
  size : Nat
  memory : Memory size
  /-- The cost of every access. -/
  timing : Timing

namespace FlatMemory

/-- The size taken where none is asked for: 64K. -/
def defaultSize : Nat := 0x10000

/-- A zeroed memory of `size` bytes whose accesses cost one cycle. -/
def ofSize (size : Nat) : FlatMemory :=
  ⟨size, Memory.filled size 0, Timing.single⟩

/-- The byte that an address falls on. -/
def index (size : Nat) (address : Word) : Nat :=
  address.toNat &&& (size - 1)

/-- Charge `timing` for every access from now on. -/
def setTiming (flat : FlatMemory) (timing : Timing) : FlatMemory :=
  { flat with timing }

def byteAt (flat : FlatMemory) (address : Word) : UInt8 :=
  flat.memory.byteAt (index flat.size address)

def setByte (flat : FlatMemory) (address : Word) (value : UInt8) : FlatMemory :=
  match flat with
  | ⟨size, memory, timing⟩ => ⟨size, memory.set (index size address) value, timing⟩

/-- The value of a width at an address aligned down to it. -/
def peek (flat : FlatMemory) (address : Word) (width : Width) : Word :=
  width.assemble fun lane => flat.byteAt (width.align address + UInt32.ofNat lane)

/-- Store the low bytes of a value at an address aligned down to the width. -/
def poke (flat : FlatMemory) (address value : Word) (width : Width) : FlatMemory :=
  (List.range width.lanes).foldl
    (fun flat index =>
      flat.setByte (width.align address + UInt32.ofNat index) (lane value index)) flat

/-- Copy bytes into memory from an address on. -/
def load (flat : FlatMemory) (address : Word) : List UInt8 → FlatMemory
  | [] => flat
  | byte :: rest => (flat.setByte address byte).load (address + 1) rest

def loadWords (flat : FlatMemory) (address : Word) : List Word → FlatMemory
  | [] => flat
  | word :: rest =>
    (flat.load address [lane word 0, lane word 1, lane word 2, lane word 3]).loadWords
      (address + 4) rest

def loadHalfwords (flat : FlatMemory) (address : Word) : List UInt16 → FlatMemory
  | [] => flat
  | half :: rest =>
    (flat.load address [lane half.toUInt32 0, lane half.toUInt32 1]).loadHalfwords
      (address + 2) rest

instance : Bus FlatMemory where
  read flat address width := (⟨flat.peek address width, flat.timing⟩, flat)
  write flat address value width :=
    let timing := flat.timing
    (timing, flat.poke address value width)
  fetch flat address width := (⟨flat.peek address width, flat.timing⟩, flat)
  latch flat _ := flat

end FlatMemory

end Handheld
