import Handheld.Access

/-!
# The status word

A status word holds the condition flags in bits 28 to 31, the interrupt masks and the
instruction set in bits 5 to 7, and the mode in bits 0 to 4.

1. `Mode.ofBits?` reads a mode field; reserved encodings are no mode.
2. `Status.flags` and `Status.setFlags` read and write the four condition flags, which
   `Status.flagNibble` shows as one number; `Status.setNZC` and `Status.setNZ` keep some of them.
3. `Status.setBit` and `Status.setMode` change the control bits.
-/

namespace Handheld

/-! ## Modes -/

/-- A privilege mode. -/
inductive Mode
  | user
  | fiq
  | irq
  | supervisor
  | abort
  | undefined
  | system
  deriving DecidableEq, Inhabited

namespace Mode

/-- The encoding in the mode field. -/
def bits : Mode → Word
  | user => 0x10
  | fiq => 0x11
  | irq => 0x12
  | supervisor => 0x13
  | abort => 0x17
  | undefined => 0x1B
  | system => 0x1F

/-- The bits of a status word that hold the mode. -/
def fieldMask : Word := 0x1F

/-- The mode that a status word's mode field encodes, if it encodes one. -/
def ofBits? (word : Word) : Option Mode :=
  let field := word &&& fieldMask
  if field = 0x10 then some user
  else if field = 0x11 then some fiq
  else if field = 0x12 then some irq
  else if field = 0x13 then some supervisor
  else if field = 0x17 then some abort
  else if field = 0x1B then some undefined
  else if field = 0x1F then some system
  else none

/-- Every mode but user mode may touch the control byte. -/
def privileged (mode : Mode) : Bool :=
  mode != user

def name : Mode → String
  | user => "usr"
  | fiq => "fiq"
  | irq => "irq"
  | supervisor => "svc"
  | abort => "abt"
  | undefined => "und"
  | system => "sys"

end Mode

/-! ## Condition flags -/

/-- The condition flags: negative, zero, carry and overflow. -/
structure Flags where
  n : Bool
  z : Bool
  c : Bool
  v : Bool
  deriving DecidableEq, Inhabited

namespace Flags

/-- The flags of a result, with carry and overflow as given. -/
def ofResult (result : Word) (carry overflow : Bool) : Flags :=
  ⟨result &&& 0x80000000 != 0, result == 0, carry, overflow⟩

/-- The four flags as a number, negative in its bit 3. -/
def nibble (flags : Flags) : Word :=
  flags.n.toUInt32 <<< 3 ||| flags.z.toUInt32 <<< 2 ||| flags.c.toUInt32 <<< 1 |||
    flags.v.toUInt32

/-- The flags that a number packs, negative in its bit 3. -/
def ofNibble (nibble : Word) : Flags :=
  ⟨nibble &&& 8 != 0, nibble &&& 4 != 0, nibble &&& 2 != 0, nibble &&& 1 != 0⟩

end Flags

/-! ## Status words -/

/-- A status word, current or saved. -/
structure Status where
  bits : Word
  deriving DecidableEq, Inhabited

namespace Status

def negative : Word := 0x80000000
def zero : Word := 0x40000000
def carryBit : Word := 0x20000000
def overflow : Word := 0x10000000
/-- The bit that masks interrupts. -/
def irqMask : Word := 0x80
/-- The bit that masks fast interrupts. -/
def fiqMask : Word := 0x40
/-- The bit that selects 16-bit instructions. -/
def thumbBit : Word := 0x20
/-- The four bits of the condition flags. -/
def flagsMask : Word := 0xF0000000

/-- The mode of a status word, unless its mode field is reserved. -/
def mode? (status : Status) : Option Mode :=
  Mode.ofBits? status.bits

def setMode (status : Status) (mode : Mode) : Status :=
  ⟨status.bits &&& ~~~Mode.fieldMask ||| mode.bits⟩

/-- Whether any bit of a mask is set. -/
def has (status : Status) (mask : Word) : Bool :=
  status.bits &&& mask != 0

/-- Set or clear every bit of a mask. -/
def setBit (status : Status) (mask : Word) (on : Bool) : Status :=
  if on then ⟨status.bits ||| mask⟩ else ⟨status.bits &&& ~~~mask⟩

/-- Whether 16-bit instructions are selected. -/
def thumb (status : Status) : Bool := status.has thumbBit

def setThumb (status : Status) (thumb : Bool) : Status := status.setBit thumbBit thumb

def irqDisabled (status : Status) : Bool := status.has irqMask

def fiqDisabled (status : Status) : Bool := status.has fiqMask

def carry (status : Status) : Bool := status.has carryBit

def flags (status : Status) : Flags :=
  ⟨status.has negative, status.has zero, status.has carryBit, status.has overflow⟩

/-- The condition flags as a number, negative in its bit 3. -/
def flagNibble (status : Status) : Word := status.bits >>> 28

/-- Replace all four condition flags. -/
def setFlags (status : Status) (flags : Flags) : Status :=
  ⟨status.bits &&& ~~~flagsMask ||| flags.nibble <<< 28⟩

/-- Replace the condition flags but for those of a mask. -/
def setFlagsKeeping (status : Status) (kept : Word) (flags : Flags) : Status :=
  ⟨(status.setFlags flags).bits &&& ~~~kept ||| (status.bits &&& kept)⟩

/-- Replace the negative, zero and carry flags and keep the overflow flag. -/
def setNZC (status : Status) (flags : Flags) : Status :=
  status.setFlagsKeeping overflow flags

/-- Replace the negative and zero flags and keep the other two. -/
def setNZ (status : Status) (flags : Flags) : Status :=
  status.setFlagsKeeping (carryBit ||| overflow) flags

end Status

end Handheld
