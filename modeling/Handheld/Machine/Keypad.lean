import Handheld.Word

/-!
# The keypad

The host holds buttons; the machine sees them as they were at the last poll, and can ask for an
interrupt when any or all of some selected buttons are held.

1. `press`, `release` and `hold` are the host's side.
2. `poll` takes the snapshot and says whether the interrupt condition holds.
3. `read?` and `write` are the registers, one byte at a time.
-/

namespace Handheld

inductive Button
  | a
  | b
  | select
  | start
  | right
  | left
  | up
  | down
  | r
  | l
  deriving DecidableEq, Inhabited

namespace Button

/-- The buttons in the order of their bits. -/
def all : List Button := [a, b, select, start, right, left, up, down, r, l]

def bit : Button → UInt16
  | a => 0x001
  | b => 0x002
  | select => 0x004
  | start => 0x008
  | right => 0x010
  | left => 0x020
  | up => 0x040
  | down => 0x080
  | r => 0x100
  | l => 0x200

/-- The bits of all buttons. -/
def allBits : UInt16 := 0x3FF

end Button

/-- The buttons held and the keypad registers. -/
structure Keypad where
  /-- The buttons the host holds, by bit. -/
  held : UInt16
  /-- The snapshot of the last poll, with a clear bit for a held button. -/
  input : UInt16
  /-- The selected buttons, and in bits 14 and 15 whether and how they interrupt. -/
  selection : UInt16
  deriving DecidableEq

namespace Keypad

def inputAddress : Word := 0x04000130
def selectionAddress : Word := 0x04000132

/-- A keypad with no button held. -/
def initial : Keypad := ⟨0, Button.allBits, 0⟩

instance : Inhabited Keypad := ⟨initial⟩

/-- Reset the registers; held buttons stay held. -/
def reset (keypad : Keypad) : Keypad :=
  ⟨keypad.held, Button.allBits, 0⟩

/-! ## The host's side -/

def press (keypad : Keypad) (button : Button) : Keypad :=
  { keypad with held := keypad.held ||| button.bit }

def release (keypad : Keypad) (button : Button) : Keypad :=
  { keypad with held := keypad.held &&& ~~~button.bit }

/-- Hold exactly the buttons of some bits. -/
def hold (keypad : Keypad) (bits : UInt16) : Keypad :=
  { keypad with held := bits &&& Button.allBits }

/-- The bits of the buttons held. -/
def pressed (keypad : Keypad) : UInt16 :=
  keypad.held &&& Button.allBits

/-! ## The machine's side -/

def selected (keypad : Keypad) : UInt16 :=
  keypad.selection &&& Button.allBits

/-- Whether the held buttons meet the selection: all of them where bit 15 is set, otherwise
any. The condition counts while the interrupt is enabled in bit 14 or the machine is stopped. -/
def condition (keypad : Keypad) (stopped : Bool) : Bool :=
  let selected := keypad.selected
  let down := keypad.pressed &&& selected
  if (keypad.selection &&& 0x4000 == 0 && !stopped) || selected == 0 then false
  else if keypad.selection &&& 0x8000 == 0 then down != 0
  else down == selected

/-- Take a snapshot of the held buttons, and say whether the interrupt condition holds. -/
def poll (keypad : Keypad) (stopped : Bool) : Bool × Keypad :=
  (keypad.condition stopped, { keypad with input := ~~~keypad.pressed &&& Button.allBits })

/-- The register byte at an address, if a register backs it. -/
def read? (keypad : Keypad) (address : Word) : Option UInt8 :=
  match address.toNat with
  | 0x04000130 => some (lowByte keypad.input)
  | 0x04000131 => some (highByte keypad.input)
  | 0x04000132 => some (lowByte keypad.selection)
  | 0x04000133 => some (highByte keypad.selection)
  | _ => none

/-- Write the register byte at an address. -/
def write (keypad : Keypad) (address : Word) (value : UInt8) : Keypad :=
  match address.toNat with
  | 0x04000132 => { keypad with selection := withLowByte keypad.selection value }
  | 0x04000133 => { keypad with selection := withHighByte keypad.selection (value &&& 0xC3) }
  | _ => keypad

end Keypad

end Handheld
