import Handheld.Access
import Handheld.Machine.Signal

/-!
# System control

The control block holds the interrupt registers, the cartridge wait states, the power-down
latch and the memory control.

1. `request` latches interrupt requests, and `poll` wakes the machine on an enabled one.
2. `romWait`, `backupWait` and `largeRamWait` are the costs that its registers set.
3. `read?` and `write` are its registers, one byte at a time.
-/

namespace Handheld

/-- How far the machine is powered down. -/
inductive Power
  | running
  /-- The processor sleeps until an enabled interrupt is requested. -/
  | halted
  /-- All but video and keypad sleep until a wake source fires. -/
  | stopped
  deriving DecidableEq, Inhabited

def Power.name : Power → String
  | .running => "none"
  | .halted => "halt"
  | .stopped => "stop"

/-- The system control block. -/
structure Control where
  enabled : UInt16
  requested : UInt16
  masterEnable : Bool
  waitStates : UInt16
  postBoot : Bool
  /-- A byte at 0x410 that keeps what is written and does nothing. -/
  scratch : UInt8
  memoryControl : Word
  power : Power
  deriving DecidableEq

namespace Control

/-! ## Addresses -/

def enableAddress : Word := 0x04000200
def requestAddress : Word := 0x04000202
def waitAddress : Word := 0x04000204
def masterAddress : Word := 0x04000208
def postBootAddress : Word := 0x04000300
def powerAddress : Word := 0x04000301
def memoryAddress : Word := 0x04000800

/-- The register that an address stands for: memory control repeats every 64K. -/
def home (address : Word) : Word :=
  if address &&& 0xFF00FFFC = memoryAddress then address &&& 0xFF00FFFF else address

/-! ## Interrupts and power -/

/-- The control block after reset: large work RAM is on and waits for 13. -/
def initial : Control :=
  ⟨0, 0, false, 0, false, 0, 0x0D000020, .running⟩

instance : Inhabited Control := ⟨initial⟩

/-- The sources that can bring the machine out of stop. -/
def wakeSources : UInt16 :=
  Interrupt.keypad.bit ||| Interrupt.gamePak.bit ||| Interrupt.serial.bit

def wake (control : Control) : Control :=
  { control with power := .running }

/-- Latch interrupt requests. While stopped nothing is latched, and an enabled wake source only
wakes the machine. -/
def request (control : Control) (sources : UInt16) : Control :=
  if control.power ≠ .stopped then
    { control with requested := control.requested ||| sources }
  else if sources &&& wakeSources &&& control.enabled ≠ 0 then control.wake
  else control

/-- Latch the requests of some signals, if there are any. -/
def requestAll (control : Control) (signals : Signals) : Control :=
  if signals.interrupts ≠ 0 then control.request signals.interrupts else control

/-- Whether an enabled source is requested. -/
def pending (control : Control) : Bool :=
  control.enabled &&& control.requested &&& Interrupt.allBits != 0

/-- Whether the processor should take an interrupt. -/
def due (control : Control) : Bool :=
  control.pending && control.masterEnable

/-- Wake on any enabled request, and say whether the processor should take an interrupt. -/
def poll (control : Control) : Bool × Control :=
  (control.due, if control.pending then control.wake else control)

/-! ## Wait states -/

def prefetchEnabled (control : Control) : Bool :=
  control.waitStates &&& 0x4000 != 0

/-- The frequency on the cartridge's clock pin, in hertz; zero where it is off. -/
def clockPin (control : Control) : Nat :=
  match ((control.waitStates >>> 11) &&& 3 : UInt16).toNat with
  | 0 => 0
  | 1 => 4194304
  | 2 => 8388608
  | _ => 16777216

def ramEnabled (control : Control) : Bool :=
  control.memoryControl &&& 1 == 0

def largeRamEnabled (control : Control) : Bool :=
  control.memoryControl &&& 0x20 != 0

/-- The cost of a first access by a two-bit code. -/
def firstAccess (code : UInt16) : UInt32 :=
  match (code &&& 3).toNat with
  | 0 => 5
  | 1 => 4
  | 2 => 3
  | _ => 9

/-- The cost of a second access, which a one-bit code makes two and which is otherwise slow. -/
def secondAccess (code : UInt16) (slow : UInt32) : UInt32 :=
  if code &&& 1 = 0 then slow else 2

/-- The cost of a halfword in the one of three cartridge windows that an address falls in. -/
def windowWait (control : Control) (address : Word) : Timing :=
  let wait := control.waitStates
  if address < 0x0A000000 then ⟨firstAccess (wait >>> 2), secondAccess (wait >>> 4) 3⟩
  else if address < 0x0C000000 then ⟨firstAccess (wait >>> 5), secondAccess (wait >>> 7) 5⟩
  else ⟨firstAccess (wait >>> 8), secondAccess (wait >>> 10) 9⟩

/-- The cost of an access to cartridge ROM. A word takes two halfwords, and an access at a 128K
boundary is never sequential. -/
def romWait (control : Control) (address : Word) (width : Width) : Timing :=
  let base := width.align address
  let half := control.windowWait base
  let timing : Timing :=
    match width with
    | .word => ⟨half.nonseq + half.seq, half.seq + half.seq⟩
    | _ => half
  if base &&& 0x0001FFFF = 0 then ⟨timing.nonseq, timing.nonseq⟩ else timing

/-- The cost of an access to the cartridge backup, which is never sequential. -/
def backupWait (control : Control) : Timing :=
  Timing.uniform (firstAccess control.waitStates)

/-- The cost of an access to large work RAM, of which a word takes two halfwords. -/
def largeRamWait (control : Control) (width : Width) : Timing :=
  let half := 16 - field control.memoryControl 24 0xF
  match width with
  | .word => Timing.uniform (2 * half)
  | _ => Timing.uniform half

/-! ## Registers -/

/-- The register byte at an address, if a register backs it. -/
def read? (control : Control) (address : Word) : Option UInt8 :=
  match (home address).toNat with
  | 0x04000200 => some (lowByte control.enabled)
  | 0x04000201 => some (highByte control.enabled)
  | 0x04000202 => some (lowByte control.requested)
  | 0x04000203 => some (highByte control.requested)
  | 0x04000204 => some (lowByte control.waitStates)
  | 0x04000205 => some (highByte control.waitStates)
  | 0x04000206 => some 0
  | 0x04000207 => some 0
  | 0x04000208 => some control.masterEnable.toUInt8
  | 0x04000209 => some 0
  | 0x0400020A => some 0
  | 0x0400020B => some 0
  | 0x04000300 => some control.postBoot.toUInt8
  | 0x04000301 => some 0
  | 0x04000302 => some 0
  | 0x04000303 => some 0
  | 0x04000410 => some control.scratch
  | 0x04000800 => some (lane control.memoryControl 0)
  | 0x04000801 => some 0
  | 0x04000802 => some 0
  | 0x04000803 => some (lane control.memoryControl 3)
  | _ => none

/-- Write the register byte at an address. A request bit is cleared by writing it as one. -/
def write (control : Control) (address : Word) (value : UInt8) : Control :=
  match (home address).toNat with
  | 0x04000200 => { control with enabled := withLowByte control.enabled value }
  | 0x04000201 => { control with enabled := withHighByte control.enabled (value &&& 0x3F) }
  | 0x04000202 => { control with requested := control.requested &&& ~~~value.toUInt16 }
  | 0x04000203 =>
    { control with
      requested :=
        control.requested &&& (~~~(value.toUInt16 <<< 8) &&& Interrupt.allBits) }
  | 0x04000204 => { control with waitStates := withLowByte control.waitStates value }
  | 0x04000205 =>
    { control with waitStates := withHighByte control.waitStates (value &&& ~~~0xA0) }
  | 0x04000208 => { control with masterEnable := value &&& 1 == 1 }
  | 0x04000300 => { control with postBoot := value &&& 1 == 1 }
  | 0x04000301 =>
    { control with power := if value &&& 0x80 ≠ 0 then .stopped else .halted }
  | 0x04000410 => { control with scratch := value }
  | 0x04000800 =>
    { control with
      memoryControl := control.memoryControl &&& ~~~0xFF ||| (value &&& ~~~0xD0).toUInt32 }
  | 0x04000803 =>
    { control with
      memoryControl :=
        control.memoryControl &&& (0x00FFFFFF : Word) ||| value.toUInt32 <<< (24 : Word) }
  | _ => control

end Control

end Handheld
