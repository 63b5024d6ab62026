import Handheld.Bus
import Handheld.Machine.Signal

/-!
# Peripherals

Everything that can be plugged into the handheld is one state: the timers, the audio and video
units, the serial link, the cartridge backup and the DMA controller.

1. `Peripherals` is what the machine asks of such a state. Registers are read and written one
   byte at a time, so that every block sees the same byte lanes whatever the width of an access.
2. `Detached` is the state with nothing plugged in.
3. `Dma` is what a slot for a DMA controller holds. The machine lifts the controller off the board
   while it runs, so the slot is not always where the controller is.
-/

namespace Handheld

/-- A peripheral that is driven by elapsed time. -/
inductive Timed
  | timers
  | audio
  | video
  deriving DecidableEq, Inhabited

/-- A peripheral with registers. -/
inductive Block
  | video
  | audio
  | dma
  | timers
  | serial
  | backup
  deriving DecidableEq, Inhabited

/-- What one call of the DMA controller came to. -/
structure Slice where
  /-- The cycles it spent. -/
  spent : UInt32
  /-- What the channels that finished raised. -/
  signals : Signals
  deriving DecidableEq, Inhabited

/-- A state of everything plugged in. -/
class Peripherals (P : Type) where
  /-- The cycles until a unit next changes on its own; it is due where they are not positive. -/
  nextEvent : Timed → P → Int32
  /-- Hand a unit some elapsed cycles, never none, and learn what it raised. -/
  sync : Timed → UInt32 → P → Signals × P
  /-- Read a register byte, if a register backs the address. -/
  readRegister : Block → Word → P → Option UInt8 × P
  /-- Write a register byte. -/
  writeRegister : Block → Word → UInt8 → P → P
  /-- Read video memory, if the address is backed. -/
  readVideo : Word → Width → P → Option Word × P
  /-- Write video memory. -/
  writeVideo : Word → Word → Width → P → P
  /-- Whether any DMA channel has work to do. -/
  transferPending : P → Bool
  /-- Start the DMA channels that wait for a trigger. -/
  trigger : Trigger → P → P
  /-- Run the first active DMA channel for roughly some cycles. -/
  transfer : Int32 → BusProgram P Slice

/-- The horizon of a unit with nothing scheduled: one scanline. -/
def idleHorizon : Int32 := 1232

/-- Nothing is plugged in. -/
structure Detached where
  deriving DecidableEq, Inhabited

instance : Peripherals Detached where
  nextEvent _ _ := idleHorizon
  sync _ _ state := (Signals.empty, state)
  readRegister _ _ state := (none, state)
  writeRegister _ _ _ state := state
  readVideo _ _ state := (none, state)
  writeVideo _ _ _ state := state
  transferPending _ := false
  trigger _ state := state
  transfer _ := .done ⟨0, Signals.empty⟩

namespace Peripherals

variable {P : Type} [Peripherals P]

/-- The nearest event of the timed units. -/
def horizon (state : P) : Int32 :=
  min (min (nextEvent .timers state) (nextEvent .audio state)) (nextEvent .video state)

/-- Hand elapsed cycles to all timed units and gather what they raised. -/
def syncAll (ticks : UInt32) (state : P) : Signals × P :=
  match sync .timers ticks state with
  | (timers, state) =>
    match sync .audio ticks state with
    | (audio, state) =>
      match sync .video ticks state with
      | (video, state) => ((timers.union audio).union video, state)

end Peripherals

/-! ## The DMA controller -/

/-- What a slot for a DMA controller holds. -/
inductive Dma
  /-- The controller that is plugged in. -/
  | attached
  /-- A stand-in without channels. -/
  | vacant
  deriving DecidableEq, Inhabited

namespace Dma

variable {P : Type} [Peripherals P]

/-- Whether any channel has work to do. -/
def pending (dma : Dma) (state : P) : Bool :=
  match dma with
  | attached => Peripherals.transferPending state
  | vacant => false

/-- Start the channels that wait for a trigger. -/
def trigger (dma : Dma) (raised : Trigger) (state : P) : P :=
  match dma with
  | attached => Peripherals.trigger raised state
  | vacant => state

/-- Run the first active channel for roughly some cycles. -/
def transfer (dma : Dma) (limit : Int32) : BusProgram P Slice :=
  match dma with
  | attached => Peripherals.transfer limit
  | vacant => .done ⟨0, Signals.empty⟩

def readRegister (dma : Dma) (address : Word) (state : P) : Option UInt8 × P :=
  match dma with
  | attached => Peripherals.readRegister .dma address state
  | vacant => (none, state)

def writeRegister (dma : Dma) (address : Word) (value : UInt8) (state : P) : P :=
  match dma with
  | attached => Peripherals.writeRegister .dma address value state
  | vacant => state

/-- Deliver the triggers that some signals hold. -/
def deliver (dma : Dma) (signals : Signals) (state : P) : P :=
  signals.triggers.foldl (fun state raised => dma.trigger raised state) state

end Dma

end Handheld
