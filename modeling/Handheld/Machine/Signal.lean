/-!
# Signals

What a peripheral raises while time passes: interrupt requests, and triggers that start the
channels of the DMA controller.
-/

namespace Handheld

/-- A source of interrupts. -/
inductive Interrupt
  | vBlank
  | hBlank
  | vCount
  | timer0
  | timer1
  | timer2
  | timer3
  | serial
  | dma0
  | dma1
  | dma2
  | dma3
  | keypad
  | gamePak
  deriving DecidableEq, Inhabited

namespace Interrupt

/-- The sources in the order of their request bits. -/
def all : List Interrupt :=
  [vBlank, hBlank, vCount, timer0, timer1, timer2, timer3, serial, dma0, dma1, dma2, dma3,
    keypad, gamePak]

def bit : Interrupt → UInt16
  | vBlank => 0x0001
  | hBlank => 0x0002
  | vCount => 0x0004
  | timer0 => 0x0008
  | timer1 => 0x0010
  | timer2 => 0x0020
  | timer3 => 0x0040
  | serial => 0x0080
  | dma0 => 0x0100
  | dma1 => 0x0200
  | dma2 => 0x0400
  | dma3 => 0x0800
  | keypad => 0x1000
  | gamePak => 0x2000

/-- The request bits of all sources. -/
def allBits : UInt16 := 0x3FFF

end Interrupt

/-- A video event that starts DMA channels. -/
inductive Trigger
  | vBlank
  | hBlank
  /-- A line of video capture starts. -/
  | capture
  /-- Video capture has finished. -/
  | captureEnd
  deriving DecidableEq, Inhabited

namespace Trigger

/-- The triggers in the order in which they are delivered. -/
def all : List Trigger := [vBlank, hBlank, capture, captureEnd]

def bit : Trigger → UInt8
  | vBlank => 1
  | hBlank => 2
  | capture => 4
  | captureEnd => 8

end Trigger

/-- What a peripheral raised. -/
structure Signals where
  /-- The interrupts requested, by request bit. -/
  interrupts : UInt16
  /-- The triggers raised, by trigger bit. -/
  triggerBits : UInt8
  deriving DecidableEq, Inhabited

namespace Signals

def empty : Signals := ⟨0, 0⟩

/-- Also request an interrupt. -/
def withInterrupt (signals : Signals) (source : Interrupt) : Signals :=
  { signals with interrupts := signals.interrupts ||| source.bit }

/-- Also raise a trigger. -/
def withTrigger (signals : Signals) (trigger : Trigger) : Signals :=
  { signals with triggerBits := signals.triggerBits ||| trigger.bit }

def isEmpty (signals : Signals) : Bool :=
  signals.interrupts == 0 && signals.triggerBits == 0

/-- What either raised. -/
def union (a b : Signals) : Signals :=
  ⟨a.interrupts ||| b.interrupts, a.triggerBits ||| b.triggerBits⟩

/-- The triggers raised, in the order in which they are delivered. -/
def triggers (signals : Signals) : List Trigger :=
  Trigger.all.filter fun trigger => signals.triggerBits &&& trigger.bit != 0

end Signals

end Handheld
