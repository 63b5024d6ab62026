import Handheld.Processor.Cost
import Handheld.Processor.Status

/-!
# Exceptions

An exception interrupts the program, saves its status word and branches to a vector.
-/

namespace Handheld

/-- A kind of exception. -/
inductive Exception
  | reset
  | undefined
  | softwareInterrupt
  | prefetchAbort
  | dataAbort
  | interrupt
  | fastInterrupt
  deriving DecidableEq, Inhabited

/-- How an exception is entered. -/
structure Entry where
  /-- The address it branches to. -/
  vector : Word
  mode : Mode
  /-- The status bits it sets. -/
  mask : Word
  /-- What is added to the address of the next instruction to form the link. -/
  linkOffset : Word
  /-- The cycles it takes on top of the refill of the pipeline. -/
  extraCycles : UInt32
  deriving DecidableEq

namespace Exception

/-- How each exception is entered. -/
def entry : Exception → Entry
  | reset => ⟨0x00, .supervisor, Status.irqMask ||| Status.fiqMask, 0, 0⟩
  | undefined => ⟨0x04, .undefined, Status.irqMask, 0, Cost.undefinedEntry⟩
  | softwareInterrupt => ⟨0x08, .supervisor, Status.irqMask, 0, 0⟩
  | prefetchAbort => ⟨0x0C, .abort, Status.irqMask, 0, 0⟩
  | dataAbort => ⟨0x10, .abort, Status.irqMask, 4, 0⟩
  | interrupt => ⟨0x18, .irq, Status.irqMask, 4, Cost.interruptEntry⟩
  | fastInterrupt => ⟨0x1C, .fiq, Status.irqMask ||| Status.fiqMask, 4, Cost.interruptEntry⟩

end Exception

end Handheld
