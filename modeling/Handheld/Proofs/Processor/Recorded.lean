import Handheld.Proofs.Processor.Transport

/-!
# Recorded accesses

A bus may keep a record of the data that is read and written over it. Opcode fetches are not data.

1. `Recorded` is such a bus, and `Recorded.hom` says that nobody notices the record.
2. An exception leaves the record as it is (`accesses_enterException`).
-/

namespace Handheld

/-- An access to data: what was read or written, and where. -/
inductive Access
  | read (address : Word) (width : Width) (data : Word)
  | write (address value : Word) (width : Width)
  deriving DecidableEq

/-- A bus and the accesses to data made over it, from the latest on. -/
structure Recorded (β : Type) where
  bus : β
  accesses : List Access

instance {β : Type} [Bus β] : Bus (Recorded β) where
  read recorded address width :=
    match Bus.read recorded.bus address width with
    | (answer, bus) => (answer, ⟨bus, .read address width answer.data :: recorded.accesses⟩)
  write recorded address value width :=
    match Bus.write recorded.bus address value width with
    | (timing, bus) => (timing, ⟨bus, .write address value width :: recorded.accesses⟩)
  fetch recorded address width :=
    match Bus.fetch recorded.bus address width with
    | (answer, bus) => (answer, { recorded with bus })
  latch recorded word := { recorded with bus := Bus.latch recorded.bus word }

variable {β : Type} [Bus β]

/-- The record is not noticed. -/
theorem Recorded.hom : BusHom (Recorded.bus : Recorded β → β) where
  read _ _ _ := rfl
  write _ _ _ _ := rfl
  fetch _ _ _ := rfl
  latch _ _ := rfl

namespace Processor

theorem accesses_enterException (p : Processor) (bus : Recorded β) (exception : Exception) :
    (p.enterException bus exception).bus.accesses = bus.accesses := rfl

end Processor

end Handheld
