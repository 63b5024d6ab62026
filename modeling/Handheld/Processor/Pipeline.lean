import Handheld.Bus
import Handheld.Processor.Cost
import Handheld.Processor.Exception
import Handheld.Processor.State

/-!
# The pipeline

Opcodes reach the processor through two slots, which a branch flushes and refills.

1. `advance` moves the pipeline on by one instruction.
2. `refill` restarts it at an address; `branchExchange` and `branchLink` are the two kinds of
   branch that do more, and `completePcWrite` ends an instruction that wrote the program counter.
3. `enterException` switches the mode, saves the status word and branches to a vector.
-/

namespace Handheld

/-- A processor and its bus after some work, and the cycles it took. -/
structure Outcome (β : Type) where
  processor : Processor
  bus : β
  cycles : UInt32

namespace Outcome

variable {β : Type}

/-- The same outcome after some more cycles. -/
def costing (outcome : Outcome β) (cycles : UInt32) : Outcome β :=
  { outcome with cycles := cycles + outcome.cycles }

/-- The same outcome with its cycles entered into the processor's count. -/
def counted (outcome : Outcome β) : Outcome β :=
  { outcome with processor := outcome.processor.spend outcome.cycles }

end Outcome

namespace Processor

variable {β : Type} [Bus β]

/-! ## Fetching -/

/-- Move the pipeline on by one instruction and fetch into the slot that becomes free. -/
def advance (p : Processor) (bus : β) : Processor × β :=
  let width := p.width
  let pc := p.pc + width.bytes
  match Bus.fetch bus pc width with
  | (opcode, bus) =>
    let pipeline :=
      ⟨p.pipeline.decoded, p.pipeline.fetched, opcode.data &&& width.mask⟩
    let p := { p.setPc pc with pipeline, fetchTiming := opcode.timing, locked := false }
    (p, Bus.latch bus p.prefetched)

/-- Flush the pipeline and refill it at an address. -/
def refill (p : Processor) (bus : β) (address : Word) : Outcome β :=
  let width := p.width
  let target := width.align address
  match Bus.fetch bus target width with
  | (first, bus) =>
    match Bus.fetch bus (target + width.bytes) width with
    | (second, bus) =>
      let pipeline :=
        ⟨p.pipeline.executing, first.data &&& width.mask, second.data &&& width.mask⟩
      let p := { p.setPc (target + width.bytes) with pipeline }
      ⟨p, Bus.latch bus p.prefetched, Cost.refill first.timing second.timing⟩

/-! ## Branches -/

/-- Branch to an address whose lowest bit selects the instruction set. -/
def branchExchange (p : Processor) (bus : β) (address : Word) : Outcome β :=
  { p with status := p.status.setThumb (bit address 0) }.refill bus address

/-- Branch to an address and put another one into the link register. -/
def branchLink (p : Processor) (bus : β) (address link : Word) : Outcome β :=
  (p.set Register.lr link).refill bus address

/-- Go on at the program counter as it was written, perhaps after restoring the saved status
word. -/
def completePcWrite (p : Processor) (bus : β) (restore : Bool) : Outcome β :=
  let p := if restore then p.restoreStatus else p
  p.refill bus p.pc

/-! ## Exceptions -/

def enterException (p : Processor) (bus : β) (exception : Exception) : Outcome β :=
  let entry := exception.entry
  let saved := p.status
  let link := p.nextPc + entry.linkOffset
  let p := p.switchMode entry.mode
  let p := { p with status := (p.status.setThumb false).setBit entry.mask true }
  ((p.setSavedStatus saved.bits).branchLink bus entry.vector link).costing entry.extraCycles

end Processor

end Handheld
