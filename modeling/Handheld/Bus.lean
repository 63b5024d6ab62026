import Handheld.Access

/-!
# Buses

A bus is any state that answers reads, writes and opcode fetches at 32-bit addresses.

1. `Bus` is the interface the processor drives.
2. `BusProgram` is a finite conversation with a bus, as a second bus master holds it: what it
   reads, writes and keeps for itself, with no other way to touch the bus.
-/

namespace Handheld

/-- A memory bus, as state passing: each access returns the bus after it. -/
class Bus (β : Type) where
  /-- Read at an address. -/
  read : β → Word → Width → Read × β
  /-- Write the low bytes of a value at an address. -/
  write : β → Word → Word → Width → Timing × β
  /-- Read an opcode for the pipeline. -/
  fetch : β → Word → Width → Read × β
  /-- Take note of the word in the processor's fetch slot. -/
  latch : β → Word → β

/-- A conversation with a bus by a device whose own state is part of `σ`. -/
inductive BusProgram (σ α : Type) where
  /-- The conversation is over. -/
  | done (result : α)
  /-- Read at an address. -/
  | read (address : Word) (width : Width) (next : Read → BusProgram σ α)
  /-- Write a value at an address. -/
  | write (address value : Word) (width : Width) (next : Timing → BusProgram σ α)
  /-- Read at an address as an opcode fetch. -/
  | fetch (address : Word) (width : Width) (next : Read → BusProgram σ α)
  /-- Report a word as the one in the fetch slot. -/
  | latch (word : Word) (next : BusProgram σ α)
  /-- Change the device's state; what follows may depend on the state before the change. -/
  | update (change : σ → σ) (next : σ → BusProgram σ α)

namespace BusProgram

variable {σ α β : Type}

/-- Hold a conversation with `bus`, which keeps the device's state where `view` and `modify`
reach it. -/
def run [Bus β] (view : β → σ) (modify : (σ → σ) → β → β) : BusProgram σ α → β → α × β
  | done result, bus => (result, bus)
  | read address width next, bus =>
    match Bus.read bus address width with
    | (answer, bus) => (next answer).run view modify bus
  | write address value width next, bus =>
    match Bus.write bus address value width with
    | (answer, bus) => (next answer).run view modify bus
  | fetch address width next, bus =>
    match Bus.fetch bus address width with
    | (answer, bus) => (next answer).run view modify bus
  | latch word next, bus => next.run view modify (Bus.latch bus word)
  | update change next, bus => (next (view bus)).run view modify (modify change bus)

end BusProgram

end Handheld
