import Handheld.Processor.Arm
import Handheld.Processor.Thumb

/-!
# Running the processor

The entry points of the processor. Each but `jump` adds the cycles it took to the count.

1. `step` retires exactly one instruction.
2. `reset` and `bootDirect` start a program, at the reset vector or on the cartridge.
3. `requestInterrupt` and `requestFastInterrupt` enter an interrupt unless it is masked or
   locked out; a refused request changes nothing and takes no cycles.
-/

namespace Handheld.Processor

variable {β : Type} [Bus β]

/-! ## Stepping -/

/-- Execute the opcode in the pipeline by the engine of its instruction set. -/
def executeCurrent (p : Processor) (bus : β) : Outcome β :=
  if p.thumb then Thumb.execute p bus p.pipeline.executing
  else Arm.execute p bus p.pipeline.executing

/-- Retire one instruction. -/
def step (p : Processor) (bus : β) : Outcome β :=
  match p.advance bus with
  | (p, bus) => (p.executeCurrent bus).counted

/-- Flush the pipeline and go on at an address whose lowest bit selects the instruction set. -/
def jump (p : Processor) (bus : β) (address : Word) : Outcome β :=
  p.branchExchange bus address

/-! ## Starting -/

def reset (p : Processor) (bus : β) : Outcome β :=
  let cleared : Processor :=
    { p with
      registers := RegisterFile.zero.switchBank .supervisor
      status := ⟨Mode.supervisor.bits⟩
      pipeline := ⟨0, 0, 0⟩
      locked := false }
  (cleared.enterException bus .reset).counted

/-- The address of the first instruction of a cartridge. -/
def cartridgeEntry : Word := 0x08000000
/-- The stack pointer that system and user mode start with on a cartridge. -/
def systemStack : Word := 0x03007F00
/-- The stack pointer that interrupt mode starts with on a cartridge. -/
def irqStack : Word := 0x03007FA0
/-- The stack pointer that supervisor mode starts with on a cartridge. -/
def supervisorStack : Word := 0x03007FE0

/-- The registers as a cartridge finds them. -/
def cartridgeRegisters : RegisterFile :=
  ((RegisterFile.zero.setBankedSp .user systemStack).setBankedSp .irq irqStack).setBankedSp
    .supervisor supervisorStack

/-- Start on the cartridge, with the stacks in place. -/
def bootDirect (p : Processor) (bus : β) : Outcome β :=
  let started : Processor :=
    { p with
      registers := cartridgeRegisters
      status := ⟨Mode.system.bits⟩
      pipeline := ⟨0, 0, 0⟩
      locked := false }
  (started.refill bus cartridgeEntry).counted

/-! ## Interrupts -/

/-- Enter an interrupt, unless it is masked or locked out. -/
def requestInterrupt (p : Processor) (bus : β) : Outcome β :=
  if p.status.irqDisabled || p.locked then ⟨p, bus, 0⟩
  else (p.enterException bus .interrupt).counted

/-- Enter a fast interrupt, unless it is masked or locked out. -/
def requestFastInterrupt (p : Processor) (bus : β) : Outcome β :=
  if p.status.fiqDisabled || p.locked then ⟨p, bus, 0⟩
  else (p.enterException bus .fastInterrupt).counted

end Handheld.Processor
