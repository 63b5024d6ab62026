import Handheld.Processor.State
import Handheld.Value

/-!
# Inspecting the processor

Every part of the processor's state that has a path can be asked for by it.
-/

namespace Handheld.Processor

/-- The register number after the letter that stands before it. -/
def registerNumber? (text : List Char) : Option Nat :=
  match text with
  | 'r' :: digits => Numeral.read? 10 digits
  | _ => none

/-- The paths that name something other than a register number. -/
def queryNamed (p : Processor) (path : String) : Option Value :=
  let flags := p.status.flags
  match path with
  | "sp" => some (.word (p.get Register.sp))
  | "lr" => some (.word (p.get Register.lr))
  | "pc" => some (.word p.nextPc)
  | "cpsr" => some (.word p.status.bits)
  | "spsr" => some (.word ((p.savedStatus?.map Status.bits).getD 0))
  | "mode" => some (.text p.mode.name)
  | "thumb" => some (.flag p.thumb)
  | "flags.n" => some (.flag flags.n)
  | "flags.z" => some (.flag flags.z)
  | "flags.c" => some (.flag flags.c)
  | "flags.v" => some (.flag flags.v)
  | "irq_disabled" => some (.flag p.status.irqDisabled)
  | "fiq_disabled" => some (.flag p.status.fiqDisabled)
  | "prefetch" => some (.word p.prefetched)
  | "cycles" => some (.count p.cycles)
  | _ => none

/-- What a path names, if it names anything. -/
def query (p : Processor) (path : String) : Option Value :=
  match registerNumber? path.toList with
  | some number => if number < 16 then some (.word (p.registers.get number)) else none
  | none => p.queryNamed path

/-- The paths in their order. -/
def queryPaths : List String :=
  ["r0", "r1", "r2", "r3", "r4", "r5", "r6", "r7", "r8", "r9", "r10", "r11", "r12", "r13",
    "r14", "r15", "sp", "lr", "pc", "cpsr", "spsr", "mode", "thumb", "flags.n", "flags.z",
    "flags.c", "flags.v", "irq_disabled", "fiq_disabled", "prefetch", "cycles"]

end Handheld.Processor
