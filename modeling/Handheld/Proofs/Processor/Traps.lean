import Handheld.Proofs.Processor.Exceptions

/-!
# Traps

A trap is a step that enters an exception of its own accord. What it leaves is the same on every
bus, whatever program is on it.

1. `Trapped` is what a step leaves that enters an exception.
2. `step_trapped` says that a step over a trapping instruction leaves just that.
-/

namespace Handheld

namespace Exception

/-- An exception that an instruction can enter, which leaves fast interrupts as they were. -/
def IsTrap (exception : Exception) : Prop :=
  exception = softwareInterrupt ∨ exception = undefined

theorem mask_of_isTrap {exception : Exception} (h : exception.IsTrap) :
    exception.entry.mask = Status.irqMask ∧ exception.entry.linkOffset = 0 := by
  rcases h with rfl | rfl <;> exact ⟨rfl, rfl⟩

end Exception

theorem Instruction.isTrap_of_trap? {i : Instruction} {exception : Exception}
    (h : i.trap? = some exception) : exception.IsTrap := by
  cases i with
  | softwareInterrupt => cases h; exact Or.inl rfl
  | undefined => cases h; exact Or.inr rfl
  | _ => cases h

namespace Status

/-- The condition flags are four bits. -/
theorem flags_congr {s t : Status} (hn : s.has negative = t.has negative)
    (hz : s.has zero = t.has zero) (hc : s.has carryBit = t.has carryBit)
    (hv : s.has overflow = t.has overflow) : s.flags = t.flags := by
  unfold flags
  rw [hn, hz, hc, hv]

end Status

namespace Processor

variable {β : Type} [Bus β]

/-! ## The status word of a handler -/

/-- An exception leaves the bits apart from the mode, the instruction set and its mask. -/
theorem has_enterException (p : Processor) (bus : β) (exception : Exception) {k : Word}
    (hmode : Mode.fieldMask &&& k = 0) (hthumb : Status.thumbBit &&& k = 0)
    (hmask : exception.entry.mask &&& k = 0) :
    (p.enterException bus exception).processor.status.has k = p.status.has k := by
  show (((p.status.setMode exception.entry.mode).setThumb false).setBit
    exception.entry.mask true).has k = p.status.has k
  rw [Status.has_setBit_of_disjoint _ _ hmask, Status.setThumb,
    Status.has_setBit_of_disjoint _ _ hthumb, Status.has_setMode _ _ hmode]

theorem flags_enterException (p : Processor) (bus : β) (exception : Exception) :
    (p.enterException bus exception).processor.status.flags = p.status.flags := by
  apply Status.flags_congr <;> apply has_enterException <;> cases exception <;> decide

theorem irqDisabled_enterException (p : Processor) (bus : β) (exception : Exception) :
    (p.enterException bus exception).processor.status.irqDisabled = true := by
  refine Status.has_setBit_true _ ?_ (by decide)
  cases exception <;> decide

/-! ## Traps -/

/-- What a step leaves that enters an exception: the handler is about to run in its own mode, with
interrupts masked and the way back saved, and nothing else has changed. -/
structure Trapped (exception : Exception) (p q : Processor) : Prop where
  inMode : q.InMode exception.entry.mode
  thumb : q.thumb = false
  irqDisabled : q.status.irqDisabled = true
  fiqDisabled : q.status.fiqDisabled = p.status.fiqDisabled
  flags : q.status.flags = p.status.flags
  nextPc : q.nextPc = exception.entry.vector
  link : q.get Register.lr = p.nextPc + p.width.bytes
  savedStatus : q.savedStatus? = some p.status
  general : ∀ place : Fin 31, place ≠ 30 →
    place ≠ (Bank.ofMode exception.entry.mode).physical 14 →
      q.registers.general.get place = p.registers.general.get place
  saved : ∀ other : Bank, other ≠ Bank.ofMode exception.entry.mode →
    q.registers.saved.get other.index = p.registers.saved.get other.index

/-- A trap links to the instruction after it and leaves all but what its handler owns. -/
theorem step_trapped {p : Processor} {bus : β} {i : Instruction} {exception : Exception}
    (hi : p.Retires bus i) (ht : i.trap? = some exception) :
    Trapped exception p (p.step bus).processor := by
  have htrap : exception.IsTrap := Instruction.isTrap_of_trap? ht
  obtain ⟨hmask, hoffset⟩ := Exception.mask_of_isTrap htrap
  have hfiq : exception.entry.mask &&& Status.fiqMask = 0 := by rw [hmask]; decide
  have hlink := link_enterException (p.advance bus).1 (p.advance bus).2 exception
  rw [hoffset, UInt32.add_zero, nextPc_advance] at hlink
  have hsaved := savedStatus_enterException (p.advance bus).1 (p.advance bus).2 exception
  rw [trap_step hi ht]
  obtain ⟨hm, hb⟩ := enterException_inMode (p.advance bus).1 (p.advance bus).2 exception
  refine
    { inMode := ⟨hm, hb⟩
      thumb := thumb_of_entry ..
      irqDisabled := irqDisabled_enterException (p.advance bus).1 (p.advance bus).2 exception
      fiqDisabled := has_enterException (p.advance bus).1 (p.advance bus).2 exception
        (by decide) (by decide) hfiq
      flags := flags_enterException (p.advance bus).1 (p.advance bus).2 exception
      nextPc := nextPc_enterException (p.advance bus).1 (p.advance bus).2 exception
      link := hlink
      savedStatus := ?_
      general := fun place hpc hlr => ?_
      saved := fun other ho =>
        saved_enterException (p.advance bus).1 (p.advance bus).2 exception ho }
  · have hown : ((p.advance bus).1.enterException (p.advance bus).2
        exception).processor.registers.hasSavedStatus = true := by
      unfold RegisterFile.hasSavedStatus
      rw [hb]
      exact bne_iff_ne.mpr exception.bank_ne_user
    exact (if_pos hown).trans (congrArg (fun bits => some (Status.mk bits)) hsaved)
  · refine (general_enterException (p.advance bus).1 (p.advance bus).2 exception hpc hlr).trans ?_
    exact RegisterFile.general_setPc_of_ne _ _ hpc

end Processor

end Handheld
