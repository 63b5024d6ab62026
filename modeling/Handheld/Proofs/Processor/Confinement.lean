import Handheld.Proofs.Processor.Traps

/-!
# User mode

The status word can be written in many ways, and the banks of the privileged modes lie in the same
register file. No instruction of user mode reaches either, but by a trap.

1. `Guarded` is the part of the status word out of reach: `Act.guards` and `Effect.guards` say that
   no effect of an instruction other than a trap touches it in user mode.
2. `Confined` adds the storage of the privileged banks, and `step_confined` says that a step keeps
   both or is a trap.
3. `user_confined` is that for every reachable state in user mode, and for every run of steps from
   it up to its first trap.
-/

namespace Handheld

/-- The bits of the status word that user mode cannot change: the mode, both interrupt masks, and
bits 8 to 23. -/
def Status.guardedMask : Word :=
  Mode.fieldMask ||| Status.irqMask ||| Status.fiqMask ||| 0x00FFFF00

/-- A number of the user bank names another register in a bank that has its own of that number. -/
theorem Bank.not_user_owns {bank : Bank} {number : Nat} (hl : 8 ≤ number) (hu : number < 15)
    (h : bank.physical number ≠ Bank.user.physical number) :
    ¬ Bank.user.Owns (bank.physical number) := by
  rintro ⟨other, ho, ho', he⟩
  revert h he
  interval_cases number <;> interval_cases other <;> cases bank <;> decide

namespace Processor

variable {β : Type} [Bus β]

/-! ## The status word -/

/-- User mode goes on, and the guarded bits are as they were. -/
structure Guarded (p q : Processor) : Prop where
  inMode : q.InMode .user
  bits : q.status.bits &&& Status.guardedMask = p.status.bits &&& Status.guardedMask

theorem Guarded.refl {p : Processor} (h : p.InMode .user) : Guarded p p :=
  ⟨h, rfl⟩

theorem Guarded.trans {p q r : Processor} (h : Guarded p q) (h' : Guarded q r) : Guarded p r :=
  ⟨h'.inMode, h'.bits.trans h.bits⟩

/-- Where the bank in view and the status word stay, user mode goes on. -/
theorem Guarded.congr {p q r : Processor} (h : Guarded p q) (hb : r.registers.bank =
    q.registers.bank) (hs : r.status = q.status) : Guarded p r := by
  obtain ⟨⟨hm, hbank⟩, hbits⟩ := h
  refine ⟨⟨?_, hb.trans hbank⟩, ?_⟩
  · rw [hs]; exact hm
  · rw [hs]; exact hbits

/-- The guarded bits include the mode field. -/
theorem mode?_of_guarded {s t : Status}
    (h : s.bits &&& Status.guardedMask = t.bits &&& Status.guardedMask) : s.mode? = t.mode? := by
  have hfield : Status.guardedMask &&& Mode.fieldMask = Mode.fieldMask := by decide
  apply Mode.ofBits?_congr
  rw [← hfield, ← UInt32.and_assoc, ← UInt32.and_assoc, h]

/-- Where the guarded bits and the bank in view stay, user mode goes on. -/
theorem Guarded.of_bits {p q : Processor} (h : p.InMode .user)
    (hbits : q.status.bits &&& Status.guardedMask = p.status.bits &&& Status.guardedMask)
    (hb : q.registers.bank = p.registers.bank) : Guarded p q :=
  ⟨⟨(mode?_of_guarded hbits).trans h.mode?, hb.trans h.bank⟩, hbits⟩

theorem Act.guards {counter user : Prop} {p₀ p q : Processor} {bus out : β}
    (act : Act counter user (p, bus) (q, out)) (h : Guarded p₀ p) : Guarded p₀ q := by
  cases act with
  | flags =>
    have hmask : Status.flagsMask &&& Status.guardedMask = 0 := by decide
    exact h.trans (Guarded.of_bits h.inMode (insert_and _ (and_and_self ..) hmask) rfl)
  | set => exact h.congr (bank_set ..) rfl
  | setUser => exact h.congr (bank_setUser ..) rfl
  | _ => exact h.congr rfl rfl

/-- In user mode only the byte of the flags can be written. -/
theorem writeStatusWord_guarded {p : Processor} (h : p.InMode .user) (mask value : Word) :
    Guarded p (p.writeStatusWord false mask value) := by
  have hmode : p.mode.privileged = false := by
    rw [mode_of_inMode h]
    rfl
  have hmask : mask &&& 0xFF000000 &&& Status.guardedMask = 0 := by
    rw [UInt32.and_assoc]
    exact UInt32.and_zero
  have hbits : (p.status.bits &&& ~~~(mask &&& 0xFF000000) ||| (value &&& (mask &&& 0xFF000000)))
      &&& Status.guardedMask = p.status.bits &&& Status.guardedMask :=
    insert_and _ (and_and_self ..) hmask
  have hfield : Mode.ofBits? (p.status.bits &&& ~~~(mask &&& 0xFF000000) |||
      (value &&& (mask &&& 0xFF000000))) = some .user :=
    (mode?_of_guarded (s := ⟨_⟩) hbits).trans h.mode?
  unfold writeStatusWord writeStatus
  simp only [hmode, Bool.false_eq_true, if_false]
  rw [hfield]
  exact Guarded.of_bits h hbits h.bank.symm

/-- User mode has no saved status word to restore. -/
theorem restoreStatus_of_user {p : Processor} (h : p.InMode .user) : p.restoreStatus = p := by
  unfold restoreStatus RegisterFile.hasSavedStatus
  rw [h.bank]
  rfl

theorem Effect.guards {i : Instruction} {p q : Processor} {bus out : β}
    (effect : Effect i p bus q out) (hi : i.trap? = none) (h : p.InMode .user) : Guarded p q := by
  have work {counter user : Prop} {q : Processor} {out : β}
      (hw : Work counter user (p, bus) (q, out)) : Guarded p q :=
    hw.keeps (I := fun q _ => Guarded p q) Act.guards (Guarded.refl h)
  cases effect with
  | work hw => exact work hw
  | status mask source _ => exact writeStatusWord_guarded h mask _
  | branch hw address => exact (work hw).congr rfl rfl
  | restore hw =>
    have hrestore := restoreStatus_of_user (work hw).inMode
    exact (work hw).congr (congrArg (·.registers.bank) hrestore) (congrArg (·.status) hrestore)
  | exchange address =>
    have hbits : (p.status.setThumb (bit address 0)).bits &&& Status.guardedMask =
        p.status.bits &&& Status.guardedMask := Status.setBit_and p.status _ (by decide)
    exact Guarded.of_bits h hbits rfl
  | trap exception ht => rw [hi] at ht; cases ht

/-! ## Confinement -/

/-- Nothing that belongs to a privileged mode has changed: not the guarded bits of the status
word, no register of a privileged bank that user mode does not share, and no saved status word. -/
structure Confined (p q : Processor) : Prop extends Guarded p q where
  registers : ∀ (bank : Bank) (number : Nat), 8 ≤ number → number < 15 →
    bank.physical number ≠ Bank.user.physical number →
      q.registers.read bank number = p.registers.read bank number
  saved : ∀ bank : Bank, bank ≠ .user →
    q.registers.saved.get bank.index = p.registers.saved.get bank.index

theorem Confined.refl {p : Processor} (h : p.InMode .user) : Confined p p :=
  ⟨Guarded.refl h, fun _ _ _ _ _ => rfl, fun _ _ => rfl⟩

theorem Confined.trans {p q r : Processor} (h : Confined p q) (h' : Confined q r) :
    Confined p r :=
  ⟨h.toGuarded.trans h'.toGuarded,
    fun bank number hl hu hn =>
      (h'.registers bank number hl hu hn).trans (h.registers bank number hl hu hn),
    fun bank hb => (h'.saved bank hb).trans (h.saved bank hb)⟩

/-- What the bank of user mode does not own is out of reach even where user registers are
loaded. -/
theorem Confined.of_frame {user : Prop} {p q : Processor} (hg : Guarded p q)
    (hf : Frame .user user p q) : Confined p q := by
  refine ⟨hg, fun bank number hl hu hn => ?_, fun bank hb => hf.saved bank hb⟩
  have hown : ¬ Bank.user.Owns (bank.physical number) := Bank.not_user_owns hl hu hn
  exact RegisterFile.read_congr (hf.general bank _ ⟨number, hl, hu, rfl⟩ hown fun _ => hown)

/-- A step of user mode is confined, or is a trap. -/
theorem step_confined {p : Processor} (h : p.InMode .user) (bus : β) :
    Confined p (p.step bus).processor ∨
      ∃ exception : Exception, exception.IsTrap ∧ Trapped exception p (p.step bus).processor := by
  have ha : Guarded p (p.advance bus).1 := (Guarded.refl h).congr rfl rfl
  by_cases ht : ∃ i exception, p.Retires bus i ∧ i.trap? = some exception
  · obtain ⟨i, exception, hi, ht⟩ := ht
    exact Or.inr ⟨exception, Instruction.isTrap_of_trap? ht, step_trapped hi ht⟩
  · have hnone : ∀ i, p.Retires bus i → i.trap? = none := by
      intro i hi
      by_contra hs
      obtain ⟨exception, he⟩ := Option.ne_none_iff_exists'.mp hs
      exact ht ⟨i, exception, hi, he⟩
    have hframe := step_frame p bus hnone
    rw [h.bank] at hframe
    refine Or.inl (Confined.of_frame ?_ hframe)
    rcases step_effect p bus with ⟨hp, -⟩ | ⟨i, q, hi, effect, hp⟩
    · rw [hp]
      exact ha.congr rfl rfl
    · rw [hp]
      exact (ha.trans (effect.guards (hnone i hi) ha.inMode)).congr rfl rfl

/-! ## Runs -/

/-- The states that steps lead to, each of them on any bus. -/
inductive Path (p : Processor) : Processor → Prop
  | refl : Path p p
  | step {β : Type} [Bus β] {q : Processor} (h : Path p q) (bus : β) :
    Path p (q.step bus).processor

/-- A run of steps that was confined until it came to a trap, and went on from the vector. -/
inductive Escapes (p : Processor) : Processor → Prop
  | trap {β : Type} [Bus β] {q r : Processor} {bus : β} {exception : Exception}
    (hrun : Path p q) (hconfined : Confined p q) (htrap : exception.IsTrap)
    (htrapped : Trapped exception q (q.step bus).processor)
    (hrest : Path (q.step bus).processor r) : Escapes p r

theorem path_confined {p q : Processor} (h : p.InMode .user) (hrun : Path p q) :
    Confined p q ∨ Escapes p q := by
  induction hrun with
  | refl => exact Or.inl (Confined.refl h)
  | step hrun bus ih =>
    rcases ih with hc | hescape
    · rcases step_confined hc.inMode bus with hstep | ⟨exception, htrap, htrapped⟩
      · exact Or.inl (hc.trans hstep)
      · exact Or.inr (.trap hrun hc htrap htrapped .refl)
    · cases hescape with
      | trap hrun' hconfined htrap htrapped hrest =>
        exact Or.inr (.trap hrun' hconfined htrap htrapped (.step hrest bus))

theorem Reachable.inMode_user {p : Processor} (h : Reachable p) (hm : p.mode = .user) :
    p.InMode .user := by
  obtain ⟨mode, hmode⟩ := h.agrees
  rw [mode_of_inMode hmode] at hm
  rw [← hm]
  exact hmode

/-- **User mode is confined.** From a reachable state in user mode, whatever instruction comes next
and whatever bus it is on, a step leaves the mode, the interrupt masks, bits 8 to 23 of the status
word and all storage of the privileged banks, or it takes one of the two traps. So a run of steps
masks or unmasks no interrupt and enters no privileged mode but at the vector of a trap. -/
theorem user_confined {p : Processor} (h : Reachable p) (hm : p.mode = .user) :
    (∀ (β : Type) [Bus β] (bus : β),
      Confined p (p.step bus).processor ∨
        ∃ exception : Exception, exception.IsTrap ∧
          Trapped exception p (p.step bus).processor) ∧
    ∀ q, Path p q → Confined p q ∨ Escapes p q :=
  ⟨fun _ _ bus => step_confined (h.inMode_user hm) bus, fun _ => path_confined (h.inMode_user hm)⟩

/-- A program of one instruction, which tries to enter supervisor mode with interrupts masked:
`MSR CPSR_fc, #0xD3`. -/
def breakout (_ : Word) (_ : Width) : Word := 0xE329F0D3

/-- User mode about to try it. -/
def breakoutStart : Processor :=
  ((powerOn.writeStatus 0x10).jump (⟨⟩ : Listing breakout) 0).processor

/-- The attempt fails, and so does every further one. -/
theorem user_confined_breakout :
    Reachable breakoutStart ∧ breakoutStart.mode = .user ∧
      ((breakoutStart.advance (⟨⟩ : Listing breakout)).1.current.2 =
        .writeStatus false 0xFF0000FF (.rotated 0xD3 0)) ∧
      Confined breakoutStart (breakoutStart.step (⟨⟩ : Listing breakout)).processor ∧
      ∀ q, Path breakoutStart q → Confined breakoutStart q ∨ Escapes breakoutStart q := by
  have h : Reachable breakoutStart := (Reachable.powerOn.writeStatus 0x10).jump _ 0
  have hm : breakoutStart.mode = .user := by decide +kernel
  have hafter : (breakoutStart.step (⟨⟩ : Listing breakout)).processor.mode = .user := by
    decide +kernel
  obtain ⟨hstep, hruns⟩ := user_confined h hm
  refine ⟨h, hm, by decide +kernel, ?_, hruns⟩
  rcases hstep _ (⟨⟩ : Listing breakout) with hc | ⟨exception, htrap, htrapped⟩
  · exact hc
  · rw [mode_of_inMode htrapped.inMode] at hafter
    rcases htrap with rfl | rfl <;> cases hafter

end Processor

end Handheld
