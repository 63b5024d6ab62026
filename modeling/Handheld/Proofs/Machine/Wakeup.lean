import Handheld.Proofs.Machine.Conservation

/-!
# Waking up

Requests are latched in many places, but the control block is polled last in every batch in which
the processor may run. So no machine sleeps through a request that it enabled.

1. `Attentive` is the invariant at the end of a batch: a machine that sleeps has nothing to wake
   for, an interrupt that is due is held up by the processor alone, and a machine that carries
   cycles is awake.
2. `takeInterrupt_attentive` establishes it, whatever came before; entering an interrupt leaves the
   control block alone (`control_enterException`), because the vectors lie in the boot memory.
3. `runStopped_attentive` keeps it while nothing is latched, and `no_lost_wakeup` is the invariant
   for every machine that batches, frames, resets and buttons lead to.
-/

namespace Handheld

/-! ## The control block -/

namespace Control

variable (control : Control)

theorem pending_poll : control.poll.2.pending = control.pending := by
  unfold poll
  split <;> rfl

theorem due_poll : control.poll.2.due = control.due := by
  unfold poll
  split <;> rfl

/-- A poll wakes the machine unless there is nothing to wake for. -/
theorem power_poll (h : control.pending = true) : control.poll.2.power = .running := by
  unfold poll
  rw [if_pos h]
  rfl

theorem pending_of_due (h : control.due = true) : control.pending = true :=
  (Bool.and_eq_true_iff.mp h).1

theorem pending_eq_false_iff :
    control.pending = false ↔ control.enabled &&& control.requested &&& Interrupt.allBits = 0 :=
  bne_eq_false_iff_eq

/-- While the machine is stopped a request is not latched, but may wake it. -/
theorem request_of_stopped (sources : UInt16) (h : control.power = .stopped) :
    control.request sources = control ∨ control.request sources = control.wake := by
  unfold request
  rw [if_neg (not_not.mpr h)]
  split
  · exact Or.inr rfl
  · exact Or.inl rfl

/-- No request stops a machine. -/
theorem request_eq_self (sources : UInt16) (h : (control.request sources).power = .stopped) :
    control.request sources = control := by
  by_cases hp : control.power = .stopped
  · rcases control.request_of_stopped sources hp with hr | hr
    · exact hr
    · rw [hr] at h
      cases h
  · rw [request, if_pos hp] at h
    exact absurd h hp

theorem pending_requestAll (signals : Signals) (h : control.power = .stopped) :
    (control.requestAll signals).pending = control.pending := by
  unfold requestAll
  split
  · rcases control.request_of_stopped signals.interrupts h with hr | hr <;> rw [hr]
    rfl
  · rfl

end Control

namespace Machine

variable {P : Type} [Peripherals P]

/-! ## Entering an interrupt -/

theorem control_refill (p : Processor) (board : Board P) (address : Word) :
    (p.refill board address).bus.control =
      (Bus.fetch (Bus.fetch board (p.width.align address) p.width).2
        (p.width.align address + p.width.bytes) p.width).2.control := rfl

/-- The first opcodes of a handler are fetched from the boot memory, which nothing watches. -/
theorem control_enterException (p : Processor) (board : Board P) (exception : Exception) :
    (p.enterException board exception).bus.control = board.control := by
  refine (control_refill _ board exception.entry.vector).trans ?_
  generalize Processor.width _ = width
  cases exception <;> cases width <;> rfl

/-- Nor does anything watch the cartridge. -/
theorem control_refill_cartridge (p : Processor) (board : Board P) :
    (p.refill board Processor.cartridgeEntry).bus.control = board.control := by
  rw [control_refill]
  cases p.width <;> rfl

theorem control_requestInterrupt (p : Processor) (board : Board P) :
    (p.requestInterrupt board).bus.control = board.control := by
  unfold Processor.requestInterrupt
  split
  · rfl
  · exact control_enterException p board .interrupt

/-- After a request the processor masks interrupts or is locked, whether it took this one or
not. -/
theorem masked_requestInterrupt (p : Processor) (board : Board P) :
    (p.requestInterrupt board).processor.status.irqDisabled = true ∨
      (p.requestInterrupt board).processor.locked = true := by
  unfold Processor.requestInterrupt
  split
  · rename_i h
    exact (Bool.or_eq_true _ _).mp h
  · left
    exact Status.has_setBit_true _ (by decide) (by decide)

/-! ## The invariant -/

/-- Nothing that should wake the machine or interrupt the processor is left waiting. -/
structure Attentive (m : Machine P) : Prop where
  asleep : m.board.control.power ≠ .running → m.board.control.pending = false
  due : m.board.control.due = true →
    m.processor.status.irqDisabled = true ∨ m.processor.locked = true
  carried : m.carried ≠ 0 → m.board.control.power = .running

/-- The last act of a batch leaves nothing waiting, whatever the batch has latched. -/
theorem takeInterrupt_attentive {m : Machine P} (hc : m.carried = 0) :
    m.takeInterrupt.Attentive := by
  have hpolled : m.board.control.poll.2.power ≠ .running →
      m.board.control.poll.2.pending = false := by
    rw [Control.pending_poll, ← Bool.not_eq_true]
    exact mt (Control.power_poll _)
  unfold takeInterrupt
  simp only
  split_ifs with hdue
  · have hcontrol := control_requestInterrupt m.processor
      { m.board with control := m.board.control.poll.2 }
    have hmasked := masked_requestInterrupt m.processor
      { m.board with control := m.board.control.poll.2 }
    have hawake := Control.power_poll _ (Control.pending_of_due _ hdue)
    generalize m.processor.requestInterrupt
      { m.board with control := m.board.control.poll.2 } = outcome at hcontrol hmasked ⊢
    rcases outcome with ⟨q, out, cycles⟩
    simp only at hcontrol hmasked ⊢
    refine ⟨?_, fun _ => hmasked, fun _ => ?_⟩
    · simp only [hcontrol]
      exact hpolled
    · simp only [hcontrol]
      exact hawake
  · refine ⟨hpolled, fun h => ?_, fun h => absurd hc h⟩
    rw [Control.due_poll] at h
    exact absurd h hdue

/-! ## Batches -/

omit [Peripherals P] in
theorem control_pollKeypad (m : Machine P) (h : m.pollKeypad.board.control.power = .stopped) :
    m.pollKeypad.board.control = m.board.control := by
  have hc : m.pollKeypad.board.control =
      if m.board.keypad.condition (m.board.control.power = .stopped) then
        m.board.control.request Interrupt.keypad.bit
      else m.board.control := rfl
  rw [hc] at h ⊢
  split_ifs at h ⊢
  · exact Control.request_eq_self _ _ h
  · rfl

/-- While all else is stopped nothing is latched, so a machine that is not woken has nothing to
wake for, and one that is woken has nothing due. -/
theorem runStopped_attentive {m : Machine P} (h : m.Attentive)
    (hp : m.board.control.power = .stopped) : m.runStopped.Attentive := by
  have hpending : m.runStopped.board.control.pending = false :=
    (Control.pending_requestAll _ _ hp).trans (h.asleep (by rw [hp]; decide))
  have hcarried : m.carried = 0 := by
    by_contra hc
    have hrunning := h.carried hc
    rw [hp] at hrunning
    cases hrunning
  refine ⟨fun _ => hpending, fun hdue => ?_, fun hc => absurd hcarried hc⟩
  rw [Control.pending_of_due _ hdue] at hpending
  cases hpending

theorem carried_drain {m m' : Machine P} {transfers : Nat} (h : m.drain transfers = some m') :
    m'.carried = m.carried :=
  (drain_passes [] h).1

theorem drain_takeInterrupt_attentive {m m₁ m' : Machine P} {transfers ticks : Nat}
    (hc : m₁.carried = 0)
    (h : ((m₁.drain transfers).map fun m' =>
      ((m'.takeInterrupt.elapsed - m.elapsed).count, m'.takeInterrupt)) = some (ticks, m')) :
    m'.Attentive := by
  obtain ⟨m₂, hd, he⟩ := Option.map_eq_some_iff.mp h
  cases he
  exact takeInterrupt_attentive ((carried_drain hd).trans hc)

theorem runBatch_attentive {m m' : Machine P} {transfers ticks : Nat} (hm : m.Attentive)
    (h : m.runBatch transfers = some (ticks, m')) : m'.Attentive := by
  cases hpower : m.pollKeypad.board.control.power with
  | running =>
    rw [runBatch_running _ hpower] at h
    exact drain_takeInterrupt_attentive (carried_sync ..) h
  | halted =>
    rw [runBatch_halted _ hpower] at h
    exact drain_takeInterrupt_attentive (carried_sync ..) h
  | stopped =>
    rw [runBatch_stopped _ hpower] at h
    cases h
    have hc := control_pollKeypad m hpower
    have hpolled : m.pollKeypad.Attentive := by
      refine ⟨?_, ?_, ?_⟩
      · rw [hc]; exact hm.asleep
      · rw [hc]; exact hm.due
      · rw [hc]; exact hm.carried
    exact runStopped_attentive hpolled hpower

theorem runTicks_attentive (target transfers bound : Nat) :
    ∀ {passed ticks : Nat} {m m' : Machine P}, m.Attentive →
      runTicks target transfers bound passed m = some (ticks, m') → m'.Attentive := by
  induction bound with
  | zero =>
    intro passed ticks m m' hm h
    cases h
    exact hm
  | succ bound ih =>
    intro passed ticks m m' hm h
    unfold runTicks at h
    split_ifs at h
    · cases hb : m.runBatch transfers with
      | none => rw [hb] at h; cases h
      | some result =>
        rw [hb] at h
        exact ih (runBatch_attentive hm hb) h
    · cases h
      exact hm

/-! ## Driven machines -/

/-- After a reset no interrupt is enabled. -/
theorem control_reset (m : Machine P) :
    m.reset.board.control = Control.initial ∨
      m.reset.board.control = { Control.initial with postBoot := true } := by
  unfold reset
  cases m.boot with
  | bios => exact Or.inl (control_enterException _ m.board.reset .reset)
  | direct => exact Or.inr (control_refill_cartridge _ _)

theorem reset_attentive (m : Machine P) : m.reset.Attentive := by
  rcases control_reset m with hc | hc
  · refine ⟨?_, ?_, ?_⟩ <;> rw [hc]
    · decide
    · nofun
    · exact fun _ => rfl
  · refine ⟨?_, ?_, ?_⟩ <;> rw [hc]
    · decide
    · nofun
    · exact fun _ => rfl

/-- The machines that come of building one, by resets, batches, frames and buttons. -/
inductive Driven : Machine P → Prop
  | build {config : Config} {peripherals : P} {m : Machine P}
    (h : build config peripherals = .ok m) : Driven m
  | reset {m : Machine P} (h : Driven m) : Driven m.reset
  /-- The host may hold whatever buttons it likes. -/
  | buttons {m : Machine P} (h : Driven m) (held : UInt16) :
    Driven { m with board := { m.board with keypad := { m.board.keypad with held } } }
  | runBatch {m m' : Machine P} {transfers ticks : Nat} (h : Driven m)
    (hrun : m.runBatch transfers = some (ticks, m')) : Driven m'
  | runFrame {m m' : Machine P} {transfers ticks : Nat} (h : Driven m)
    (hrun : m.runFrame transfers = some (ticks, m')) : Driven m'

theorem Driven.attentive {m : Machine P} (h : Driven m) : m.Attentive := by
  induction h with
  | build h =>
    obtain ⟨start, -, rfl⟩ := build_eq_reset h
    exact reset_attentive start
  | reset _ _ => exact reset_attentive _
  | buttons _ held ih => exact ⟨ih.asleep, ih.due, ih.carried⟩
  | runBatch _ hrun ih => exact runBatch_attentive ih hrun
  | runFrame _ hrun ih => exact runTicks_attentive _ _ _ ih hrun

/-- **No wake-up is lost.** Between the batches of a machine that is driven in any way, whatever
is plugged in and whatever program runs: a machine that sleeps has no enabled request, a request
that is enabled waits only where the processor masks interrupts or is locked between the halves
of a long branch, and cycles are carried only while the machine is awake. -/
theorem no_lost_wakeup {m : Machine P} (h : Driven m) :
    (m.board.control.power = .halted ∨ m.board.control.power = .stopped →
      m.board.control.enabled &&& m.board.control.requested &&& Interrupt.allBits = 0) ∧
    (m.board.control.enabled &&& m.board.control.requested &&& Interrupt.allBits ≠ 0 →
      m.board.control.masterEnable = true →
        m.processor.status.irqDisabled = true ∨ m.processor.locked = true) ∧
    (m.carried ≠ 0 → m.board.control.power = .running) := by
  have ha := h.attentive
  refine ⟨fun hp => ?_, fun hpending henabled => ha.due ?_, ha.carried⟩
  · rw [← Control.pending_eq_false_iff]
    refine ha.asleep ?_
    rcases hp with hp | hp <;> rw [hp] <;> decide
  · rw [Control.due, henabled, Bool.and_true]
    exact bne_iff_ne.mpr hpending

end Machine

/-- A cartridge of one byte, on which the machine starts at once. -/
def Bursts.config : Config := ⟨ByteArray.empty, ⟨#[0]⟩, .direct⟩

namespace Machine

/-- A machine that its DMA controller puts to sleep in the first batch. -/
theorem no_lost_wakeup_bursts :
    ∃ m : Machine Bursts, Driven m ∧ m.board.control.power = .halted ∧
      m.board.control.enabled &&& m.board.control.requested &&& Interrupt.allBits = 0 := by
  have hrun : ((build Bursts.config (⟨2, false⟩ : Bursts)).toOption.bind fun m => m.runBatch 4).map
      (fun result => result.2.board.control.power) = some .halted := by decide +kernel
  obtain ⟨⟨ticks, m⟩, hbatch, hpower⟩ := Option.map_eq_some_iff.mp hrun
  obtain ⟨start, hbuilt, hbatch⟩ := Option.bind_eq_some_iff.mp hbatch
  have hdriven : Driven m := by
    cases hb : build Bursts.config (⟨2, false⟩ : Bursts) with
    | error e => rw [hb] at hbuilt; cases hbuilt
    | ok built =>
      rw [hb] at hbuilt
      cases hbuilt
      exact (Driven.build hb).runBatch hbatch
  exact ⟨m, hdriven, hpower, (no_lost_wakeup hdriven).1 (Or.inl hpower)⟩

end Machine

end Handheld
