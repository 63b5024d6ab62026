import Handheld.Proofs.Machine.Alike
import Handheld.Proofs.Machine.Conservation

/-!
# Batches and steps

Where time has no say in what is plugged in, batches are invisible: the polls, the syncs and the
early ends that they put between the instructions change nothing a program can see.

1. `Processor.steps` is the processor on its own, step after step, and `Follows` says that a
   machine is where some number of steps led.
2. `Untimed` peripherals raise nothing, and answer alike however much time they are handed.
   `Quiet` is what then holds of the board's registers, whatever is written to them.
3. `runInstructions_follows` follows the processor through a batch; every other part of a batch
   stays in place (`sync_follows`, `pollKeypad_eq`, `drain_eq`, `takeInterrupt_eq`).
4. `runBatch_abreast` is one batch, `runTimes_abreast` a run, and `batching_invisible` a run from
   reset.
-/

namespace Handheld

/-- The processor and its bus after a number of steps. -/
def Processor.steps {β : Type} [Bus β] (p : Processor) (bus : β) : Nat → Processor × β
  | 0 => (p, bus)
  | n + 1 =>
    match p.steps bus n with
    | (p, bus) => ((p.step bus).processor, (p.step bus).bus)

/-! ## Quiet registers -/

/-- No interrupt is requested and no button held. -/
structure Quiet (control : Control) (keypad : Keypad) : Prop where
  requested : control.requested = 0
  held : keypad.held = 0
  input : keypad.input = Button.allBits

theorem Control.requested_write (control : Control) (address : Word) (value : UInt8)
    (h : control.requested = 0) : (control.write address value).requested = 0 := by
  unfold write
  split <;> simp only [h, UInt16.zero_and]

/-- A program can clear requests but make none, and has no hold on the buttons. -/
theorem Quiet.kept : Kept Quiet where
  control h address value := ⟨Control.requested_write _ address value h.requested, h.held, h.input⟩
  keypad := by
    intro control keypad h address value
    unfold Keypad.write
    split <;> exact ⟨h.requested, h.held, h.input⟩

theorem Quiet.poll {control : Control} {keypad : Keypad} (h : Quiet control keypad) :
    control.poll = (false, control) := by
  have hp : control.pending = false := by
    unfold Control.pending
    rw [h.requested, UInt16.and_zero, UInt16.zero_and]
    rfl
  unfold Control.poll Control.due
  rw [hp]
  rfl

/-- No selection of buttons is met when none is held. -/
theorem Quiet.condition {control : Control} {keypad : Keypad} (h : Quiet control keypad)
    (stopped : Bool) : keypad.condition stopped = false := by
  have hd : keypad.pressed &&& keypad.selected = 0 := by
    unfold Keypad.pressed
    rw [h.held, UInt16.zero_and, UInt16.zero_and]
  unfold Keypad.condition
  simp only [hd]
  split_ifs with hn hb
  · rfl
  · rfl
  · have hs : keypad.selected ≠ 0 := fun hs => hn (by rw [hs]; simp)
    exact beq_eq_false_iff_ne.mpr hs.symm

variable {P D : Type}

/-! ## Following the processor -/

/-- A processor on a board is where some number of steps leads from a start, none of which was
made asleep; the boards differ in what is plugged in alone, which is related. -/
structure Follows [Peripherals D] (A : P → D → Prop) (start : Processor × Board D) (count : Nat)
    (p : Processor) (board : Board P) : Prop where
  processor : p = (start.1.steps start.2 count).1
  board : board.Alike A Quiet (start.1.steps start.2 count).2
  running : ∀ i < count, (start.1.steps start.2 i).2.control.power = .running

/-- Peripherals that raise nothing, have no DMA pending, and answer alike however much time they
are handed. -/
structure Untimed [Peripherals P] [Peripherals D] (A : P → D → Prop) : Prop extends Answers A where
  sync : ∀ {s : P} {t : D}, A s t → ∀ unit ticks,
    (Peripherals.sync unit ticks s).1 = Signals.empty ∧ A (Peripherals.sync unit ticks s).2 t
  idle : ∀ {s : P} {t : D}, A s t → Peripherals.transferPending s = false

section

variable [Peripherals P] [Peripherals D] {A : P → D → Prop} {start : Processor × Board D}
  {count : Nat}

theorem Follows.step (hA : Untimed A) {p : Processor} {board : Board P}
    (h : Follows A start count p board) (hp : board.control.power = .running) :
    Follows A start (count + 1) (p.step board).processor (p.step board).bus := by
  have hs := Processor.step_alike (Board.sim hA.toAnswers Quiet.kept) (.refl p) h.board
  rw [h.processor] at hs
  refine ⟨?_, ?_, fun i hi => ?_⟩
  · rw [h.processor]
    exact hs.processor.eq.symm
  · rw [h.processor]
    exact hs.bus
  · rcases Nat.lt_succ_iff_lt_or_eq.mp hi with hi | rfl
    · exact h.running i hi
    · rw [h.board.control]
      exact hp

namespace Machine

/-- Instructions lead on, for as long as the machine is awake. -/
theorem runInstructions_follows (hA : Untimed A) (horizon : Int) (bound : Nat) :
    ∀ {count : Nat} {p : Processor} {board : Board P} (ticks : Int),
      Follows A start count p board → board.control.power = .running →
        ∃ count', Follows A start count' (runInstructions horizon bound p board ticks).2.1
          (runInstructions horizon bound p board ticks).2.2 := by
  induction bound with
  | zero => exact fun _ h _ => ⟨_, h⟩
  | succ bound ih =>
    intro count p board ticks h hp
    have hnext := h.step hA hp
    have hpoll := hnext.board.kept.poll
    rw [runInstructions_succ]
    simp only [hpoll]
    split_ifs with hh ha
    · exact ⟨_, hnext⟩
    · exact ⟨_, hnext⟩
    · -- the loop goes on only while the machine is awake
      simp only [Bool.or_eq_true, decide_eq_true_eq, not_or, not_not] at ha
      exact ih _ hnext ha.2

/-- A machine is where some number of steps leads from a start. -/
abbrev At (A : P → D → Prop) (start : Processor × Board D) (count : Nat) (m : Machine P) : Prop :=
  Follows A start count m.processor m.board

/-- Handing on time that nothing comes of leaves the machine in place. -/
theorem sync_follows (hA : Untimed A) {m : Machine P} (h : m.At A start count) (ticks : Int) :
    (m.sync ticks).At A start count := by
  rw [sync_eq]
  cases he : Ticks.elapsed ticks with
  | none =>
    rw [settle_of_none m _ he]
    exact h
  | some passed =>
    obtain ⟨hprocessor, hboard, hrunning⟩ := h
    have h₁ := hA.sync hboard.related .timers passed
    have h₂ := hA.sync h₁.2 .audio passed
    have h₃ := hA.sync h₂.2 .video passed
    rw [settle_of_elapsed m _ he]
    unfold Peripherals.syncAll
    simp only [h₁.1, h₂.1, h₃.1]
    refine ⟨hprocessor, ?_, hrunning⟩
    rw [hboard.plug_eq]
    exact .plug h₃.2 hboard.kept

theorem runStopped_follows (hA : Untimed A) {m : Machine P} (h : m.At A start count) :
    m.runStopped.At A start count := by
  obtain ⟨hprocessor, hboard, hrunning⟩ := h
  have hs := hA.sync hboard.related .video m.stoppedTicks.toUInt32
  unfold stoppedTicks at hs
  unfold runStopped
  simp only [hs.1]
  refine ⟨hprocessor, ?_, hrunning⟩
  rw [hboard.plug_eq]
  exact .plug hs.2 hboard.kept

omit [Peripherals P] in
/-- With no button held, a poll of the keypad sees what it saw before. -/
theorem pollKeypad_eq {m : Machine P} (h : m.At A start count) : m.pollKeypad = m := by
  have hk := h.board.kept
  have hc := hk.condition (m.board.control.power = .stopped)
  have hi : ~~~m.board.keypad.pressed &&& Button.allBits = m.board.keypad.input := by
    unfold Keypad.pressed
    rw [hk.held, hk.input]
    rfl
  unfold pollKeypad Keypad.poll
  simp only [hc, hi]
  rfl

theorem drain_idle (hA : Untimed A) {m : Machine P} (h : m.At A start count) (transfers : Nat) :
    m.drain transfers = some m := by
  have hpending : m.board.dma.pending m.board.peripherals = false := by
    cases m.board.dma with
    | attached => exact hA.idle h.board.related
    | vacant => rfl
  unfold drain
  simp only [hpending]
  rfl

theorem takeInterrupt_eq {m : Machine P} (h : m.At A start count) : m.takeInterrupt = m := by
  unfold takeInterrupt
  simp only [h.board.kept.poll]
  rfl

/-- What ends a batch stays in place too. -/
theorem drain_takeInterrupt_eq (hA : Untimed A) {m m₁ : Machine P} (h : m₁.At A start count)
    (transfers : Nat) :
    ((m₁.drain transfers).map fun m' =>
      ((m'.takeInterrupt.elapsed - m.elapsed).count, m'.takeInterrupt)) =
        some ((m₁.elapsed - m.elapsed).count, m₁) := by
  rw [drain_idle hA h transfers, Option.map_some, takeInterrupt_eq h]

/-! ## Batches -/

theorem totalSpent_syncCalls (ticks : Int) : totalSpent (syncCalls ticks) = 0 := by
  unfold syncCalls
  cases Ticks.elapsed ticks <;> rfl

/-- A machine keeps abreast of the processor since a reset, before which the processor had counted
some cycles: it is where some steps lead, and as long as it is awake the time that it has handed on
or still carries is what these took. -/
structure Abreast (A : P → D → Prop) (start : Processor × Board D) (before count : Nat)
    (m : Machine P) : Prop where
  follows : m.At A start count
  carried : m.carried.toNat ≤ carriedMax
  paid : m.board.control.power = .running →
    m.elapsed.count + m.carried.toNat + before = m.processor.cycles

omit [Peripherals P] in
/-- A machine that stays in place stays as awake as it was. -/
theorem At.power_eq {m m' : Machine P} (h : m.At A start count) (h' : m'.At A start count) :
    m'.board.control.power = m.board.control.power := by
  rw [← h'.board.control, h.board.control]

omit [Peripherals P] in
/-- A machine that is asleep owes nothing for the steps it took. -/
theorem abreast_of_asleep {before : Nat} {m : Machine P} (h : m.At A start count)
    (hc : m.carried.toNat ≤ carriedMax) (hp : m.board.control.power ≠ .running) :
    m.Abreast A start before count ∧ (m.board.control.power = .running → m.carried = 0) :=
  ⟨⟨h, hc, fun hr => absurd hr hp⟩, fun hr => absurd hr hp⟩

/-- The processor's share of a batch is paid for when the batch hands on its ticks. -/
theorem runProcessor_abreast (hA : Untimed A) {before : Nat} {m : Machine P}
    (h : m.Abreast A start before count) (hp : m.board.control.power = .running) :
    ∃ count', m.runProcessor.Abreast A start before count' ∧ m.runProcessor.carried = 0 := by
  obtain ⟨count', hf⟩ := runInstructions_follows hA m.horizon.toInt
    (max 1 (m.horizon.toInt - m.carried.toNat)).toNat m.carried.toNat h.follows hp
  have hrun : m.runProcessor.At A start count' := sync_follows hA hf m.share.1
  obtain ⟨hpasses, hcarried⟩ := runProcessor_passes h.carried
  have hpaid := h.paid hp
  have hbalance := hpasses.balance
  rw [totalSpent_syncCalls] at hbalance
  refine ⟨count', ⟨hrun, ?_, fun _ => ?_⟩, hcarried⟩
  · rw [hcarried]
    exact Nat.zero_le _
  · rw [hpasses.elapsed]
    omega

/-- A batch keeps abreast, and carries nothing on while the machine is awake. -/
theorem runBatch_abreast (hA : Untimed A) {before : Nat} {m : Machine P}
    (h : m.Abreast A start before count) (transfers : Nat) :
    ∃ ticks m' count', m.runBatch transfers = some (ticks, m') ∧
      m'.Abreast A start before count' ∧
      (m'.board.control.power = .running → m'.carried = 0) := by
  have hpoll := pollKeypad_eq h.follows
  cases hpower : m.board.control.power with
  | running =>
    obtain ⟨count', hrun, hcarried⟩ := runProcessor_abreast hA h hpower
    have hbatch := runBatch_running transfers (hpoll.symm ▸ hpower)
    rw [hpoll, drain_takeInterrupt_eq hA hrun.follows] at hbatch
    exact ⟨_, _, count', hbatch, hrun, fun _ => hcarried⟩
  | halted =>
    have hrun : m.runHalted.At A start count :=
      sync_follows (m := { m with carried := 0 }) hA h.follows _
    have hasleep : m.runHalted.board.control.power ≠ .running := by
      rw [h.follows.power_eq hrun, hpower]
      decide
    have hcarried : m.runHalted.carried.toNat ≤ carriedMax := by
      rw [show m.runHalted.carried = 0 from carried_sync ..]
      exact Nat.zero_le _
    have hbatch := runBatch_halted transfers (hpoll.symm ▸ hpower)
    rw [hpoll, drain_takeInterrupt_eq hA hrun] at hbatch
    exact ⟨_, _, count, hbatch, abreast_of_asleep hrun hcarried hasleep⟩
  | stopped =>
    have hrun : m.runStopped.At A start count := runStopped_follows hA h.follows
    have hasleep : m.runStopped.board.control.power ≠ .running := by
      rw [h.follows.power_eq hrun, hpower]
      decide
    have hbatch := runBatch_stopped transfers (hpoll.symm ▸ hpower)
    rw [hpoll] at hbatch
    exact ⟨_, _, count, hbatch, abreast_of_asleep hrun h.carried hasleep⟩

/-- Run some number of batches. -/
def runTimes (m : Machine P) (transfers : Nat) : Nat → Option (Machine P)
  | 0 => some m
  | n + 1 =>
    match m.runBatch transfers with
    | none => none
    | some (_, m) => m.runTimes transfers n

theorem runTimes_abreast (hA : Untimed A) {before : Nat} (transfers n : Nat) :
    ∀ {m : Machine P} {count : Nat}, m.Abreast A start before count →
      ∃ m' count', m.runTimes transfers n = some m' ∧ m'.Abreast A start before count' ∧
        (0 < n → m'.board.control.power = .running → m'.carried = 0) := by
  induction n with
  | zero => exact fun {m count} h => ⟨m, count, rfl, h, fun hn => nomatch hn⟩
  | succ n ih =>
    intro m count h
    obtain ⟨ticks, m₁, count₁, hbatch, h₁, hc₁⟩ := runBatch_abreast hA h transfers
    obtain ⟨m₂, count₂, hrun, h₂, hc₂⟩ := ih h₁
    refine ⟨m₂, count₂, ?_, h₂, fun _ => ?_⟩
    · unfold runTimes
      rw [hbatch]
      exact hrun
    · cases n with
      | zero =>
        cases hrun
        exact hc₁
      | succ n => exact hc₂ (Nat.succ_pos n)

/-! ## Runs from reset -/

/-- The machine with something else plugged in. -/
def plug (m : Machine P) (state : D) : Machine D :=
  { m with board := m.board.plug state }

/-- A reset starts alike, whatever is plugged in. -/
theorem reset_follows (hA : Answers A) {m : Machine P} {state : D}
    (hs : A m.board.peripherals state) (hk : m.board.keypad.held = 0) :
    m.reset.At A ((m.plug state).reset.processor, (m.plug state).reset.board) 0 := by
  have hsim := Board.sim hA Quiet.kept
  have hboard : m.board.reset.Alike A Quiet (m.plug state).board.reset := .plug hs ⟨rfl, hk, rfl⟩
  have hboot : (m.plug state).boot = m.boot := rfl
  have hrefl := Processor.Alike.refl (C := .eq) m.processor
  have hw := hsim.write hboard Control.postBootAddress 1 .byte
  have ho : m.reset.processor = (m.plug state).reset.processor ∧
      m.reset.board.Alike A Quiet (m.plug state).reset.board := by
    unfold reset
    rw [hboot]
    cases m.boot with
    | bios =>
      have h := Processor.reset_alike hsim hrefl hboard
      exact ⟨h.processor.eq.symm, h.bus⟩
    | direct =>
      have h := Processor.bootDirect_alike hsim hrefl hw.bus
      exact ⟨h.processor.eq.symm, h.bus⟩
  exact ⟨ho.1, ho.2, fun i hi => nomatch hi⟩

theorem reset_abreast (hA : Answers A) {m : Machine P} {state : D}
    (hs : A m.board.peripherals state) (hk : m.board.keypad.held = 0) :
    m.reset.Abreast A ((m.plug state).reset.processor, (m.plug state).reset.board)
      m.processor.cycles 0 := by
  obtain ⟨hcarried, hledger⟩ := reset_ledger m
  have hbalance := hledger.balance
  have hreturned : 0 = m.reset.elapsed.count := hledger.returned
  refine ⟨reset_follows hA hs hk, hcarried, fun _ => ?_⟩
  change 0 + m.processor.cycles + m.reset.carried.toNat =
    m.reset.processor.cycles + 0 + 0 at hbalance
  omega

/-- Any number of batches from reset leads where some number of steps does from `start`, on the
same board but for what is plugged in, and none of these steps was made asleep. While the machine
is awake, the time that passed is that of the cycles spent since the reset, which it includes. -/
def Tracks (A : P → D → Prop) (m : Machine P) (start : Machine D) : Prop :=
  ∀ transfers n, ∃ m' count, m.reset.runTimes transfers n = some m' ∧
    m'.processor = (start.processor.steps start.board count).1 ∧
    m'.board.plug (start.processor.steps start.board count).2.peripherals =
      (start.processor.steps start.board count).2 ∧
    A m'.board.peripherals (start.processor.steps start.board count).2.peripherals ∧
    (∀ i < count, (start.processor.steps start.board i).2.control.power = .running) ∧
    (0 < n → m'.board.control.power = .running →
      m'.elapsed.count + m.processor.cycles = m'.processor.cycles)

/-- **Batching is invisible.** With untimed peripherals and no button held, any number of batches
from reset comes to what some number of steps on the same board comes to. Nothing of this depends
on when the peripherals have their next event: other peripherals that answer alike go through the
same sequence of steps. -/
theorem batching_invisible (hA : Untimed A) (m : Machine P) {state : D}
    (hs : A m.board.peripherals state) (hk : m.board.keypad.held = 0) :
    m.Tracks A (m.plug state).reset ∧
      ∀ (Q : Type) [Peripherals Q] (B : Q → D → Prop), Untimed B →
        ∀ other : Q, B other state → (m.plug other).Tracks B (m.plug state).reset := by
  have tracks {Q : Type} [Peripherals Q] {B : Q → D → Prop} (hB : Untimed B) (m : Machine Q)
      (hs : B m.board.peripherals state) (hk : m.board.keypad.held = 0) :
      m.Tracks B (m.plug state).reset := by
    intro transfers n
    obtain ⟨m', count, hrun, h, hc⟩ :=
      runTimes_abreast hB transfers n (reset_abreast hB.toAnswers hs hk)
    refine ⟨m', count, hrun, h.follows.processor, h.follows.board.plug_eq.symm,
      h.follows.board.related, h.follows.running, fun hn hp => ?_⟩
    have hpaid := h.paid hp
    rw [hc hn hp] at hpaid
    exact hpaid
  exact ⟨tracks hA m hs hk, fun Q _ B hB other ho => tracks hB (m.plug other) ho hk⟩

end Machine

end

/-! ## A run -/

/-- Peripherals whose next event moves with every call, from the future into the past. -/
structure Restless where
  calls : Nat

instance : Peripherals Restless where
  nextEvent _ state := 7 - Int32.ofNat (4 * state.calls)
  sync _ _ state := (Signals.empty, ⟨state.calls + 1⟩)
  readRegister _ _ state := (none, state)
  writeRegister _ _ _ state := state
  readVideo _ _ state := (none, state)
  writeVideo _ _ _ state := state
  transferPending _ := false
  trigger _ state := state
  transfer _ := .done ⟨0, Signals.empty⟩

/-- Nothing plugged in raises nothing. -/
theorem Detached.untimed : Untimed fun _ _ : Detached => True where
  readRegister _ _ _ := ⟨rfl, trivial⟩
  writeRegister _ _ _ _ := trivial
  readVideo _ _ _ := ⟨rfl, trivial⟩
  writeVideo _ _ _ _ := trivial
  sync _ _ _ := ⟨rfl, trivial⟩
  idle _ := rfl

namespace Restless

/-- A program sees nothing of when the next event is due. -/
theorem untimed : Untimed fun (_ : Restless) (_ : Detached) => True where
  readRegister _ _ _ := ⟨rfl, trivial⟩
  writeRegister _ _ _ _ := trivial
  readVideo _ _ _ := ⟨rfl, trivial⟩
  writeVideo _ _ _ _ := trivial
  sync _ _ _ := ⟨rfl, trivial⟩
  idle _ := rfl

/-- A machine that counts to two and goes to sleep. -/
def machine : Machine Restless :=
  let image := [0xE3A00404, 0xE2811001, 0xE2811001, 0xE5C00301].zipIdx.foldl
    (fun image (word, index) => image.store (4 * index) word .word) Bursts.cartridge.image
  { Bursts.machine.plug (⟨0⟩ : Restless) with
    board := { Bursts.machine.board.plug (⟨0⟩ : Restless) with
      rom := { Bursts.cartridge with image } } }

end Restless

namespace Machine

/-- Three batches with ever earlier horizons, and one with a far horizon that puts the machine to
sleep. -/
theorem batching_invisible_restless :
    ∃ m' count other count', Restless.machine.reset.runTimes 0 3 = some m' ∧
      m'.board.control.power = .running ∧ m'.elapsed.count = 32 ∧ m'.processor.cycles = 32 ∧
      m'.processor = ((Restless.machine.plug Detached.mk).reset.processor.steps
        (Restless.machine.plug Detached.mk).reset.board count).1 ∧
      (Restless.machine.plug Detached.mk).reset.runTimes 0 1 = some other ∧
      other.processor = ((Restless.machine.plug Detached.mk).reset.processor.steps
        (Restless.machine.plug Detached.mk).reset.board count').1 := by
  obtain ⟨htracks, hothers⟩ := batching_invisible Restless.untimed Restless.machine trivial rfl
  obtain ⟨m', count, hrun, hprocessor, -, -, -, htime⟩ := htracks 0 3
  obtain ⟨other, count', hother, hsame, -⟩ :=
    hothers Detached (fun _ _ => True) Detached.untimed ⟨⟩ trivial 0 1
  have hvalues : (Restless.machine.reset.runTimes 0 3).map
      (fun m => (m.board.control.power, m.elapsed.count)) = some (.running, 32) := by
    decide +kernel
  rw [hrun] at hvalues
  obtain ⟨hpower, helapsed⟩ := Prod.mk.inj (Option.some.inj hvalues)
  have hcycles : m'.elapsed.count + 0 = m'.processor.cycles := htime (by decide) hpower
  exact ⟨m', count, other, count', hrun, hpower, helapsed, hcycles.symm.trans helapsed, hprocessor,
    hother, hsame⟩

end Machine

end Handheld
