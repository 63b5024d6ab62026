import Handheld.Proofs.Machine.Batching
import Handheld.Proofs.Machine.Progress

/-!
# Where a batch stops

A running batch executes instructions until the horizon is reached or something else needs
attention, which it looks for after each of them.

1. `Turn` is the processor's turn in a batch, and `Turn.instruction` what it comes to right after
   one of its instructions. Between two of them the control block is polled.
2. `Turn.Calm` says that nothing needs attention, and `Turn.Stops` that a turn goes on for as long
   as all is calm and no longer.
3. `Stint.stops` finds the place at which the loop leaves, and `batch_stops` says what follows for
   a whole batch.
-/

namespace Handheld

variable {P : Type} [Peripherals P]

/-! ## Turns -/

/-- The processor's turn in a batch: its state, its board, and the ticks of the batch so far. -/
structure Turn (P : Type) where
  processor : Processor
  board : Board P
  ticks : Int

namespace Turn

/-- One more instruction was executed. -/
def executed (t : Turn P) : Turn P :=
  ⟨(t.processor.step t.board).processor, (t.processor.step t.board).bus,
    t.ticks + (t.processor.step t.board).cycles.toNat⟩

omit [Peripherals P] in
/-- The control block was polled. -/
def polled (t : Turn P) : Turn P :=
  { t with board := t.board.polled }

/-- One more instruction was executed, and another may follow. -/
def next (t : Turn P) : Turn P :=
  t.executed.polled

/-- The turn right after one of its instructions, which are counted from zero. -/
def instruction (t : Turn P) (k : Nat) : Turn P :=
  (next^[k] t).executed

/-- Nothing needs attention: the horizon is ahead, no interrupt is due, no DMA channel is active,
and the machine is awake or has something to wake for. -/
structure Calm (horizon : Int) (t : Turn P) : Prop where
  ahead : t.ticks < horizon
  undisturbed : t.board.control.due = false
  idle : t.board.dma.pending t.board.peripherals = false
  awake : t.polled.board.control.power = .running

/-- The turn ends with one of its instructions, the first that does not leave all calm. -/
structure Stops (horizon : Int) (t : Turn P) (last : Nat) : Prop where
  calm : ∀ k < last, (t.instruction k).Calm horizon
  stop : ¬ (t.instruction last).Calm horizon

/-- Where the turn ends. At the horizon the control block is not polled any more. -/
def ending (horizon : Int) (t : Turn P) : Int × Processor × Board P :=
  (t.ticks, t.processor, if horizon ≤ t.ticks then t.board else t.polled.board)

variable {horizon : Int} {t : Turn P}

omit [Peripherals P] in
theorem ending_of_reached (h : horizon ≤ t.ticks) :
    t.ending horizon = (t.ticks, t.processor, t.board) := by
  rw [ending, if_pos h]

omit [Peripherals P] in
theorem ending_of_ahead (h : ¬ horizon ≤ t.ticks) :
    t.ending horizon = (t.ticks, t.processor, t.polled.board) := by
  rw [ending, if_neg h]

theorem calm_iff : t.Calm horizon ↔ ¬ horizon ≤ t.ticks ∧ t.board.attention = false := by
  have hattention : t.board.attention = false ↔
      (t.board.control.due = false ∧ t.board.dma.pending t.board.peripherals = false) ∧
        t.polled.board.control.power = .running := by
    unfold Board.attention polled
    rw [Bool.or_eq_false_iff, Bool.or_eq_false_iff, decide_eq_false_iff_not, not_not]
    rfl
  rw [hattention, Int.not_le]
  exact ⟨fun h => ⟨h.ahead, ⟨h.undisturbed, h.idle⟩, h.awake⟩,
    fun ⟨hahead, ⟨hdue, hidle⟩, hawake⟩ => ⟨hahead, hdue, hidle, hawake⟩⟩

instance : Decidable (t.Calm horizon) := decidable_of_iff _ calm_iff.symm

theorem instruction_succ (t : Turn P) (k : Nat) :
    t.instruction (k + 1) = t.next.instruction k := rfl

theorem Stops.zero (h : ¬ t.executed.Calm horizon) : t.Stops horizon 0 :=
  ⟨fun _ hk => absurd hk (Nat.not_lt_zero _), h⟩

theorem Stops.succ {last : Nat} (hc : t.executed.Calm horizon) (h : t.next.Stops horizon last) :
    t.Stops horizon (last + 1) where
  calm
    | 0, _ => hc
    | _ + 1, hk => h.calm _ (Nat.lt_of_succ_lt_succ hk)
  stop := h.stop

theorem Stops.le {last other : Nat} (h : t.Stops horizon last) (h' : t.Stops horizon other) :
    last ≤ other := by
  by_contra hlt
  exact h'.stop (h.calm other (Nat.lt_of_not_le hlt))

theorem Stops.unique {last other : Nat} (h : t.Stops horizon last) (h' : t.Stops horizon other) :
    last = other :=
  Nat.le_antisymm (h.le h') (h'.le h)

/-- After an instruction that leaves something to attend to there is none. -/
theorem Stops.last_of_not_calm {last k : Nat} (h : t.Stops horizon last) (hk : k ≤ last)
    (hc : ¬ (t.instruction k).Calm horizon) : k = last := by
  by_contra hne
  exact hc (h.calm k (Nat.lt_of_le_of_ne hk hne))

/-- The ticks of a turn are the cycles that the processor counts. -/
theorem ticks_executed (t : Turn P) :
    t.executed.ticks =
      t.ticks + (t.executed.processor.cycles - t.processor.cycles : Int) := by
  have hcycles : t.executed.processor.cycles =
      t.processor.cycles + (t.processor.step t.board).cycles.toNat :=
    Processor.step_cycles t.processor t.board
  have hticks : t.executed.ticks = t.ticks + (t.processor.step t.board).cycles.toNat := rfl
  omega

theorem ticks_instruction (t : Turn P) (k : Nat) :
    (t.instruction k).ticks =
      t.ticks + ((t.instruction k).processor.cycles - t.processor.cycles : Int) := by
  induction k generalizing t with
  | zero => exact ticks_executed t
  | succ k ih =>
    have hfirst : t.next.ticks = t.ticks + (t.next.processor.cycles - t.processor.cycles : Int) :=
      ticks_executed t
    rw [instruction_succ, ih, hfirst]
    omega

/-- The cycles that one of the instructions takes. -/
def cost (t : Turn P) (k : Nat) : Nat :=
  ((next^[k] t).processor.step (next^[k] t).board).cycles.toNat

theorem Stops.overshoot {last : Nat} (h : t.Stops horizon last) :
    last = 0 ∨ (t.instruction last).ticks - t.cost last < horizon := by
  rcases last with - | before
  · exact Or.inl rfl
  · have hahead := (h.calm before (Nat.lt_succ_self before)).ahead
    have hticks : (t.instruction (before + 1)).ticks =
        (t.instruction before).ticks + t.cost (before + 1) := by
      have hbefore : (next^[before + 1] t).ticks = (t.instruction before).ticks := by
        rw [Function.iterate_succ_apply']
        rfl
      rw [← hbefore]
      rfl
    right
    omega

theorem not_calm_of_needs (h : t.board.control.due = true ∨
    t.board.dma.pending t.board.peripherals = true ∨
    (t.board.control.power ≠ .running ∧ t.board.control.pending = false)) :
    ¬ t.Calm horizon := by
  intro hcalm
  rcases h with hdue | hpending | ⟨hasleep, hpending⟩
  · exact absurd (hdue.symm.trans hcalm.undisturbed) (by decide)
  · exact absurd (hpending.symm.trans hcalm.idle) (by decide)
  · have hawake : t.board.control.poll.2.power = .running := hcalm.awake
    rw [Control.poll, if_neg (by rw [hpending]; decide)] at hawake
    exact hasleep hawake

end Turn

/-! ## The loop -/

/-- The loop ends where the turn does. -/
theorem Stint.stops {horizon ticks : Int} {p : Processor} {board : Board P} {count : Nat}
    {result : Int × Processor × Board P} (h : Stint horizon p board ticks count result) :
    ∃ last, count = last + 1 ∧ (Turn.mk p board ticks).Stops horizon last ∧
      result = ((Turn.mk p board ticks).instruction last).ending horizon := by
  induction h with
  | @reach p board ticks h =>
    have hending := Turn.ending_of_reached (t := (Turn.mk p board ticks).executed) h
    exact ⟨0, rfl, .zero fun hcalm => (Turn.calm_iff.mp hcalm).1 h, hending.symm⟩
  | @attend p board ticks h ha =>
    have hending := Turn.ending_of_ahead (t := (Turn.mk p board ticks).executed) h
    refine ⟨0, rfl, .zero fun hcalm => ?_, hending.symm⟩
    exact absurd (ha.symm.trans (Turn.calm_iff.mp hcalm).2) (by decide)
  | @more p board ticks count result h ha _ ih =>
    obtain ⟨last, rfl, hstops, hresult⟩ := ih
    have hcalm : (Turn.mk p board ticks).executed.Calm horizon :=
      Turn.calm_iff.mpr ⟨h, eq_false_of_ne_true ha⟩
    exact ⟨last + 1, rfl, hstops.succ hcalm, hresult⟩

namespace Machine

/-- The processor's turn as a batch begins, with the cycles that were carried into it. -/
def turn (m : Machine P) : Turn P :=
  ⟨m.processor, m.board, m.carried.toNat⟩

theorem share_stops (m : Machine P) :
    ∃ last, m.turn.Stops m.horizon.toInt last ∧
      m.share = (m.turn.instruction last).ending m.horizon.toInt := by
  obtain ⟨count, hexecutes, -⟩ := share_executes m
  obtain ⟨last, -, hstops, hshare⟩ := hexecutes.stops
  exact ⟨last, hstops, hshare⟩

/-- What follows from where the processor's turn ends. -/
structure Punctual (m : Machine P) (last : Nat) : Prop where
  /-- The peripherals are handed the ticks of the turn. -/
  handed : m.runProcessor =
    let ending := (m.turn.instruction last).ending m.horizon.toInt
    Machine.sync { m with processor := ending.2.1, board := ending.2.2, carried := 0 } ending.1
  noted : ∀ calls, (m.metered calls).runProcessor =
    m.runProcessor.metered (syncCalls (m.turn.instruction last).ticks ++ calls)
  /-- These are the cycles that were carried and those that the processor counts. -/
  spent : ∀ k, (m.turn.instruction k).ticks =
    m.carried.toNat + ((m.turn.instruction k).processor.cycles - m.processor.cycles : Int)
  /-- No instruction follows one after which something else needs attention. -/
  attended : ∀ k ≤ last,
    (m.turn.instruction k).board.control.due = true ∨
      (m.turn.instruction k).board.dma.pending (m.turn.instruction k).board.peripherals = true ∨
      ((m.turn.instruction k).board.control.power ≠ .running ∧
        (m.turn.instruction k).board.control.pending = false) →
      k = last
  /-- The turn oversteps the horizon by less than its last instruction. -/
  overshoot : last = 0 ∨ (m.turn.instruction last).ticks - m.turn.cost last < m.horizon.toInt
  single : (m.turn.instruction 0).board.control.due = true → last = 0

theorem punctual {m : Machine P} {last : Nat} (h : m.turn.Stops m.horizon.toInt last) :
    m.Punctual last := by
  obtain ⟨found, hstops, hshare⟩ := share_stops m
  obtain rfl : found = last := hstops.unique h
  have hattended : ∀ k ≤ found, _ → k = found := fun k hk hneeds =>
    h.last_of_not_calm hk (Turn.not_calm_of_needs hneeds)
  exact
    { handed := by rw [runProcessor_eq, hshare]
      noted := fun calls => by
        rw [runProcessor_metered, hshare]
        rfl
      spent := fun k => m.turn.ticks_instruction k
      attended := hattended
      overshoot := h.overshoot
      single := fun hdue => (hattended 0 (Nat.zero_le _) (Or.inl hdue)).symm }

/-- **Where a batch stops.** In a running batch the processor executes instructions up to the first
after which the horizon is reached, an interrupt is due, a DMA channel is active or the machine
sleeps with nothing to wake for. There is such an instruction, whatever is plugged in and whatever
program runs, and the loop ends with it. -/
theorem batch_stops (m : Machine P) (h : m.pollKeypad.board.control.power = .running) :
    (∃! last, m.pollKeypad.turn.Stops m.pollKeypad.horizon.toInt last) ∧
      ∀ last, m.pollKeypad.turn.Stops m.pollKeypad.horizon.toInt last →
        m.pollKeypad.Punctual last ∧
          ∀ transfers, m.runBatch transfers =
            (m.pollKeypad.runProcessor.drain transfers).map fun m' =>
              ((m'.takeInterrupt.elapsed - m.elapsed).count, m'.takeInterrupt) := by
  obtain ⟨last, hstops, -⟩ := share_stops m.pollKeypad
  exact ⟨⟨last, hstops, fun other hother => hother.unique hstops⟩, fun other hother =>
    ⟨punctual hother, fun transfers => runBatch_running transfers h⟩⟩

/-- A machine that counts to two, with the horizon far ahead, and goes to sleep. -/
theorem batch_stops_asleep :
    let m := (Restless.machine.plug Detached.mk).reset
    (m.pollKeypad.turn.instruction 3).board.control.power = .halted ∧
      m.pollKeypad.turn.Stops m.pollKeypad.horizon.toInt 3 ∧ m.pollKeypad.Punctual 3 ∧
      (m.pollKeypad.turn.instruction 3).ticks = 41 := by
  intro m
  have hrunning : m.pollKeypad.board.control.power = .running := by decide +kernel
  obtain ⟨-, hall⟩ := batch_stops m hrunning
  have hstops : m.pollKeypad.turn.Stops m.pollKeypad.horizon.toInt 3 :=
    ⟨by decide +kernel, by decide +kernel⟩
  exact ⟨by decide +kernel, hstops, (hall 3 hstops).1, by decide +kernel⟩

end Machine

end Handheld
