import Handheld.Proofs.Machine.Alike
import Handheld.Proofs.Processor.Transport

/-!
# Metered peripherals

Whatever is plugged into the machine can be plugged in behind a meter, which notes the time it is
handed and the cycles its DMA controller spends and passes everything through.

1. `Metered` is such a state: every call is answered by what is behind the meter.
2. `Board.metered_hom` says that the processor does not notice the meter.
3. `Machine.settle` is what the machine does with elapsed time, for the DMA controller on the board
   as for one that was lifted off it (`sync_eq`, `drain_eq`).
4. `Machine.settle_metered`, `Machine.runSlice_metered` and their neighbours say that neither does
   the machine notice the meter, and what each of them adds to the record.
-/

namespace Handheld

/-- A call of the machine that has to do with time: some ticks handed to a unit, or the cycles
spent by one call of the DMA controller. -/
inductive Call
  | sync (unit : Timed) (ticks : UInt32)
  | transfer (spent : UInt32)
  deriving DecidableEq

/-- Peripherals behind a meter, with the calls made of them from the latest on. -/
structure Metered (P : Type) where
  plugged : P
  calls : List Call

/-- The same conversation behind a meter, which notes what it comes to. -/
def BusProgram.metered {P : Type} : BusProgram P Slice → BusProgram (Metered P) Slice
  | done slice =>
    update (fun state => { state with calls := .transfer slice.spent :: state.calls })
      fun _ => done slice
  | read address width next => read address width fun answer => (next answer).metered
  | write address value width next =>
    write address value width fun answer => (next answer).metered
  | fetch address width next => fetch address width fun answer => (next answer).metered
  | latch word next => latch word next.metered
  | update change next =>
    update (fun state => { state with plugged := change state.plugged })
      fun state => (next state.plugged).metered

instance {P : Type} [Peripherals P] : Peripherals (Metered P) where
  nextEvent unit state := Peripherals.nextEvent unit state.plugged
  sync unit ticks state :=
    match Peripherals.sync unit ticks state.plugged with
    | (signals, plugged) => (signals, ⟨plugged, .sync unit ticks :: state.calls⟩)
  readRegister block address state :=
    match Peripherals.readRegister block address state.plugged with
    | (byte, plugged) => (byte, { state with plugged })
  writeRegister block address value state :=
    { state with plugged := Peripherals.writeRegister block address value state.plugged }
  readVideo address width state :=
    match Peripherals.readVideo address width state.plugged with
    | (data, plugged) => (data, { state with plugged })
  writeVideo address value width state :=
    { state with plugged := Peripherals.writeVideo address value width state.plugged }
  transferPending state := Peripherals.transferPending state.plugged
  trigger raised state := { state with plugged := Peripherals.trigger raised state.plugged }
  transfer limit := (Peripherals.transfer limit).metered

/-! ## The board -/

namespace Board

variable {P : Type}

/-- The board with its peripherals behind a meter that already holds some calls. -/
def metered (board : Board P) (calls : List Call) : Board (Metered P) :=
  { board with peripherals := ⟨board.peripherals, calls⟩ }

variable [Peripherals P] (calls : List Call)

/-- A meter answers as what is behind it. -/
theorem metered_answers :
    Answers fun (state : P) (behind : Metered P) => behind = ⟨state, calls⟩ where
  readRegister := by rintro state - rfl block address; exact ⟨rfl, rfl⟩
  writeRegister := by rintro state - rfl block address value; rfl
  readVideo := by rintro state - rfl address width; exact ⟨rfl, rfl⟩
  writeVideo := by rintro state - rfl address value width; rfl

/-- The processor does not notice the meter. -/
theorem metered_hom : BusHom fun board : Board P => board.metered calls :=
  .of_sim (Board.sim (metered_answers calls) .any) fun board behind =>
    ⟨fun h => by rw [h.plug_eq, h.related]; rfl, fun h => by rw [h]; exact .plug rfl trivial⟩

/-- A conversation is noted once, when it is over. -/
theorem runProgram_metered (program : BusProgram P Slice) :
    ∀ board : Board P, runProgram program.metered (board.metered calls) =
      ((runProgram program board).1, (runProgram program board).2.metered
        (.transfer (runProgram program board).1.spent :: calls)) := by
  have hom := metered_hom (P := P) calls
  induction program with
  | done slice => intro board; rfl
  | read address width next ih =>
    intro board
    unfold runProgram BusProgram.metered BusProgram.run
    rw [hom.read]
    exact ih ..
  | write address value width next ih =>
    intro board
    unfold runProgram BusProgram.metered BusProgram.run
    rw [hom.write]
    exact ih ..
  | fetch address width next ih =>
    intro board
    unfold runProgram BusProgram.metered BusProgram.run
    rw [hom.fetch]
    exact ih ..
  | latch word next ih => intro board; exact ih (Bus.latch board word)
  | update change next ih => intro board; exact ih _ (board.modifyPeripherals change)

end Board

/-! ## The machine -/

namespace Machine

variable {P : Type}

/-- The machine with its peripherals behind a meter that already holds some calls. -/
def metered (m : Machine P) (calls : List Call) : Machine (Metered P) :=
  { m with board := m.board.metered calls }

variable [Peripherals P] (m : Machine P) (calls : List Call)

/-! ### Elapsed time -/

/-- Hand elapsed time to the timed units, and what they raise to a DMA controller. -/
def settle (m : Machine P) (dma : Dma) (ticks : Int) : Machine P :=
  (m.advance ticks).2.trigger dma (m.advance ticks).1

theorem deliver_empty (dma : Dma) (state : P) : dma.deliver Signals.empty state = state := rfl

theorem settle_of_none (dma : Dma) {ticks : Int} (h : Ticks.elapsed ticks = none) :
    m.settle dma ticks = m := by
  have hadvance : m.advance ticks = (Signals.empty, m) := by
    unfold advance
    rw [h]
  unfold settle
  rw [hadvance]
  exact congrArg (fun peripherals => { m with board := { m.board with peripherals } })
    (deliver_empty dma m.board.peripherals)

theorem settle_of_elapsed (dma : Dma) {ticks : Int} {passed : UInt32}
    (h : Ticks.elapsed ticks = some passed) :
    m.settle dma ticks =
      { m with
        elapsed := m.elapsed.advance ticks
        board :=
          { m.board with
            control := m.board.control.requestAll
              (Peripherals.syncAll passed m.board.peripherals).1
            peripherals := dma.deliver (Peripherals.syncAll passed m.board.peripherals).1
              (Peripherals.syncAll passed m.board.peripherals).2 } } := by
  unfold settle advance
  rw [h]
  rfl

/-- The time handed on does not move the DMA controller. -/
theorem dma_advance (ticks : Int) : (m.advance ticks).2.board.dma = m.board.dma := by
  unfold advance
  cases Ticks.elapsed ticks <;> rfl

theorem sync_eq (ticks : Int) : m.sync ticks = m.settle m.board.dma ticks := by
  rw [← m.dma_advance ticks]
  rfl

theorem dma_settle (dma : Dma) (ticks : Int) : (m.settle dma ticks).board.dma = m.board.dma :=
  m.dma_advance ticks

/-- A drain lifts the controller off the board and puts it back at its end. -/
theorem drain_eq (transfers : Nat) :
    m.drain transfers =
      ((m.withDma .vacant).drainSlices m.board.dma 0 m.horizon transfers).map fun result =>
        (result.2.settle m.board.dma result.1).withDma m.board.dma := by
  unfold drain
  simp only
  split_ifs with hpending
  · rcases (m.withDma .vacant).drainSlices m.board.dma 0 m.horizon transfers with - | ⟨ticks, after⟩
    · rfl
    · by_cases hticks : 0 < ticks
      · simp only [hticks, if_true]
        rfl
      · have hnone : Ticks.elapsed ticks = none := Ticks.elapsed_eq_none_iff.mpr (by omega)
        simp only [hticks, if_false, Option.map_some, settle_of_none _ _ hnone]
  · have hidle : (m.withDma .vacant).drainSlices m.board.dma 0 m.horizon transfers =
        some (0, m.withDma .vacant) := by
      unfold drainSlices
      exact if_neg hpending
    have hnone : Ticks.elapsed 0 = none := rfl
    rw [hidle, Option.map_some, settle_of_none _ _ hnone]
    rfl

/-! ### Behind the meter -/

/-- Only the controller that is plugged in ever has a channel pending. -/
theorem eq_attached {dma : Dma} {state : P} (h : dma.pending state = true) : dma = .attached := by
  cases dma with
  | attached => rfl
  | vacant => cases h

theorem pending_metered (dma : Dma) (state : P) :
    dma.pending (⟨state, calls⟩ : Metered P) = dma.pending state := by
  cases dma <;> rfl

theorem deliver_metered (dma : Dma) (signals : Signals) (state : P) :
    dma.deliver signals (⟨state, calls⟩ : Metered P) = ⟨dma.deliver signals state, calls⟩ := by
  unfold Dma.deliver
  generalize signals.triggers = triggers
  induction triggers generalizing state with
  | nil => rfl
  | cons raised rest ih =>
    cases dma with
    | attached => exact ih (Peripherals.trigger raised state)
    | vacant => exact ih state

/-- What the timed units are called for when some ticks pass. -/
def syncCalls (ticks : Int) : List Call :=
  match Ticks.elapsed ticks with
  | none => []
  | some passed => [.sync .video passed, .sync .audio passed, .sync .timers passed]

theorem syncAll_metered (passed : UInt32) (state : P) :
    Peripherals.syncAll passed (⟨state, calls⟩ : Metered P) =
      ((Peripherals.syncAll passed state).1, ⟨(Peripherals.syncAll passed state).2,
        [.sync .video passed, .sync .audio passed, .sync .timers passed] ++ calls⟩) := rfl

theorem settle_metered (dma : Dma) (ticks : Int) :
    (m.metered calls).settle dma ticks =
      (m.settle dma ticks).metered (syncCalls ticks ++ calls) := by
  unfold syncCalls
  cases he : Ticks.elapsed ticks with
  | none =>
    rw [settle_of_none _ _ he, settle_of_none _ _ he]
    rfl
  | some passed =>
    have hs := syncAll_metered calls passed m.board.peripherals
    rw [settle_of_elapsed _ _ he, settle_of_elapsed _ _ he]
    simp only [metered, Board.metered, hs, deliver_metered]

theorem sync_metered (ticks : Int) :
    (m.metered calls).sync ticks = (m.sync ticks).metered (syncCalls ticks ++ calls) := by
  rw [sync_eq, sync_eq]
  exact settle_metered m calls m.board.dma ticks

omit [Peripherals P] in
theorem pollKeypad_metered : (m.metered calls).pollKeypad = m.pollKeypad.metered calls := rfl

theorem runHalted_metered :
    (m.metered calls).runHalted =
      m.runHalted.metered (syncCalls (m.carried.toNat + m.idleCycles) ++ calls) :=
  sync_metered { m with carried := 0 } calls (m.carried.toNat + m.idleCycles)

/-- The ticks of a batch in which all but the video unit is stopped. -/
def stoppedTicks : Int32 := max 1 (Peripherals.nextEvent .video m.board.peripherals)

theorem runStopped_metered :
    (m.metered calls).runStopped =
      m.runStopped.metered (.sync .video m.stoppedTicks.toUInt32 :: calls) := by
  have hd := deliver_metered (.sync .video m.stoppedTicks.toUInt32 :: calls) m.board.dma
    (Peripherals.sync .video m.stoppedTicks.toUInt32 m.board.peripherals).1
    (Peripherals.sync .video m.stoppedTicks.toUInt32 m.board.peripherals).2
  exact congrArg (fun state => { m with
    elapsed := m.elapsed.advance m.stoppedTicks.toInt
    board := { m.board with
      control := m.board.control.requestAll
        (Peripherals.sync .video m.stoppedTicks.toUInt32 m.board.peripherals).1
      peripherals := state } }) hd

/-- One more instruction, and after it perhaps others. -/
theorem runInstructions_succ (horizon : Int) (bound : Nat) (p : Processor) (board : Board P)
    (ticks : Int) :
    runInstructions horizon (bound + 1) p board ticks =
      let outcome := p.step board
      let spent := ticks + outcome.cycles.toNat
      let after := { outcome.bus with control := outcome.bus.control.poll.2 }
      if horizon ≤ spent then (spent, outcome.processor, outcome.bus)
      else if outcome.bus.control.poll.1 || outcome.bus.dma.pending outcome.bus.peripherals ||
          after.control.power ≠ .running then (spent, outcome.processor, after)
      else runInstructions horizon bound outcome.processor after spent := rfl

theorem runInstructions_metered (horizon : Int) (bound : Nat) :
    ∀ (p : Processor) (board : Board P) (ticks : Int),
      runInstructions horizon bound p (board.metered calls) ticks =
        ((runInstructions horizon bound p board ticks).1,
          (runInstructions horizon bound p board ticks).2.1,
          (runInstructions horizon bound p board ticks).2.2.metered calls) := by
  induction bound with
  | zero => intro p board ticks; rfl
  | succ bound ih =>
    intro p board ticks
    have hstep : p.step (board.metered calls) =
        (p.step board).map fun board => board.metered calls :=
      Processor.step_map (Board.metered_hom calls) p board
    rw [runInstructions_succ, runInstructions_succ, hstep]
    rcases p.step board with ⟨q, out, cycles⟩
    have hcontrol : (out.metered calls).control = out.control := rfl
    have hpending : (out.metered calls).dma.pending (out.metered calls).peripherals =
        out.dma.pending out.peripherals := pending_metered calls out.dma out.peripherals
    simp only [Outcome.map, hcontrol, hpending]
    split_ifs
    · rfl
    · rfl
    · exact ih q { out with control := out.control.poll.2 } (ticks + cycles.toNat)

/-- A transfer of the attached controller is noted once, when it is over. -/
theorem runSlice_metered (limit : Int32) :
    (m.metered calls).runSlice .attached limit =
      ((m.runSlice .attached limit).1, (m.runSlice .attached limit).2.metered
        (.transfer (m.runSlice .attached limit).1.spent :: calls)) := by
  have hc := Board.runProgram_metered calls (Peripherals.transfer limit) m.board
  exact congrArg (fun result : Slice × Board (Metered P) => (result.1,
    ({ m with board := { result.2 with
      control := result.2.control.requestAll result.1.signals } } : Machine (Metered P)))) hc

theorem takeInterrupt_metered :
    (m.metered calls).takeInterrupt = m.takeInterrupt.metered calls := by
  have hcontrol : (m.metered calls).board.control = m.board.control := rfl
  unfold takeInterrupt
  rw [hcontrol]
  simp only
  split_ifs
  · have hr := Processor.requestInterrupt_map (Board.metered_hom calls) m.processor
      { m.board with control := m.board.control.poll.2 }
    exact congrArg (fun outcome : Outcome (Board (Metered P)) =>
      ({ m with
        processor := outcome.processor
        board := outcome.bus
        carried := m.carried + outcome.cycles } : Machine (Metered P))) hr
  · rfl

/-- What the processor's share of a batch comes to: the ticks spent and the state after it. -/
def share : Int × Processor × Board P :=
  runInstructions m.horizon.toInt (max 1 (m.horizon.toInt - m.carried.toNat)).toNat m.processor
    m.board m.carried.toNat

theorem runProcessor_eq :
    m.runProcessor =
      Machine.sync { m with processor := m.share.2.1, board := m.share.2.2, carried := 0 }
        m.share.1 := rfl

theorem runProcessor_metered :
    (m.metered calls).runProcessor = m.runProcessor.metered (syncCalls m.share.1 ++ calls) := by
  have hs : (m.metered calls).share = (m.share.1, m.share.2.1, m.share.2.2.metered calls) :=
    runInstructions_metered calls _ _ m.processor m.board m.carried.toNat
  rw [runProcessor_eq, runProcessor_eq, hs]
  exact sync_metered { m with processor := m.share.2.1, board := m.share.2.2, carried := 0 } calls
    m.share.1

/-! ## Slices -/

variable (dma : Dma)

theorem drainSlices_idle (ticks : Int) (next : Int32) (transfers : Nat)
    (h : dma.pending m.board.peripherals = false) :
    m.drainSlices dma ticks next transfers = some (ticks, m) := by
  unfold drainSlices
  rw [h]
  rfl

theorem drainSlices_zero (ticks : Int) (next : Int32)
    (h : dma.pending m.board.peripherals = true) :
    m.drainSlices dma ticks next 0 = none := by
  unfold drainSlices
  rw [h]
  rfl

/-- A slice without progress ends the drain; any other is followed by the rest of it. -/
theorem drainSlices_succ (ticks : Int) (next : Int32) (transfers : Nat)
    (h : dma.pending m.board.peripherals = true) :
    m.drainSlices dma ticks next (transfers + 1) =
      let slice := (m.runSlice dma next).1
      let after := (m.runSlice dma next).2
      let spent := ticks + slice.spent.toNat
      if slice.spent = 0 then some (ticks, after)
      else if next.toInt ≤ spent then
        (after.settle dma spent).drainSlices dma 0 (after.settle dma spent).horizon transfers
      else after.drainSlices dma spent next transfers := by
  rw [drainSlices, h]
  rfl

end Machine

end Handheld
