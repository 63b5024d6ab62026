import Handheld.Machine.Board
import Handheld.Processor.Step
import Handheld.Time

/-!
# The machine

The machine runs in batches. A batch runs the processor up to the nearest event of the timed
units and then hands them the cycles that were spent; it ends early when an interrupt becomes
due, a DMA channel becomes active or the processor powers down. Then the DMA channels run, and
last an interrupt is entered, whose cycles are carried into the next batch.

1. `Machine.build` and `Machine.reset` start a machine.
2. `Machine.sync` hands time to the timed units. What they raise goes to the DMA controller on the
   board, or to the one that `Machine.drain` has lifted off it.
3. `Machine.runBatch` runs one batch. DMA channels may keep each other going for ever, so it is
   given a bound on the transfers it may ask for, and has no result where they do not suffice.
4. `Machine.runFrame` runs batches for the time of a frame, and `Machine.runUntil` until a
   condition on the peripherals holds.
-/

namespace Handheld

structure Machine (P : Type) where
  processor : Processor
  board : Board P
  header : Header
  boot : Boot
  /-- The time handed to the peripherals since reset. -/
  elapsed : Ticks
  /-- The cycles spent outside of any batch, which the next one hands on. -/
  carried : UInt32

namespace Machine

variable {P : Type} [Peripherals P]

/-! ## Starting -/

/-- Reset the processor, work RAM and the registers of the board, and start over. -/
def reset (m : Machine P) : Machine P :=
  let board := m.board.reset
  let outcome :=
    match m.boot with
    | .bios => m.processor.reset board
    | .direct =>
      match board.writeAt Control.postBootAddress 1 .byte with
      | (_, board) => m.processor.bootDirect board
  { m with
    processor := outcome.processor
    board := outcome.bus
    elapsed := Ticks.zero
    carried := outcome.cycles }

/-- The machine of a configuration, with some peripherals plugged in. -/
def build (config : Config) (peripherals : P) : Except BuildError (Machine P) := do
  let board ← Board.build config peripherals
  let m : Machine P :=
    ⟨Processor.powerOn, board, Header.ofMemory board.rom.image, config.boot, Ticks.zero, 0⟩
  return m.reset

/-! ## Time and signals -/

/-- The cycles until a timed unit next needs attention. -/
def horizon (m : Machine P) : Int32 :=
  Peripherals.horizon m.board.peripherals

/-- The cycles of a batch in which the processor does not run: up to the horizon, but at least
one. -/
def idleCycles (m : Machine P) : Int :=
  max 1 m.horizon.toInt

/-- Hand elapsed time to the timed units and latch the interrupts they raise. What they raised is
returned, for its triggers to be delivered. -/
def advance (m : Machine P) (ticks : Int) : Signals × Machine P :=
  match Ticks.elapsed ticks with
  | none => (Signals.empty, m)
  | some passed =>
    match Peripherals.syncAll passed m.board.peripherals with
    | (signals, peripherals) =>
      (signals, { m with
        elapsed := m.elapsed.advance ticks
        board :=
          { m.board with
            control := m.board.control.requestAll signals
            peripherals } })

/-- Deliver the triggers of some signals to a DMA controller, on the board or lifted off it. -/
def trigger (m : Machine P) (dma : Dma) (signals : Signals) : Machine P :=
  { m with board := m.board.modifyPeripherals (dma.deliver signals) }

/-- Hand elapsed time to the timed units, and what they raise to the DMA controller on the
board. -/
def sync (m : Machine P) (ticks : Int) : Machine P :=
  match m.advance ticks with
  | (signals, m) => m.trigger m.board.dma signals

/-- Latch the interrupts of some signals and deliver their triggers to the DMA controller on the
board. -/
def raise (m : Machine P) (signals : Signals) : Machine P :=
  let m := { m with board := m.board.modifyControl (·.requestAll signals) }
  m.trigger m.board.dma signals

/-- Let the keypad see the held buttons, and latch its interrupt where its condition holds. -/
def pollKeypad (m : Machine P) : Machine P :=
  match m.board.keypad.poll (m.board.control.power = .stopped) with
  | (raised, keypad) =>
    let control := m.board.control
    { m with
      board :=
        { m.board with
          keypad
          control := if raised then control.request Interrupt.keypad.bit else control } }

/-! ## The processor's share -/

/-- Run the processor from some ticks until the horizon, or until something else needs
attention: a due interrupt, a DMA channel or power-down. An instruction takes at least one
cycle, so the distance to the horizon bounds the number of instructions. -/
def runInstructions (horizon : Int) :
    (bound : Nat) → Processor → Board P → (ticks : Int) → Int × Processor × Board P
  | 0, processor, board, ticks => (ticks, processor, board)
  | bound + 1, processor, board, ticks =>
    match processor.step board with
    | ⟨processor, board, cycles⟩ =>
      let ticks := ticks + cycles.toNat
      if horizon ≤ ticks then (ticks, processor, board)
      else
        match board.control.poll with
        | (due, control) =>
          let board := { board with control }
          if due || board.dma.pending board.peripherals || control.power ≠ .running
          then (ticks, processor, board)
          else runInstructions horizon bound processor board ticks

/-- Run the processor and hand the timed units the cycles it spent and those carried. -/
def runProcessor (m : Machine P) : Machine P :=
  let horizon := m.horizon.toInt
  match m with
  | ⟨processor, board, header, boot, elapsed, carried⟩ =>
    let carried : Int := carried.toNat
    match runInstructions horizon (max 1 (horizon - carried)).toNat processor board carried with
    | (ticks, processor, board) =>
      Machine.sync ⟨processor, board, header, boot, elapsed, 0⟩ ticks

/-- Hand the timed units the time until the horizon while the processor sleeps. -/
def runHalted (m : Machine P) : Machine P :=
  Machine.sync { m with carried := 0 } (m.carried.toNat + m.idleCycles)

/-- Hand the video unit the time until its next event while all else is stopped. -/
def runStopped (m : Machine P) : Machine P :=
  let ticks := max 1 (Peripherals.nextEvent .video m.board.peripherals)
  match Peripherals.sync .video ticks.toUInt32 m.board.peripherals with
  | (signals, peripherals) =>
    let m := Machine.raise { m with board := { m.board with peripherals } } signals
    { m with elapsed := m.elapsed.advance ticks.toInt }

/-! ## DMA -/

/-- Run the first active channel of a DMA controller for roughly some cycles, and latch the
interrupts of the channels that finish. -/
def runSlice (m : Machine P) (dma : Dma) (limit : Int32) : Slice × Machine P :=
  match m.board.runProgram (dma.transfer limit) with
  | (slice, board) =>
    (slice, { m with board := { board with control := board.control.requestAll slice.signals } })

/-- Run the channels of a DMA controller that was lifted off the board, slice by slice, until none
is active or one makes no progress. The timed units get the ticks spent whenever they reach the
horizon `next`, which is then taken anew; what is left over is returned. -/
def drainSlices (m : Machine P) (dma : Dma) (ticks : Int) (next : Int32) (transfers : Nat) :
    Option (Int × Machine P) :=
  if dma.pending m.board.peripherals then
    match transfers with
    | 0 => none
    | transfers + 1 =>
      match m.runSlice dma next with
      | (slice, m) =>
        if slice.spent = 0 then some (ticks, m)
        else
          let ticks := ticks + slice.spent.toNat
          if next.toInt ≤ ticks then
            match m.advance ticks with
            | (raised, m) =>
              let m := m.trigger dma raised
              m.drainSlices dma 0 m.horizon transfers
          else m.drainSlices dma ticks next transfers
  else some (ticks, m)

def withDma (m : Machine P) (dma : Dma) : Machine P :=
  { m with board := { m.board with dma } }

/-- Lift the DMA controller off the board, run its active channels, hand the timed units all that
they spent, and put the controller back. -/
def drain (m : Machine P) (transfers : Nat) : Option (Machine P) :=
  let dma := m.board.dma
  if dma.pending m.board.peripherals then
    match (m.withDma .vacant).drainSlices dma 0 m.horizon transfers with
    | none => none
    | some (ticks, m) =>
      let m :=
        if 0 < ticks then
          match m.advance ticks with
          | (raised, m) => m.trigger dma raised
        else m
      some (m.withDma dma)
  else some m

/-! ## Batches -/

/-- Wake on an enabled request, and enter an interrupt that is due. -/
def takeInterrupt (m : Machine P) : Machine P :=
  match m.board.control.poll with
  | (due, control) =>
    let board := { m.board with control }
    if due then
      match m.processor.requestInterrupt board with
      | ⟨processor, board, cycles⟩ =>
        { m with processor, board, carried := m.carried + cycles }
    else { m with board }

/-- Run one batch with at most some DMA transfers. The result holds the ticks that passed. -/
def runBatch (m : Machine P) (transfers : Nat) : Option (Nat × Machine P) :=
  let start := m.elapsed
  let finish (m : Machine P) : Nat × Machine P := ((m.elapsed - start).count, m)
  let m := m.pollKeypad
  match m.board.control.power with
  | .running => (m.runProcessor.drain transfers).map fun m => finish m.takeInterrupt
  | .halted => (m.runHalted.drain transfers).map fun m => finish m.takeInterrupt
  | .stopped => some (finish m.runStopped)

/-- Run batches until a time has passed. A batch takes at least one tick, so the time left
bounds their number. -/
def runTicks (target transfers : Nat) :
    (bound : Nat) → (passed : Nat) → Machine P → Option (Nat × Machine P)
  | 0, passed, m => some (passed, m)
  | bound + 1, passed, m =>
    if passed < target then
      match m.runBatch transfers with
      | none => none
      | some (ticks, m) => runTicks target transfers bound (passed + ticks) m
    else some (passed, m)

/-- Run batches until the time of a video frame has passed. -/
def runFrame (m : Machine P) (transfers : Nat) : Option (Nat × Machine P) :=
  let target := Clock.handheld.ticksPerFrame.count
  runTicks target transfers target 0 m

/-- Run batches until the peripherals call for a stop, which is checked before each batch. There
is no result where the given number of batches does not suffice. -/
def runUntil (stop : P → Bool) (transfers : Nat) (m : Machine P) (batches : Nat) :
    Option (Machine P) :=
  if stop m.board.peripherals then some m
  else
    match batches with
    | 0 => none
    | batches + 1 =>
      match m.runBatch transfers with
      | none => none
      | some (_, m) => runUntil stop transfers m batches

end Machine

end Handheld
