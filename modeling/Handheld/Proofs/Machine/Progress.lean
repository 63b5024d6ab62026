import Handheld.Proofs.Machine.Draining

/-!
# Time moves forward

Every batch comes to an end and takes time, whatever the peripherals say about their next event.

1. `Stint` is the processor's share of a batch as a loop without a bound. The bound of
   `runInstructions` is never reached (`runInstructions_stint`), because no instruction is free.
2. `elapsed_sync_lt` and its neighbours say which parts of a batch move time forward, and
   `runBatch_metered` that no unit is ever handed no time at all.
3. `Settles` is a DMA controller that comes to rest, and `runBatch_advances` a batch with such a
   controller; a controller that makes no progress comes to rest at once.
4. `runTicks_advances` runs batches up to a time, and `time_moves_forward` puts it all together.
-/

namespace Handheld

variable {P : Type} [Peripherals P]

/-! ## Elapsed time -/

namespace Ticks

theorem passed_pos {ticks : Int} {passed : UInt32} (h : elapsed ticks = some passed) :
    0 < passed.toNat := by
  unfold elapsed at h
  split_ifs at h with hp
  cases h
  rw [UInt32.toNat_ofNat', Nat.mod_eq_of_lt (by omega)]
  omega

theorem le_advance (time : Ticks) (ticks : Int) : time.count ≤ (time.advance ticks).count := by
  unfold advance
  cases elapsed ticks with
  | none => exact Nat.le_refl _
  | some passed => exact Nat.le_add_right ..

theorem lt_advance (time : Ticks) {ticks : Int} (h : 0 < ticks) :
    time.count < (time.advance ticks).count := by
  have hs : elapsed ticks ≠ none := mt elapsed_eq_none_iff.mp (by omega)
  unfold advance
  cases he : elapsed ticks with
  | none => exact absurd he hs
  | some passed => exact Nat.lt_add_of_pos_right (passed_pos he)

end Ticks

/-! ## The processor's share -/

namespace Board

/-- The board after its control block was polled. -/
def polled (board : Board P) : Board P :=
  { board with control := board.control.poll.2 }

/-- Whether something else than the processor needs attention. -/
def attention (board : Board P) : Bool :=
  board.control.poll.1 || board.dma.pending board.peripherals ||
    board.polled.control.power ≠ .running

end Board

/-- The processor runs from some ticks until the horizon, or until something else needs attention.
The result counts the instructions that it executes. -/
inductive Stint (horizon : Int) :
    Processor → Board P → Int → Nat → Int × Processor × Board P → Prop
  | reach {p : Processor} {board : Board P} {ticks : Int}
    (h : horizon ≤ ticks + (p.step board).cycles.toNat) :
    Stint horizon p board ticks 1
      (ticks + (p.step board).cycles.toNat, (p.step board).processor, (p.step board).bus)
  | attend {p : Processor} {board : Board P} {ticks : Int}
    (h : ¬ horizon ≤ ticks + (p.step board).cycles.toNat)
    (ha : (p.step board).bus.attention = true) :
    Stint horizon p board ticks 1
      (ticks + (p.step board).cycles.toNat, (p.step board).processor, (p.step board).bus.polled)
  | more {p : Processor} {board : Board P} {ticks : Int} {count : Nat}
    {result : Int × Processor × Board P}
    (h : ¬ horizon ≤ ticks + (p.step board).cycles.toNat)
    (ha : ¬ (p.step board).bus.attention = true)
    (rest : Stint horizon (p.step board).processor (p.step board).bus.polled
      (ticks + (p.step board).cycles.toNat) count result) :
    Stint horizon p board ticks (count + 1) result

theorem step_pos (p : Processor) (board : Board P) : 0 < (p.step board).cycles.toNat :=
  (Processor.step_cycles_within Board.bounded p board).1

/-- Instructions take time. -/
theorem Stint.lt {horizon ticks : Int} {p : Processor} {board : Board P} {count : Nat}
    {result : Int × Processor × Board P} (h : Stint horizon p board ticks count result) :
    ticks < result.1 := by
  induction h with
  | @reach p board ticks _ =>
    have hpos := step_pos p board
    show ticks < ticks + _
    omega
  | @attend p board ticks _ _ =>
    have hpos := step_pos p board
    show ticks < ticks + _
    omega
  | @more p board _ _ _ _ _ _ ih =>
    have hpos := step_pos p board
    omega

namespace Machine

/-- The bound of the loop is never reached: what is left of it is always at least the distance to
the horizon. -/
theorem runInstructions_stint (horizon : Int) (bound : Nat) :
    ∀ (p : Processor) (board : Board P) (ticks : Int), 0 < bound → horizon - ticks ≤ bound →
      ∃ count, Stint horizon p board ticks count (runInstructions horizon bound p board ticks) ∧
        (count : Int) ≤ max 1 (horizon - ticks) := by
  induction bound with
  | zero => exact fun _ _ _ h => absurd h (Nat.lt_irrefl 0)
  | succ bound ih =>
    intro p board ticks _ hb
    have hpos := step_pos p board
    rw [runInstructions_succ]
    simp only
    split_ifs with hh ha
    · exact ⟨1, .reach hh, by omega⟩
    · exact ⟨1, .attend hh ha, by omega⟩
    · -- the horizon is nearer now, but not reached
      obtain ⟨count, hs, hc⟩ := ih (p.step board).processor (p.step board).bus.polled
        (ticks + (p.step board).cycles.toNat) (by omega) (by omega)
      exact ⟨count + 1, .more hh ha hs, by omega⟩

/-- The processor's share of a batch executes some instructions. -/
def Executes (m : Machine P) (count : Nat) : Prop :=
  Stint m.horizon.toInt m.processor m.board m.carried.toNat count m.share

theorem share_executes (m : Machine P) :
    ∃ count, m.Executes count ∧ (count : Int) ≤ max 1 (m.horizon.toInt - m.carried.toNat) :=
  runInstructions_stint m.horizon.toInt (max 1 (m.horizon.toInt - m.carried.toNat)).toNat
    m.processor m.board m.carried.toNat (by omega) (by omega)

/-! ## Parts of a batch -/

theorem elapsed_settle (m : Machine P) (dma : Dma) (ticks : Int) :
    (m.settle dma ticks).elapsed = m.elapsed.advance ticks := by
  unfold settle advance Ticks.advance
  cases Ticks.elapsed ticks <;> rfl

theorem elapsed_sync_lt (m : Machine P) {ticks : Int} (h : 0 < ticks) :
    m.elapsed.count < (m.sync ticks).elapsed.count := by
  rw [sync_eq, elapsed_settle]
  exact Ticks.lt_advance _ h

theorem le_elapsed_settle (m : Machine P) (dma : Dma) (ticks : Int) :
    m.elapsed.count ≤ (m.settle dma ticks).elapsed.count := by
  rw [elapsed_settle]
  exact Ticks.le_advance ..

theorem elapsed_runProcessor_lt (m : Machine P) :
    m.elapsed.count < m.runProcessor.elapsed.count := by
  obtain ⟨count, hs, -⟩ := share_executes m
  have hlt : (m.carried.toNat : Int) < m.share.1 := hs.lt
  have hpos : 0 < m.share.1 := by omega
  exact elapsed_sync_lt
    { m with processor := m.share.2.1, board := m.share.2.2, carried := 0 } hpos

theorem elapsed_runHalted_lt (m : Machine P) : m.elapsed.count < m.runHalted.elapsed.count := by
  have hi : m.idleCycles = max 1 m.horizon.toInt := rfl
  exact elapsed_sync_lt { m with carried := 0 } (by omega)

theorem elapsed_runStopped_lt (m : Machine P) : m.elapsed.count < m.runStopped.elapsed.count :=
  Ticks.lt_advance m.elapsed (Int.lt_of_lt_of_le Int.zero_lt_one m.stoppedTicks_pos)

theorem elapsed_takeInterrupt (m : Machine P) : m.takeInterrupt.elapsed = m.elapsed := by
  unfold takeInterrupt
  simp only
  split_ifs
  · rfl
  · rfl

/-! ## Calls -/

/-- No unit is handed no time at all. -/
def Advancing (log : List Call) : Prop :=
  ∀ unit ticks, Call.sync unit ticks ∈ log → ticks ≠ 0

theorem Advancing.append {a b : List Call} (ha : Advancing a) (hb : Advancing b) :
    Advancing (a ++ b) :=
  fun unit ticks h => (List.mem_append.mp h).elim (ha unit ticks) (hb unit ticks)

theorem advancing_nil : Advancing [] := fun _ _ h => nomatch h

theorem advancing_transfer (spent : UInt32) : Advancing [.transfer spent] :=
  fun _ _ h => nomatch List.mem_singleton.mp h

theorem advancing_syncCalls (ticks : Int) : Advancing (syncCalls ticks) := by
  unfold syncCalls
  cases he : Ticks.elapsed ticks with
  | none => exact advancing_nil
  | some passed =>
    intro unit ticks h
    have hp : ticks = passed := by
      simp only [List.mem_cons, Call.sync.injEq, List.not_mem_nil, or_false] at h
      exact h.elim And.right fun h => h.elim And.right And.right
    rintro rfl
    have hpos := Ticks.passed_pos he
    rw [← hp] at hpos
    exact absurd hpos (by decide)

theorem advancing_stopped (m : Machine P) :
    Advancing [.sync .video m.stoppedTicks.toUInt32] := by
  intro unit ticks h
  obtain ⟨-, rfl⟩ := Call.sync.inj (List.mem_singleton.mp h)
  intro hz
  have hpos := m.stoppedTicks_pos
  have hnat := m.toNat_stoppedTicks
  rw [hz] at hnat
  change 0 = _ at hnat
  omega

/-- Behind a meter that holds some calls all goes the same way, and no unit is handed no time at
all. -/
def Behind {α : Type} (calls : List Call) (behind : Option (α × Machine (Metered P)))
    (plain : Option (α × Machine P)) : Prop :=
  ∃ log, Advancing log ∧
    behind = plain.map fun result => (result.1, result.2.metered (log ++ calls))

omit [Peripherals P] in
theorem Behind.refl {α : Type} (calls : List Call) (plain : Option (α × Machine P)) :
    Behind calls (plain.map fun result => (result.1, result.2.metered calls)) plain :=
  ⟨[], advancing_nil, rfl⟩

omit [Peripherals P] in
theorem Behind.extend {α : Type} {calls : List Call} {behind : Option (α × Machine (Metered P))}
    {plain : Option (α × Machine P)} (log : List Call) (ha : Advancing log)
    (h : Behind (log ++ calls) behind plain) : Behind calls behind plain := by
  obtain ⟨later, hl, he⟩ := h
  refine ⟨later ++ log, hl.append ha, ?_⟩
  rw [he]
  simp only [List.append_assoc]

theorem drainSlices_metered (dma : Dma) (transfers : Nat) :
    ∀ (m : Machine P) (calls : List Call) (ticks : Int) (next : Int32),
      Behind calls ((m.metered calls).drainSlices dma ticks next transfers)
        (m.drainSlices dma ticks next transfers) := by
  induction transfers with
  | zero =>
    intro m calls ticks next
    have hpending := pending_metered calls dma m.board.peripherals
    cases hp : dma.pending m.board.peripherals with
    | false =>
      rw [drainSlices_idle m _ _ _ _ hp,
        drainSlices_idle (m.metered calls) _ _ _ _ (hpending.trans hp)]
      exact .refl calls (some (ticks, m))
    | true =>
      rw [drainSlices_zero m _ _ _ hp, drainSlices_zero (m.metered calls) _ _ _ (hpending.trans hp)]
      exact .refl calls none
  | succ transfers ih =>
    intro m calls ticks next
    have hpending := pending_metered calls dma m.board.peripherals
    cases hp : dma.pending m.board.peripherals with
    | false =>
      rw [drainSlices_idle m _ _ _ _ hp,
        drainSlices_idle (m.metered calls) _ _ _ _ (hpending.trans hp)]
      exact .refl calls (some (ticks, m))
    | true =>
      obtain rfl := eq_attached hp
      rw [drainSlices_succ m _ _ _ _ hp, drainSlices_succ (m.metered calls) _ _ _ _ hp,
        runSlice_metered]
      simp only [settle_metered]
      refine Behind.extend [.transfer (m.runSlice .attached next).1.spent]
        (advancing_transfer _) ?_
      split_ifs
      · exact .refl _ (some (ticks, (m.runSlice .attached next).2))
      · exact Behind.extend _ (advancing_syncCalls _) (ih _ _ 0 _)
      · exact ih _ _ _ next

/-- Behind a meter a drain goes the same way, too. -/
theorem drain_metered (m : Machine P) (calls : List Call) (transfers : Nat) :
    ∃ log, Advancing log ∧ (m.metered calls).drain transfers =
      (m.drain transfers).map fun m' => m'.metered (log ++ calls) := by
  obtain ⟨log, hlog, hslices⟩ :=
    drainSlices_metered m.board.dma transfers (m.withDma .vacant) calls 0 m.horizon
  have hdrain : (m.metered calls).drain transfers = Option.map _ _ :=
    (drain_eq _ _).trans (congrArg (Option.map _) hslices)
  rw [drain_eq m]
  generalize (m.withDma .vacant).drainSlices m.board.dma 0 m.horizon transfers = result at hdrain ⊢
  rcases result with - | ⟨ticks, m₁⟩
  · exact ⟨log, hlog, hdrain⟩
  · refine ⟨syncCalls ticks ++ log, (advancing_syncCalls ticks).append hlog, hdrain.trans ?_⟩
    have hsettle := settle_metered m₁ (log ++ calls) m.board.dma ticks
    rw [Option.map_some, Option.map_some, Option.map_some, List.append_assoc]
    exact congrArg (fun n : Machine (Metered P) => some (n.withDma m.board.dma)) hsettle

/-! ## Batches -/

/-- The machine with which a batch comes to its drain, unless all but video is stopped. -/
def beforeDrain (m : Machine P) : Machine P :=
  if m.pollKeypad.board.control.power = .running then m.pollKeypad.runProcessor
  else m.pollKeypad.runHalted

theorem runBatch_eq {m : Machine P} (h : m.pollKeypad.board.control.power ≠ .stopped)
    (transfers : Nat) :
    m.runBatch transfers = (m.beforeDrain.drain transfers).map fun m' =>
      ((m'.takeInterrupt.elapsed - m.elapsed).count, m'.takeInterrupt) := by
  unfold beforeDrain
  cases hp : m.pollKeypad.board.control.power with
  | running => exact runBatch_running transfers hp
  | halted => exact runBatch_halted transfers hp
  | stopped => exact absurd hp h

theorem elapsed_beforeDrain_lt (m : Machine P) : m.elapsed.count < m.beforeDrain.elapsed.count := by
  unfold beforeDrain
  split_ifs
  · exact m.pollKeypad.elapsed_runProcessor_lt
  · exact m.pollKeypad.elapsed_runHalted_lt

theorem beforeDrain_metered (m : Machine P) (calls : List Call) :
    ∃ log, Advancing log ∧
      (m.metered calls).beforeDrain = m.beforeDrain.metered (log ++ calls) := by
  have hpower : (m.metered calls).pollKeypad.board.control.power =
      m.pollKeypad.board.control.power := rfl
  unfold beforeDrain
  rw [hpower]
  split_ifs
  · exact ⟨_, advancing_syncCalls _, runProcessor_metered m.pollKeypad calls⟩
  · exact ⟨_, advancing_syncCalls _, runHalted_metered m.pollKeypad calls⟩

theorem runBatch_metered (m : Machine P) (calls : List Call) (transfers : Nat) :
    Behind calls ((m.metered calls).runBatch transfers) (m.runBatch transfers) := by
  by_cases hp : m.pollKeypad.board.control.power = .stopped
  · rw [runBatch_stopped transfers hp, runBatch_stopped (m := m.metered calls) transfers hp,
      pollKeypad_metered, runStopped_metered]
    exact ⟨_, advancing_stopped m.pollKeypad, rfl⟩
  · obtain ⟨log, hlog, hbefore⟩ := beforeDrain_metered m calls
    obtain ⟨later, hlater, hdrain⟩ := drain_metered m.beforeDrain (log ++ calls) transfers
    rw [runBatch_eq hp, runBatch_eq (m := m.metered calls) hp, hbefore, hdrain]
    refine ⟨later ++ log, hlater.append hlog, ?_⟩
    cases m.beforeDrain.drain transfers with
    | none => rfl
    | some m₁ =>
      simp only [Option.map_some, takeInterrupt_metered, List.append_assoc]
      rfl

/-! ### Controllers that come to rest -/

/-- The DMA controller comes to rest: after some transfers no channel is pending, or one makes no
progress. -/
def Settles (m : Machine P) : Prop :=
  ∃ n, (Draining.slice^[n] (.start m)).Rests

theorem le_elapsed_slices (n : Nat) :
    ∀ d : Draining P, d.machine.elapsed.count ≤ (Draining.slice^[n] d).machine.elapsed.count := by
  have slice (d : Draining P) : d.machine.elapsed.count ≤ d.slice.machine.elapsed.count := by
    unfold Draining.slice
    simp only
    split_ifs
    · exact le_elapsed_settle (d.machine.runSlice d.dma d.next).2 d.dma d.due
    · exact Nat.le_refl _
  induction n with
  | zero => exact fun _ => Nat.le_refl _
  | succ n ih => exact fun d => (slice d).trans (ih d.slice)

theorem le_elapsed_done (d : Draining P) : d.machine.elapsed.count ≤ d.done.elapsed.count := by
  have hrested : d.rested.elapsed = d.machine.elapsed := by
    unfold Draining.rested
    split_ifs
    · rfl
    · rfl
  rw [← hrested]
  exact le_elapsed_settle d.rested d.dma d.owed

/-- A controller that makes no progress is at rest from the start. -/
theorem rests_of_stuck (hs : ∀ limit (board : Board P), board.dma = .vacant →
    (board.runProgram (Peripherals.transfer limit)).1.spent = 0) (m : Machine P) :
    (Draining.start m).Rests := by
  unfold Draining.Rests Draining.spent Draining.start Draining.resume
  cases m.board.dma with
  | attached => exact Or.inr (hs _ _ rfl)
  | vacant => exact Or.inl rfl

/-- With enough transfers a batch comes to an end, returns the ticks by which it moves time
forward, at least one, and hands no unit no time at all. -/
structure Advances (m : Machine P) (enough ticks : Nat) (m' : Machine P) : Prop where
  pos : 1 ≤ ticks
  elapsed : m'.elapsed.count = m.elapsed.count + ticks
  batch : ∀ transfers, enough ≤ transfers → m.runBatch transfers = some (ticks, m')
  calls : ∀ transfers, enough ≤ transfers → ∃ log, Advancing log ∧
    (m.metered []).runBatch transfers = some (ticks, m'.metered log)

theorem Advances.of_batch {m m' : Machine P} {enough ticks : Nat}
    (hlt : m.elapsed.count < m'.elapsed.count)
    (hticks : ticks = (m'.elapsed - m.elapsed).count)
    (hbatch : ∀ transfers, enough ≤ transfers → m.runBatch transfers = some (ticks, m')) :
    m.Advances enough ticks m' := by
  have ht : ticks = m'.elapsed.count - m.elapsed.count := hticks
  refine ⟨by omega, by omega, hbatch, fun transfers h => ?_⟩
  obtain ⟨log, hlog, he⟩ := runBatch_metered m [] transfers
  rw [hbatch transfers h, List.append_nil] at he
  exact ⟨log, hlog, he⟩

theorem Advances.mono {m m' : Machine P} {enough more ticks : Nat}
    (h : m.Advances enough ticks m') (hle : enough ≤ more) : m.Advances more ticks m' :=
  ⟨h.pos, h.elapsed, fun transfers ht => h.batch transfers (hle.trans ht),
    fun transfers ht => h.calls transfers (hle.trans ht)⟩

/-- A batch advances where the DMA controller comes to rest after some transfers. -/
theorem runBatch_advances {m : Machine P} {n : Nat}
    (h : m.pollKeypad.board.control.power ≠ .stopped →
      (Draining.slice^[n] (.start m.beforeDrain)).Rests) :
    ∃ ticks m', m.Advances (n + 1) ticks m' := by
  by_cases hp : m.pollKeypad.board.control.power = .stopped
  · exact ⟨_, _, .of_batch m.pollKeypad.elapsed_runStopped_lt rfl
      fun transfers _ => runBatch_stopped transfers hp⟩
  · obtain ⟨k, hdrain⟩ := drain_of_rests (h hp)
    have hlt : m.elapsed.count <
        (Draining.slice^[k] (.start m.beforeDrain)).done.takeInterrupt.elapsed.count := by
      rw [elapsed_takeInterrupt]
      exact m.elapsed_beforeDrain_lt.trans_le
        ((le_elapsed_slices k (.start m.beforeDrain)).trans (le_elapsed_done _))
    refine ⟨_, _, .of_batch hlt rfl fun transfers ht => ?_⟩
    obtain ⟨spare, rfl⟩ := Nat.exists_eq_add_of_le ht
    rw [runBatch_eq hp, Nat.add_right_comm, hdrain spare, Option.map_some]

/-! ## Frames -/

/-- In a batch that comes to its drain, the DMA controller comes to rest. -/
def Yields (m : Machine P) : Prop :=
  m.pollKeypad.board.control.power ≠ .stopped → m.beforeDrain.Settles

theorem Yields.advances {m : Machine P} (h : m.Yields) :
    ∃ enough ticks m', m.Advances enough ticks m' := by
  by_cases hp : m.pollKeypad.board.control.power = .stopped
  · obtain ⟨ticks, m', h⟩ := runBatch_advances (n := 0) fun hn => absurd hp hn
    exact ⟨1, ticks, m', h⟩
  · obtain ⟨n, hn⟩ := h hp
    obtain ⟨ticks, m', h⟩ := runBatch_advances fun _ => hn
    exact ⟨n + 1, ticks, m', h⟩

/-- Batches lead from one machine to another and return some ticks between them. -/
inductive Batched : Machine P → Nat → Machine P → Prop
  | refl (m : Machine P) : Batched m 0 m
  | batch {m m₁ m' : Machine P} {transfers ticks passed : Nat}
    (h : m.runBatch transfers = some (ticks, m₁)) (rest : Batched m₁ passed m') :
    Batched m (ticks + passed) m'

theorem runTicks_of_le {target passed : Nat} (h : target ≤ passed) (transfers bound : Nat)
    (m : Machine P) : runTicks target transfers bound passed m = some (passed, m) := by
  cases bound with
  | zero => rfl
  | succ bound => exact if_neg (Nat.not_lt.mpr h)

theorem runTicks_succ {target passed : Nat} (h : passed < target) {transfers ticks : Nat}
    {m m₁ : Machine P} (hb : m.runBatch transfers = some (ticks, m₁)) (bound : Nat) :
    runTicks target transfers (bound + 1) passed m =
      runTicks target transfers bound (passed + ticks) m₁ := by
  rw [runTicks, if_pos h, hb]

/-- Batches that advance pass a time in the last of them, and the bound on their number is never
reached. -/
theorem runTicks_advances (target bound : Nat) :
    ∀ {m : Machine P} {passed : Nat}, passed < target → target ≤ passed + bound →
      (∀ ticks m', m.Batched ticks m' → m'.Yields) →
        ∃ enough sofar before last m', m.Batched sofar before ∧ before.Advances enough last m' ∧
          passed + sofar < target ∧ target ≤ passed + sofar + last ∧
          m'.elapsed.count = m.elapsed.count + (sofar + last) ∧
          ∀ transfers, enough ≤ transfers →
            runTicks target transfers bound passed m = some (passed + sofar + last, m') := by
  induction bound with
  | zero => intro m passed hlt hle; omega
  | succ bound ih =>
    intro m passed hlt hle hy
    obtain ⟨enough₁, ticks, m₁, h₁⟩ := (hy 0 m (.refl m)).advances
    have hpos := h₁.pos
    have helapsed := h₁.elapsed
    by_cases hd : passed + ticks < target
    · -- one bound has to admit the transfers of this batch and of all later ones
      obtain ⟨enough₂, sofar, before, last, m', hbatched, h₂, hlt₂, hle₂, he₂, hrun⟩ :=
        ih hd (by omega) fun later m' hm =>
          hy (ticks + later) m' (.batch (h₁.batch enough₁ (Nat.le_refl _)) hm)
      refine ⟨max enough₁ enough₂, ticks + sofar, before, last, m',
        .batch (h₁.batch enough₁ (Nat.le_refl _)) hbatched, h₂.mono (Nat.le_max_right ..),
        by omega, by omega, by omega, fun transfers ht => ?_⟩
      rw [runTicks_succ hlt (h₁.batch transfers ((Nat.le_max_left ..).trans ht)),
        hrun transfers ((Nat.le_max_right ..).trans ht), Nat.add_assoc passed ticks sofar]
    · refine ⟨enough₁, 0, m, ticks, m₁, .refl m, h₁, hlt, by omega, by omega,
        fun transfers ht => ?_⟩
      rw [runTicks_succ hlt (h₁.batch transfers ht), runTicks_of_le (Nat.not_lt.mp hd)]
      rfl

/-! ## Time moves forward -/

/-- The ticks of a video frame. -/
def frameTicks : Nat := Clock.handheld.ticksPerFrame.count

/-- **Time moves forward.** Whatever the horizons of the peripherals: a batch whose DMA controller
comes to rest ends, returns at least one tick, moves time forward by what it returns and hands no
unit no time at all; its processor executes at most one instruction for each cycle to the horizon,
or a single one. A controller that makes no progress takes one transfer, and cannot hang a batch.
A frame whose controller comes to rest in every batch ends too, in the batch that completes it. -/
theorem time_moves_forward (m : Machine P) :
    (m.Yields → ∃ enough ticks m', m.Advances enough ticks m') ∧
    (∃ count, m.pollKeypad.Executes count ∧
      (count : Int) ≤ max 1 (m.horizon.toInt - m.carried.toNat)) ∧
    ((∀ limit (board : Board P), board.dma = .vacant →
      (board.runProgram (Peripherals.transfer limit)).1.spent = 0) →
      ∃ ticks m', m.Advances 1 ticks m') ∧
    ((∀ passed m', m.Batched passed m' → m'.Yields) →
      ∃ enough passed before last m', m.Batched passed before ∧
        before.Advances enough last m' ∧ passed < frameTicks ∧ frameTicks ≤ passed + last ∧
        m'.elapsed.count = m.elapsed.count + (passed + last) ∧
        ∀ transfers, enough ≤ transfers → m.runFrame transfers = some (passed + last, m')) := by
  refine ⟨Yields.advances, share_executes m.pollKeypad, fun hs => ?_, fun hy => ?_⟩
  · exact runBatch_advances (n := 0) fun _ => rests_of_stuck hs m.beforeDrain
  · have hpos : 0 < frameTicks := by decide
    obtain ⟨enough, passed, before, last, m', hbatched, h, hlt, hle, he, hrun⟩ :=
      runTicks_advances frameTicks frameTicks hpos (Nat.le_add_left ..) hy
    rw [Nat.zero_add] at hlt hle
    refine ⟨enough, passed, before, last, m', hbatched, h, hlt, hle, he, fun transfers ht => ?_⟩
    have hframe := hrun transfers ht
    rw [Nat.zero_add] at hframe
    exact hframe

end Machine

/-! ## A run -/

/-- Timers that are long overdue, and a DMA controller that is stuck. -/
structure Jammed where

instance : Peripherals Jammed where
  nextEvent _ _ := Int32.minValue
  sync _ _ state := (Signals.empty, state)
  readRegister _ _ state := (none, state)
  writeRegister _ _ _ state := state
  readVideo _ _ state := (none, state)
  writeVideo _ _ _ state := state
  transferPending _ := true
  trigger _ state := state
  transfer _ := .done ⟨0, Signals.empty⟩

/-- A machine with a DMA controller that is stuck. -/
def Jammed.machine : Machine Jammed :=
  { Bursts.machine with board := { Bursts.machine.board with peripherals := ⟨⟩ } }

namespace Machine

theorem time_moves_forward_jammed :
    Jammed.machine.reset.Yields ∧ (∃ m', Jammed.machine.reset.Advances 1 20 m') ∧
      ∃ enough ticks m', frameTicks ≤ ticks ∧ ticks = m'.elapsed.count ∧
        ∀ transfers, enough ≤ transfers →
          Jammed.machine.reset.runFrame transfers = some (ticks, m') := by
  have hyields (m : Machine Jammed) : m.Yields :=
    fun _ => ⟨0, rests_of_stuck (fun _ _ _ => rfl) m.beforeDrain⟩
  obtain ⟨-, -, hstuck, hframe⟩ := time_moves_forward Jammed.machine.reset
  obtain ⟨ticks, m', h⟩ := hstuck fun _ _ _ => rfl
  have hticks : (Jammed.machine.reset.runBatch 1).map Prod.fst = some 20 := by decide +kernel
  rw [h.batch 1 (Nat.le_refl 1)] at hticks
  obtain rfl : ticks = 20 := Option.some.inj hticks
  obtain ⟨enough, passed, before, last, after, -, -, -, hle, helapsed, hrun⟩ :=
    hframe fun _ m' _ => hyields m'
  have hzero : Jammed.machine.reset.elapsed.count = 0 := rfl
  rw [hzero, Nat.zero_add] at helapsed
  exact ⟨hyields _, ⟨m', h⟩, enough, passed + last, after, hle, helapsed.symm, hrun⟩

end Machine

end Handheld
