import Handheld.Proofs.Machine.Installed

/-!
# Machines in lockstep

Two machines go through the same batches where nothing that a batch looks at tells them apart.

1. `Lockstep` lists what that is, for processors and boards that are related in any way and a DMA
   controller that they share: a step and an interrupt, the control block and the keypad, and all
   that is asked of the peripherals.
2. `Machine.Related` relates the machines, and each part of a batch keeps it: `settle_related`,
   `runProcessor_related`, `runSlice_related`, `takeInterrupt_related` and their neighbours.
3. `runBatch_related` is one batch, `runTicks_related` a frame and `runBatches_related` a run.
-/

namespace Handheld

variable {P D : Type} [Peripherals P] [Peripherals D]

namespace Dma

/-- Hand the timed units some ticks and deliver the triggers that any of them raised. -/
def round (dma : Dma) (ticks : UInt32) (state : P) : Signals × P :=
  match Peripherals.syncAll ticks state with
  | (signals, state) => (signals, dma.deliver signals state)

/-- Hand the video unit alone some ticks and deliver the triggers that it raised. -/
def videoRound (dma : Dma) (ticks : UInt32) (state : P) : Signals × P :=
  match Peripherals.sync .video ticks state with
  | (signals, state) => (signals, dma.deliver signals state)

end Dma

/-- Nothing that a batch looks at tells related processors and boards apart, and all that it does
keeps them related. -/
structure Lockstep (dma : Dma) (R : Processor → Processor → Prop) (S : Board P → Board D → Prop) :
    Prop where
  control : ∀ {a b}, S a b → b.control = a.control
  keypad : ∀ {a b}, S a b → b.keypad = a.keypad
  slot : ∀ {a b}, S a b → b.dma = a.dma
  nextEvent : ∀ {a b}, S a b → ∀ unit,
    Peripherals.nextEvent unit b.peripherals = Peripherals.nextEvent unit a.peripherals
  pending : ∀ {a b}, S a b → dma.pending b.peripherals = dma.pending a.peripherals
  withControl : ∀ {a b}, S a b → ∀ control, S { a with control } { b with control }
  withKeypad : ∀ {a b}, S a b → ∀ keypad, S { a with keypad } { b with keypad }
  withSlot : ∀ {a b}, S a b → ∀ slot, S { a with dma := slot } { b with dma := slot }
  step : ∀ {p q a b}, R p q → S a b → (p.step a).Related R S (q.step b)
  interrupt : ∀ {p q a b}, R p q → S a b →
    (p.requestInterrupt a).Related R S (q.requestInterrupt b)
  round : ∀ {a b}, S a b → ∀ ticks,
    (dma.round ticks b.peripherals).1 = (dma.round ticks a.peripherals).1 ∧
      S { a with peripherals := (dma.round ticks a.peripherals).2 }
        { b with peripherals := (dma.round ticks b.peripherals).2 }
  videoRound : ∀ {a b}, S a b → ∀ ticks,
    (dma.videoRound ticks b.peripherals).1 = (dma.videoRound ticks a.peripherals).1 ∧
      S { a with peripherals := (dma.videoRound ticks a.peripherals).2 }
        { b with peripherals := (dma.videoRound ticks b.peripherals).2 }
  transfer : ∀ {a b}, S a b → ∀ limit,
    (b.runProgram (dma.transfer limit)).1 = (a.runProgram (dma.transfer limit)).1 ∧
      S (a.runProgram (dma.transfer limit)).2 (b.runProgram (dma.transfer limit)).2

namespace Machine

/-- Machines with related processors and boards that agree in all else. -/
structure Related (R : Processor → Processor → Prop) (S : Board P → Board D → Prop)
    (m : Machine P) (n : Machine D) : Prop where
  processor : R m.processor n.processor
  board : S m.board n.board
  header : n.header = m.header
  boot : n.boot = m.boot
  elapsed : n.elapsed = m.elapsed
  carried : n.carried = m.carried

/-- Options related by what they hold map to options that are, too. -/
theorem rel_map {α β γ δ : Type} {R : α → β → Prop} {S : γ → δ → Prop} {a : Option α}
    {b : Option β} {f : α → γ} {g : β → δ} (h : Option.Rel R a b)
    (hfg : ∀ x y, R x y → S (f x) (g y)) : Option.Rel S (a.map f) (b.map g) := by
  cases h with
  | none => exact .none
  | some hxy => exact .some (hfg _ _ hxy)

/-- Equal results that come with related machines. -/
structure Results {α : Type} (R : Processor → Processor → Prop) (S : Board P → Board D → Prop)
    (a : α × Machine P) (b : α × Machine D) : Prop where
  result : b.1 = a.1
  machine : a.2.Related R S b.2

omit [Peripherals P] [Peripherals D] in
/-- Where one of them has a result, so has the other. -/
theorem results_cases {α : Type} {R : Processor → Processor → Prop}
    {S : Board P → Board D → Prop} {a : Option (α × Machine P)} {b : Option (α × Machine D)}
    (h : Option.Rel (Results R S) a b) :
    (a = none ∧ b = none) ∨
      ∃ x m n, a = some (x, m) ∧ b = some (x, n) ∧ m.Related R S n := by
  cases h with
  | none => exact .inl ⟨rfl, rfl⟩
  | @some a b hresults =>
    rcases a with ⟨x, m⟩
    rcases b with ⟨y, n⟩
    obtain ⟨rfl, hmachine⟩ := hresults
    exact .inr ⟨y, m, n, rfl, rfl, hmachine⟩

omit [Peripherals D] in
/-- Handing on time is a round of the timed units, whose requests are latched. -/
theorem settle_of_round (m : Machine P) (dma : Dma) {ticks : Int} {passed : UInt32}
    (h : Ticks.elapsed ticks = some passed) :
    m.settle dma ticks =
      { m with
        elapsed := m.elapsed.advance ticks
        board :=
          { m.board with
            control := m.board.control.requestAll (dma.round passed m.board.peripherals).1
            peripherals := (dma.round passed m.board.peripherals).2 } } :=
  m.settle_of_elapsed dma h

omit [Peripherals D] in
theorem runStopped_eq (m : Machine P) :
    m.runStopped =
      { m with
        elapsed := m.elapsed.advance m.stoppedTicks.toInt
        board :=
          { m.board with
            control := m.board.control.requestAll
              (m.board.dma.videoRound m.stoppedTicks.toUInt32 m.board.peripherals).1
            peripherals :=
              (m.board.dma.videoRound m.stoppedTicks.toUInt32 m.board.peripherals).2 } } := rfl

variable {dma : Dma} {R : Processor → Processor → Prop} {S : Board P → Board D → Prop}
  (L : Lockstep dma R S) {m : Machine P} {n : Machine D}

include L

/-! ## Time and signals -/

theorem horizon_related (h : m.Related R S n) : n.horizon = m.horizon := by
  unfold horizon Peripherals.horizon
  rw [L.nextEvent h.board, L.nextEvent h.board, L.nextEvent h.board]

theorem settle_related (h : m.Related R S n) (ticks : Int) :
    (m.settle dma ticks).Related R S (n.settle dma ticks) := by
  cases he : Ticks.elapsed ticks with
  | none =>
    rw [settle_of_none m dma he, settle_of_none n dma he]
    exact h
  | some passed =>
    obtain ⟨hsignals, hboard⟩ := L.round h.board passed
    rw [settle_of_round m dma he, settle_of_round n dma he, hsignals, L.control h.board, h.elapsed]
    exact ⟨h.processor, L.withControl hboard _, h.header, h.boot, rfl, h.carried⟩

theorem sync_related (h : m.Related R S n) (hd : m.board.dma = dma) (ticks : Int) :
    (m.sync ticks).Related R S (n.sync ticks) := by
  rw [sync_eq, sync_eq, L.slot h.board, hd]
  exact settle_related L h ticks

theorem pollKeypad_related (h : m.Related R S n) : m.pollKeypad.Related R S n.pollKeypad := by
  have hkeypad := L.withKeypad h.board
    (m.board.keypad.poll (m.board.control.power = .stopped)).2
  have hcontrol := L.withControl hkeypad
    (if m.board.keypad.condition (m.board.control.power = .stopped) then
      m.board.control.request Interrupt.keypad.bit
    else m.board.control)
  unfold pollKeypad
  rw [L.keypad h.board, L.control h.board]
  exact ⟨h.processor, hcontrol, h.header, h.boot, h.elapsed, h.carried⟩

theorem runHalted_related (h : m.Related R S n) (hd : m.board.dma = dma) :
    m.runHalted.Related R S n.runHalted := by
  have hticks : (n.carried.toNat : Int) + n.idleCycles = m.carried.toNat + m.idleCycles := by
    unfold idleCycles
    rw [h.carried, horizon_related L h]
  have hspent : Related R S { m with carried := 0 } { n with carried := 0 } :=
    ⟨h.processor, h.board, h.header, h.boot, h.elapsed, rfl⟩
  unfold runHalted
  rw [hticks]
  exact sync_related L hspent hd _

theorem runStopped_related (h : m.Related R S n) (hd : m.board.dma = dma) :
    m.runStopped.Related R S n.runStopped := by
  have hticks : n.stoppedTicks = m.stoppedTicks := by
    unfold stoppedTicks
    rw [L.nextEvent h.board]
  obtain ⟨hsignals, hboard⟩ := L.videoRound h.board m.stoppedTicks.toUInt32
  rw [runStopped_eq, runStopped_eq, hticks, L.slot h.board, hd, hsignals, L.control h.board,
    h.elapsed]
  exact ⟨h.processor, L.withControl hboard _, h.header, h.boot, rfl, h.carried⟩

/-! ## The processor's share -/

theorem runInstructions_related (horizon : Int) (bound : Nat) :
    ∀ {p q : Processor} {a : Board P} {b : Board D} (ticks : Int), R p q → S a b → a.dma = dma →
      (runInstructions horizon bound q b ticks).1 = (runInstructions horizon bound p a ticks).1 ∧
        R (runInstructions horizon bound p a ticks).2.1
          (runInstructions horizon bound q b ticks).2.1 ∧
        S (runInstructions horizon bound p a ticks).2.2
          (runInstructions horizon bound q b ticks).2.2 := by
  induction bound with
  | zero => exact fun ticks hp hb _ => ⟨rfl, hp, hb⟩
  | succ bound ih =>
    intro p q a b ticks hp hb hd
    obtain ⟨hp', hb', hcycles⟩ := L.step hp hb
    have hd' : (p.step a).bus.dma = dma := (a.fixed_command p .step).dma.trans hd
    have hpending : (q.step b).bus.dma.pending (q.step b).bus.peripherals =
        (p.step a).bus.dma.pending (p.step a).bus.peripherals := by
      rw [L.slot hb', hd', L.pending hb']
    rw [runInstructions_succ, runInstructions_succ]
    simp only [hcycles, L.control hb', hpending]
    have hpolled := L.withControl hb' (p.step a).bus.control.poll.2
    split_ifs
    · exact ⟨rfl, hp', hb'⟩
    · exact ⟨rfl, hp', hpolled⟩
    · exact ih _ hp' hpolled hd'

theorem runProcessor_related (h : m.Related R S n) (hd : m.board.dma = dma) :
    m.runProcessor.Related R S n.runProcessor := by
  have hhorizon := horizon_related L h
  obtain ⟨hticks, hprocessor, hboard⟩ := runInstructions_related L m.horizon.toInt
    (max 1 (m.horizon.toInt - m.carried.toNat)).toNat (m.carried.toNat : Int) h.processor h.board hd
  have hn : n.share = runInstructions m.horizon.toInt
      (max 1 (m.horizon.toInt - m.carried.toNat)).toNat n.processor n.board m.carried.toNat := by
    unfold share
    rw [hhorizon, h.carried]
  rw [← hn] at hticks hprocessor hboard
  have hspent : Related R S
      { m with processor := m.share.2.1, board := m.share.2.2, carried := 0 }
      { n with processor := n.share.2.1, board := n.share.2.2, carried := 0 } :=
    ⟨hprocessor, hboard, h.header, h.boot, h.elapsed, rfl⟩
  have hshare : n.share.1 = m.share.1 := hticks
  have hslot : m.share.2.2.dma = dma := (fixed_runInstructions ..).dma.trans hd
  rw [runProcessor_eq, runProcessor_eq, hshare]
  exact sync_related L hspent hslot m.share.1

/-! ## DMA -/

theorem runSlice_related (h : m.Related R S n) (limit : Int32) :
    Results R S (m.runSlice dma limit) (n.runSlice dma limit) := by
  obtain ⟨hslice, hboard⟩ := L.transfer h.board limit
  have hcontrol := L.withControl hboard
    ((m.board.runProgram (dma.transfer limit)).2.control.requestAll
      (m.board.runProgram (dma.transfer limit)).1.signals)
  refine ⟨hslice, h.processor, ?_, h.header, h.boot, h.elapsed, h.carried⟩
  unfold runSlice
  simp only [hslice, L.control hboard]
  exact hcontrol

theorem drainSlices_related (transfers : Nat) :
    ∀ {m : Machine P} {n : Machine D}, m.Related R S n → ∀ (ticks : Int) (next : Int32),
      Option.Rel (Results R S) (m.drainSlices dma ticks next transfers)
        (n.drainSlices dma ticks next transfers) := by
  induction transfers with
  | zero =>
    intro m n h ticks next
    have hpending := L.pending h.board
    cases hp : dma.pending m.board.peripherals with
    | false =>
      rw [drainSlices_idle m _ _ _ _ hp, drainSlices_idle n _ _ _ _ (hpending.trans hp)]
      exact .some ⟨rfl, h⟩
    | true =>
      rw [drainSlices_zero m _ _ _ hp, drainSlices_zero n _ _ _ (hpending.trans hp)]
      exact .none
  | succ transfers ih =>
    intro m n h ticks next
    have hpending := L.pending h.board
    cases hp : dma.pending m.board.peripherals with
    | false =>
      rw [drainSlices_idle m _ _ _ _ hp, drainSlices_idle n _ _ _ _ (hpending.trans hp)]
      exact .some ⟨rfl, h⟩
    | true =>
      obtain ⟨hslice, hmachine⟩ := runSlice_related L h next
      rw [drainSlices_succ m _ _ _ _ hp, drainSlices_succ n _ _ _ _ (hpending.trans hp)]
      simp only [hslice]
      have hsettle := settle_related L hmachine (ticks + (m.runSlice dma next).1.spent.toNat)
      split_ifs
      · exact .some ⟨rfl, hmachine⟩
      · rw [horizon_related L hsettle]
        exact ih hsettle 0 _
      · exact ih hmachine _ next

theorem withDma_related (h : m.Related R S n) (slot : Dma) :
    (m.withDma slot).Related R S (n.withDma slot) :=
  ⟨h.processor, L.withSlot h.board slot, h.header, h.boot, h.elapsed, h.carried⟩

theorem drain_related (h : m.Related R S n) (hd : m.board.dma = dma) (transfers : Nat) :
    Option.Rel (Related R S) (m.drain transfers) (n.drain transfers) := by
  have hslices := drainSlices_related L transfers (withDma_related L h .vacant) 0 m.horizon
  rw [drain_eq, drain_eq, horizon_related L h, L.slot h.board, hd]
  exact rel_map hslices fun a b hr => by
    rw [hr.result]
    exact withDma_related L (settle_related L hr.machine a.1) dma

theorem beforeDrain_related (h : m.Related R S n) (hd : m.board.dma = dma) :
    m.beforeDrain.Related R S n.beforeDrain := by
  have hpoll := pollKeypad_related L h
  unfold beforeDrain
  rw [L.control hpoll.board]
  split_ifs
  · exact runProcessor_related L hpoll hd
  · exact runHalted_related L hpoll hd

/-! ## Batches -/

theorem takeInterrupt_related (h : m.Related R S n) :
    m.takeInterrupt.Related R S n.takeInterrupt := by
  have hpolled := L.withControl h.board m.board.control.poll.2
  obtain ⟨hprocessor, hboard, hcycles⟩ := L.interrupt h.processor hpolled
  unfold takeInterrupt
  rw [L.control h.board]
  simp only
  split_ifs
  · refine ⟨hprocessor, hboard, h.header, h.boot, h.elapsed, ?_⟩
    show n.carried + _ = m.carried + _
    rw [h.carried, hcycles]
  · exact ⟨h.processor, hpolled, h.header, h.boot, h.elapsed, h.carried⟩

theorem drain_takeInterrupt_related {m₁ : Machine P} {n₁ : Machine D} (h : m.Related R S n)
    (h₁ : m₁.Related R S n₁) (hd : m₁.board.dma = dma) (transfers : Nat) :
    Option.Rel (Results R S)
      ((m₁.drain transfers).map fun m' =>
        ((m'.takeInterrupt.elapsed - m.elapsed).count, m'.takeInterrupt))
      ((n₁.drain transfers).map fun n' =>
        ((n'.takeInterrupt.elapsed - n.elapsed).count, n'.takeInterrupt)) := by
  refine rel_map (drain_related L h₁ hd transfers) fun m' n' h₂ => ?_
  have h₃ := takeInterrupt_related L h₂
  refine ⟨?_, h₃⟩
  simp only [h₃.elapsed, h.elapsed]

theorem runBatch_related (h : m.Related R S n) (hd : m.board.dma = dma) (transfers : Nat) :
    Option.Rel (Results R S) (m.runBatch transfers) (n.runBatch transfers) := by
  have hpoll := pollKeypad_related L h
  have hpower : n.pollKeypad.board.control.power = m.pollKeypad.board.control.power := by
    rw [L.control hpoll.board]
  cases hp : m.pollKeypad.board.control.power with
  | running =>
    rw [runBatch_running _ hp, runBatch_running _ (hpower.trans hp)]
    have hslot := (installed_runProcessor m.pollKeypad).dma.trans hd
    exact drain_takeInterrupt_related L h (runProcessor_related L hpoll hd) hslot transfers
  | halted =>
    rw [runBatch_halted _ hp, runBatch_halted _ (hpower.trans hp)]
    have hslot := (installed_runHalted m.pollKeypad).dma.trans hd
    exact drain_takeInterrupt_related L h (runHalted_related L hpoll hd) hslot transfers
  | stopped =>
    have hstopped := runStopped_related L hpoll hd
    rw [runBatch_stopped _ hp, runBatch_stopped _ (hpower.trans hp)]
    refine .some ⟨?_, hstopped⟩
    simp only [hstopped.elapsed, h.elapsed]

theorem runTicks_related (target transfers bound : Nat) :
    ∀ {m : Machine P} {n : Machine D}, m.Related R S n → m.board.dma = dma → ∀ passed,
      Option.Rel (Results R S) (runTicks target transfers bound passed m)
        (runTicks target transfers bound passed n) := by
  induction bound with
  | zero => exact fun h _ passed => .some ⟨rfl, h⟩
  | succ bound ih =>
    intro m n h hd passed
    unfold runTicks
    split_ifs
    · rcases results_cases (runBatch_related L h hd transfers) with
        ⟨hm, hn⟩ | ⟨ticks, m', n', hm, hn, hmachine⟩
      · rw [hm, hn]
        exact .none
      · rw [hm, hn]
        exact ih hmachine ((installed_runBatch hm).dma.trans hd) (passed + ticks)
    · exact .some ⟨rfl, h⟩

theorem hold_related (h : m.Related R S n) (buttons : UInt16) :
    (m.hold buttons).Related R S (n.hold buttons) := by
  have hkeypad := L.withKeypad h.board (m.board.keypad.hold buttons)
  unfold hold
  rw [L.keypad h.board]
  exact ⟨h.processor, hkeypad, h.header, h.boot, h.elapsed, h.carried⟩

theorem add_related (h : m.Related R S n) (tally : Tally) (ticks : Nat) :
    tally.add n ticks = tally.add m ticks := by
  have hpoll := pollKeypad_related L h
  unfold Tally.add idleCycles
  rw [L.control hpoll.board, horizon_related L h]

theorem runBatches_related (batches : List (UInt16 × Nat)) :
    ∀ {m : Machine P} {n : Machine D}, m.Related R S n → m.board.dma = dma → ∀ tally,
      Option.Rel (Results R S) (m.runBatches batches tally) (n.runBatches batches tally) := by
  induction batches with
  | nil => exact fun h _ tally => .some ⟨rfl, h⟩
  | cons batch rest ih =>
    intro m n h hd tally
    rcases batch with ⟨buttons, transfers⟩
    have hhold := hold_related L h buttons
    unfold runBatches
    rcases results_cases (runBatch_related L hhold hd transfers) with
      ⟨hm, hn⟩ | ⟨ticks, m', n', hm, hn, hmachine⟩
    · rw [hm, hn]
      exact .none
    · rw [hm, hn]
      simp only [add_related L hhold tally]
      exact ih hmachine ((installed_runBatch hm).dma.trans hd) _

end Machine

/-- Drains of one DMA controller under way with related machines. -/
structure Draining.Related (dma : Dma) (R : Processor → Processor → Prop)
    (S : Board P → Board D → Prop) (d : Draining P) (e : Draining D) : Prop where
  machine : d.machine.Related R S e.machine
  left : d.dma = dma
  right : e.dma = dma
  owed : e.owed = d.owed
  next : e.next = d.next

namespace Draining

variable {dma : Dma} {R : Processor → Processor → Prop} {S : Board P → Board D → Prop}
  (L : Lockstep dma R S)

include L

theorem resume_related {m : Machine P} {n : Machine D} (h : m.Related R S n) :
    (resume dma m).Related dma R S (resume dma n) :=
  ⟨h, rfl, rfl, rfl, Machine.horizon_related L h⟩

theorem start_related {m : Machine P} {n : Machine D} (h : m.Related R S n)
    (hd : m.board.dma = dma) : (start m).Related dma R S (start n) := by
  unfold start
  rw [L.slot h.board, hd]
  exact resume_related L (Machine.withDma_related L h .vacant)

theorem slice_related {d : Draining P} {e : Draining D} (h : d.Related dma R S e) :
    d.slice.Related dma R S e.slice := by
  obtain ⟨hslice, hmachine⟩ := Machine.runSlice_related L h.machine d.next
  have hdue : e.due = d.due := by
    unfold due spent
    rw [h.owed, h.next, h.left, h.right, hslice]
  unfold slice
  rw [hdue, h.next, h.left, h.right]
  split_ifs
  · exact resume_related L (Machine.settle_related L hmachine d.due)
  · exact ⟨hmachine, rfl, rfl, rfl, rfl⟩

theorem slices_related (k : Nat) :
    ∀ {d : Draining P} {e : Draining D}, d.Related dma R S e →
      (slice^[k] d).Related dma R S (slice^[k] e) := by
  induction k with
  | zero => exact fun h => h
  | succ k ih => exact fun h => ih (slice_related L h)

end Draining

end Handheld
