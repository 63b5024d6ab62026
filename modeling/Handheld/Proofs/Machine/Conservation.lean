import Handheld.Proofs.Machine.Board
import Handheld.Proofs.Machine.Metered

/-!
# Conservation of time

Every cycle that is spent reaches every timed unit exactly once, through batches of all kinds.

1. `total` and `totalSpent` add up the record of a meter.
2. `Passes` is the ledger of a part of a batch, one lemma for each part: `runProcessor_passes`,
   `runHalted_passes`, `drain_passes` and `takeInterrupt_passes`.
3. `Ledger` is the ledger of a run, which each batch keeps (`runBatch_ledger`), and
   `time_conserved` is the ledger of every run of a machine that was just reset.
-/

namespace Handheld

/-! ## Totals -/

namespace Call

/-- The ticks that a call hands to a unit. -/
def ticks (unit : Timed) : Call → Nat
  | sync other passed => if other = unit then passed.toNat else 0
  | transfer _ => 0

/-- The cycles that a call of the DMA controller spent. -/
def spent : Call → Nat
  | sync _ _ => 0
  | transfer cycles => cycles.toNat

end Call

/-- The ticks that some calls hand to a unit. -/
def total (unit : Timed) (calls : List Call) : Nat :=
  (calls.map (Call.ticks unit)).sum

/-- The cycles that the DMA controller spent in some calls. -/
def totalSpent (calls : List Call) : Nat :=
  (calls.map Call.spent).sum

/-- No call of the DMA controller spent more than a positive signed word holds. -/
def Modest (calls : List Call) : Prop :=
  ∀ call ∈ calls, call.spent ≤ 0x7FFFFFFF

instance : DecidablePred Modest := fun calls =>
  inferInstanceAs (Decidable (∀ call ∈ calls, call.spent ≤ 0x7FFFFFFF))

theorem total_append (unit : Timed) (a b : List Call) :
    total unit (a ++ b) = total unit a + total unit b := by
  unfold total
  rw [List.map_append, List.sum_append]

theorem totalSpent_append (a b : List Call) :
    totalSpent (a ++ b) = totalSpent a + totalSpent b := by
  unfold totalSpent
  rw [List.map_append, List.sum_append]

theorem Modest.left {a b : List Call} (h : Modest (a ++ b)) : Modest a :=
  fun call hm => h call (List.mem_append_left b hm)

theorem Modest.right {a b : List Call} (h : Modest (a ++ b)) : Modest b :=
  fun call hm => h call (List.mem_append_right a hm)

namespace Ticks

theorem elapsed_of_pos {cycles : Int} (h : 0 < cycles) (hl : cycles ≤ 0xFFFFFFFF) :
    ∃ passed, elapsed cycles = some passed ∧ passed.toNat = cycles.toNat := by
  refine ⟨UInt32.ofNat (min cycles.toNat 0xFFFFFFFF), ?_, ?_⟩
  · unfold elapsed
    rw [if_neg (by omega)]
  · rw [UInt32.toNat_ofNat', Nat.mod_eq_of_lt (by omega)]
    omega

end Ticks

namespace Machine

variable {P : Type} [Peripherals P]

/-! ## Handing on -/

/-- What is handed on is handed to each unit, as long as it fits. -/
theorem settle_total (m : Machine P) (dma : Dma) {ticks : Int} (h : ticks ≤ 0xFFFFFFFF) :
    (∀ unit, total unit (syncCalls ticks) = ticks.toNat) ∧ totalSpent (syncCalls ticks) = 0 ∧
      (m.settle dma ticks).elapsed.count = m.elapsed.count + ticks.toNat := by
  unfold syncCalls
  by_cases hp : 0 < ticks
  · obtain ⟨passed, he, ht⟩ := Ticks.elapsed_of_pos hp h
    rw [settle_of_elapsed m dma he]
    unfold Ticks.advance
    rw [he]
    refine ⟨fun unit => ?_, rfl, congrArg (m.elapsed.count + ·) ht⟩
    rw [← ht]
    cases unit <;> simp [total, Call.ticks]
  · have he : Ticks.elapsed ticks = none := Ticks.elapsed_eq_none_iff.mpr (by omega)
    have ht : ticks.toNat = 0 := by omega
    rw [settle_of_none m dma he, he, ht]
    exact ⟨fun _ => rfl, rfl, rfl⟩

theorem processor_settle (m : Machine P) (dma : Dma) (ticks : Int) :
    (m.settle dma ticks).processor = m.processor := by
  unfold settle advance
  cases Ticks.elapsed ticks <;> rfl

theorem carried_settle (m : Machine P) (dma : Dma) (ticks : Int) :
    (m.settle dma ticks).carried = m.carried := by
  unfold settle advance
  cases Ticks.elapsed ticks <;> rfl

theorem carried_sync (m : Machine P) (ticks : Int) : (m.sync ticks).carried = m.carried := by
  rw [sync_eq]
  exact carried_settle m m.board.dma ticks

/-! ## Parts of a batch -/

/-- Some ticks pass from one machine to another: the record says that each unit was handed
exactly those, and they are covered by the processor's count, by what was carried, by idle time
and by what the DMA controller spent. -/
structure Passes (m m' : Machine P) (log : List Call) (ticks idle : Nat) : Prop where
  handed : ∀ unit, total unit log = ticks
  elapsed : m'.elapsed.count = m.elapsed.count + ticks
  balance : ticks + m.processor.cycles + m'.carried.toNat =
    m'.processor.cycles + m.carried.toNat + idle + totalSpent log

omit [Peripherals P] in
theorem Passes.trans {m m₁ m₂ : Machine P} {log₁ log₂ : List Call} {t₁ t₂ i₁ i₂ : Nat}
    (h₁ : Passes m m₁ log₁ t₁ i₁) (h₂ : Passes m₁ m₂ log₂ t₂ i₂) :
    Passes m m₂ (log₂ ++ log₁) (t₁ + t₂) (i₁ + i₂) := by
  refine ⟨fun unit => ?_, ?_, ?_⟩
  · rw [total_append, h₁.handed, h₂.handed, Nat.add_comm]
  · rw [h₂.elapsed, h₁.elapsed, Nat.add_assoc]
  · have b₁ := h₁.balance
    have b₂ := h₂.balance
    rw [totalSpent_append]
    omega

/-- A machine hands on what another one spent and owed before it. -/
theorem settle_passes {m after : Machine P} (dma : Dma) {ticks : Int} {idle : Nat}
    (h : ticks ≤ 0xFFFFFFFF) (he : after.elapsed = m.elapsed)
    (hb : ticks.toNat + m.processor.cycles + after.carried.toNat =
      after.processor.cycles + m.carried.toNat + idle) :
    Passes m (after.settle dma ticks) (syncCalls ticks) ticks.toNat idle := by
  obtain ⟨handed, hspent, helapsed⟩ := settle_total after dma h
  refine ⟨handed, ?_, ?_⟩
  · rw [helapsed, he]
  · rw [processor_settle, carried_settle, hspent, hb, Nat.add_zero]

/-! ### The processor -/

/-- The most that a step on the board takes. -/
def longestStep : Nat := 35 * 32 + 6

/-- Instructions spend what they add to the processor's count, and pass the horizon by one step
at most. -/
theorem runInstructions_spends (horizon : Int) (bound : Nat) :
    ∀ (p : Processor) (board : Board P) (ticks : Int),
      ∃ spent : Nat, (runInstructions horizon bound p board ticks).1 = ticks + spent ∧
        (runInstructions horizon bound p board ticks).2.1.cycles = p.cycles + spent ∧
        (runInstructions horizon bound p board ticks).1 ≤ max ticks horizon + longestStep := by
  induction bound with
  | zero =>
    intro p board ticks
    refine ⟨0, (add_zero _).symm, rfl, ?_⟩
    show ticks ≤ _
    omega
  | succ bound ih =>
    intro p board ticks
    have hcycles := Processor.step_cycles p board
    have hle : (p.step board).cycles.toNat ≤ longestStep :=
      (Processor.step_cycles_within Board.bounded p board).2
    rw [runInstructions_succ]
    generalize p.step board = outcome at hcycles hle ⊢
    rcases outcome with ⟨q, out, cycles⟩
    simp only at hcycles hle ⊢
    split_ifs with hh
    · exact ⟨cycles.toNat, rfl, hcycles, by omega⟩
    · exact ⟨cycles.toNat, rfl, hcycles, by omega⟩
    · obtain ⟨spent, ht, hc, hl⟩ :=
        ih q { out with control := out.control.poll.2 } (ticks + cycles.toNat)
      refine ⟨cycles.toNat + spent, ?_, ?_, ?_⟩
      · rw [ht, Nat.cast_add, add_assoc]
      · rw [hc, hcycles, Nat.add_assoc]
      · exact hl.trans (by omega)

/-- The most that is carried into a batch. -/
def carriedMax : Nat := 4 + (32 + 32)

theorem runProcessor_passes {m : Machine P} (hc : m.carried.toNat ≤ carriedMax) :
    Passes m m.runProcessor (syncCalls m.share.1) m.share.1.toNat 0 ∧
      m.runProcessor.carried = 0 := by
  obtain ⟨spent, ht, hcycles, hle⟩ := runInstructions_spends m.horizon.toInt
    (max 1 (m.horizon.toInt - m.carried.toNat)).toNat m.processor m.board m.carried.toNat
  have hh : m.horizon.toInt < 2 ^ 31 := m.horizon.toInt_lt
  have hshare : m.share.1 = m.carried.toNat + spent := ht
  refine ⟨?_, carried_sync ..⟩
  rw [runProcessor_eq, sync_eq]
  refine settle_passes _ ?_ rfl ?_
  · have hl : m.share.1 ≤ max (m.carried.toNat : Int) m.horizon.toInt + longestStep := hle
    unfold carriedMax at hc
    unfold longestStep at hl
    omega
  · have hs : m.share.2.1.cycles = m.processor.cycles + spent := hcycles
    have hnone : (0 : UInt32).toNat = 0 := rfl
    simp only
    omega

theorem runHalted_passes {m : Machine P} (hc : m.carried.toNat ≤ carriedMax) :
    Passes m m.runHalted (syncCalls (m.carried.toNat + m.idleCycles))
        (m.carried.toNat + m.idleCycles).toNat m.idleCycles.toNat ∧
      m.runHalted.carried = 0 := by
  have hh : m.horizon.toInt < 2 ^ 31 := m.horizon.toInt_lt
  have hi : m.idleCycles = max 1 m.horizon.toInt := rfl
  refine ⟨?_, carried_sync ..⟩
  unfold runHalted
  rw [sync_eq]
  refine settle_passes _ ?_ rfl ?_
  · unfold carriedMax at hc
    omega
  · have hnone : (0 : UInt32).toNat = 0 := rfl
    simp only
    omega

/-! ### The DMA controller -/

/-- Slices ran from one machine to another, with some ticks owed to the timed units before and
after: each unit was handed what was owed or spent and is not owed any more. -/
structure Drained (m m' : Machine P) (log : List Call) (before after : Int) : Prop where
  handed : ∀ unit, total unit log + after = before + totalSpent log
  elapsed : m'.elapsed.count + after = m.elapsed.count + before + totalSpent log
  nonneg : 0 ≤ after
  le : after ≤ 0x7FFFFFFF

omit [Peripherals P] in
theorem Drained.refl (m : Machine P) {ticks : Int} (h0 : 0 ≤ ticks) (hl : ticks ≤ 0x7FFFFFFF) :
    Drained m m [] ticks ticks := by
  refine ⟨fun unit => ?_, ?_, h0, hl⟩
  · show (0 : Int) + ticks = ticks + (0 : Int)
    omega
  · show m.elapsed.count + ticks = m.elapsed.count + ticks + (0 : Int)
    omega

/-- A slice adds what it spent to what is owed. -/
theorem Drained.slice {m m' : Machine P} {dma : Dma} {next : Int32} {log : List Call}
    {before owed after : Int} (ho : owed = before + (m.runSlice dma next).1.spent.toNat)
    (h : Drained (m.runSlice dma next).2 m' log owed after) :
    Drained m m' (log ++ [.transfer (m.runSlice dma next).1.spent]) before after := by
  have hs : totalSpent (log ++ [.transfer (m.runSlice dma next).1.spent]) =
      totalSpent log + (m.runSlice dma next).1.spent.toNat := totalSpent_append log _
  have helapsed : m'.elapsed.count + after = m.elapsed.count + owed + totalSpent log := h.elapsed
  refine ⟨fun unit => ?_, ?_, h.nonneg, h.le⟩
  · have ht : total unit (log ++ [.transfer (m.runSlice dma next).1.spent]) = total unit log :=
      total_append unit log _
    have hu := h.handed unit
    rw [ht, hs]
    omega
  · rw [hs]
    omega

/-- What is handed on is owed no more. -/
theorem Drained.settle {m m' : Machine P} {dma : Dma} {log : List Call} {owed after : Int}
    (h0 : 0 ≤ owed) (hl : owed ≤ 0xFFFFFFFF) (h : Drained (m.settle dma owed) m' log 0 after) :
    Drained m m' (log ++ syncCalls owed) owed after := by
  obtain ⟨handed, hspent, helapsed⟩ := settle_total m dma hl
  have hs : totalSpent (log ++ syncCalls owed) = totalSpent log := by
    rw [totalSpent_append, hspent, Nat.add_zero]
  have he := h.elapsed
  rw [helapsed] at he
  refine ⟨fun unit => ?_, ?_, h.nonneg, h.le⟩
  · have hu := h.handed unit
    rw [total_append, handed, hs]
    omega
  · rw [hs]
    omega

/-- Slices that ran left the processor and what is carried alone, and went the same way behind a
meter, whose record balances. -/
structure Drain (m m' : Machine P) (calls : List Call) (before after : Int)
    (behind : Option (Int × Machine (Metered P))) : Prop where
  processor : m'.processor = m.processor
  carried : m'.carried = m.carried
  logged : ∃ log, behind = some (after, m'.metered (log ++ calls)) ∧
    (Modest log → Drained m m' log before after)

omit [Peripherals P] in
theorem Drain.refl (m : Machine P) (calls : List Call) {ticks : Int} (h0 : 0 ≤ ticks)
    (hl : ticks ≤ 0x7FFFFFFF) : Drain m m calls ticks ticks (some (ticks, m.metered calls)) :=
  ⟨rfl, rfl, [], rfl, fun _ => Drained.refl m h0 hl⟩

/-- One more slice, after which the drain goes on. -/
theorem Drain.slice {m m' : Machine P} {dma : Dma} {next : Int32} {calls : List Call}
    {owed before after : Int} {behind : Option (Int × Machine (Metered P))}
    (ho : owed = before + (m.runSlice dma next).1.spent.toNat)
    (h : Drain (m.runSlice dma next).2 m' (.transfer (m.runSlice dma next).1.spent :: calls)
      owed after behind) : Drain m m' calls before after behind := by
  obtain ⟨hprocessor, hcarried, log, hlog, hd⟩ := h
  refine ⟨hprocessor, hcarried, log ++ [.transfer (m.runSlice dma next).1.spent], ?_,
    fun hmod => ?_⟩
  · rw [hlog, List.append_assoc]
    rfl
  · exact (hd hmod.left).slice ho

/-- One more slice, after which the units reach the horizon and are handed what they are owed. -/
theorem Drain.flush {m m' : Machine P} {dma : Dma} {next : Int32} {calls : List Call}
    {owed before after : Int}
    {behind : Option (Int × Machine (Metered P))} (h0 : 0 ≤ before) (hl : before ≤ 0x7FFFFFFF)
    (ho : owed = before + (m.runSlice dma next).1.spent.toNat)
    (h : Drain ((m.runSlice dma next).2.settle dma owed) m'
      (syncCalls owed ++ .transfer (m.runSlice dma next).1.spent :: calls) 0 after behind) :
    Drain m m' calls before after behind := by
  obtain ⟨hprocessor, hcarried, log, hlog, hd⟩ := h
  refine ⟨?_, ?_, (log ++ syncCalls owed) ++ [.transfer (m.runSlice dma next).1.spent], ?_,
    fun hmod => ?_⟩
  · rw [hprocessor, processor_settle]
    rfl
  · rw [hcarried, carried_settle]
    rfl
  · rw [hlog, List.append_assoc, List.append_assoc]
    rfl
  · have hs : (m.runSlice dma next).1.spent.toNat ≤ 0x7FFFFFFF :=
      hmod (.transfer (m.runSlice dma next).1.spent) (List.mem_append_right _ List.mem_cons_self)
    exact ((hd hmod.left.left).settle (by omega) (by omega)).slice ho

/-- The units are handed what the slices spent at irregular points, but never more than was spent
and never so much that it would not fit. -/
theorem drainSlices_drain (dma : Dma) (transfers : Nat) :
    ∀ (m : Machine P) (calls : List Call) (before : Int) (next : Int32) {after : Int}
      {m' : Machine P}, 0 ≤ before → before ≤ 0x7FFFFFFF →
      m.drainSlices dma before next transfers = some (after, m') →
        Drain m m' calls before after
          ((m.metered calls).drainSlices dma before next transfers) := by
  induction transfers with
  | zero =>
    intro m calls before next after m' h0 hl h
    cases hp : dma.pending m.board.peripherals
    · rw [drainSlices_idle _ _ _ _ _ hp] at h
      rw [drainSlices_idle (m.metered calls) _ _ _ _ ((pending_metered ..).trans hp)]
      cases h
      exact Drain.refl m calls h0 hl
    · rw [drainSlices_zero _ _ _ _ hp] at h
      cases h
  | succ transfers ih =>
    intro m calls before next after m' h0 hl h
    cases hp : dma.pending m.board.peripherals
    · rw [drainSlices_idle _ _ _ _ _ hp] at h
      rw [drainSlices_idle (m.metered calls) _ _ _ _ ((pending_metered ..).trans hp)]
      cases h
      exact Drain.refl m calls h0 hl
    · have hnext : next.toInt < 2 ^ 31 := next.toInt_lt
      obtain rfl := eq_attached hp
      rw [drainSlices_succ _ _ _ _ _ hp] at h
      rw [drainSlices_succ (m.metered calls) _ _ _ _ hp, runSlice_metered]
      simp only [settle_metered] at h ⊢
      split_ifs at h ⊢ with hz hn
      · -- a slice without progress
        cases h
        have ho : before = before + (m.runSlice .attached next).1.spent.toNat := by
          rw [hz]
          exact (add_zero _).symm
        exact Drain.slice ho (Drain.refl _ _ h0 hl)
      · exact Drain.flush h0 hl rfl (ih _ _ 0 _ (by decide) (by decide) h)
      · exact Drain.slice rfl (ih _ _ _ next (by omega) (by omega) h)

theorem drain_passes {m m' : Machine P} {transfers : Nat} (calls : List Call)
    (h : m.drain transfers = some m') :
    m'.carried = m.carried ∧
      ∃ log, (m.metered calls).drain transfers = some (m'.metered (log ++ calls)) ∧
        (Modest log → ∃ ticks, Passes m m' log ticks 0) := by
  rw [drain_eq] at h
  obtain ⟨⟨owed, m₁⟩, hd, rfl⟩ := Option.map_eq_some_iff.mp h
  obtain ⟨hprocessor, hcarried, log, hlog, hdrained⟩ :=
    drainSlices_drain m.board.dma transfers (m.withDma .vacant) calls 0 m.horizon (by decide)
      (by decide) hd
  refine ⟨(carried_settle m₁ m.board.dma owed).trans hcarried, syncCalls owed ++ log, ?_,
    fun hmod => ?_⟩
  · rw [drain_eq]
    refine (congrArg (Option.map _) hlog).trans ?_
    rw [Option.map_some, List.append_assoc]
    exact congrArg (fun n : Machine (Metered P) => some (n.withDma m.board.dma))
      (settle_metered m₁ (log ++ calls) m.board.dma owed)
  · have hD := hdrained hmod.right
    have hnonneg := hD.nonneg
    have hle := hD.le
    obtain ⟨handed, hspent, helapsed⟩ :=
      settle_total m₁ m.board.dma (show owed ≤ 0xFFFFFFFF by omega)
    refine ⟨totalSpent log, fun unit => ?_, ?_, ?_⟩
    · have hu := hD.handed unit
      rw [total_append, handed]
      omega
    · have he := hD.elapsed
      change m₁.elapsed.count + owed = m.elapsed.count + 0 + totalSpent log at he
      show (m₁.settle m.board.dma owed).elapsed.count = _
      rw [helapsed]
      omega
    · show totalSpent log + m.processor.cycles + (m₁.settle m.board.dma owed).carried.toNat =
        (m₁.settle m.board.dma owed).processor.cycles + m.carried.toNat + 0 + totalSpent _
      rw [processor_settle, carried_settle, hprocessor, hcarried, totalSpent_append, hspent]
      show totalSpent log + m.processor.cycles + m.carried.toNat = m.processor.cycles + _ + _ + _
      omega

/-! ### Interrupts -/

/-- The cycles of an interrupt entry are carried. -/
theorem takeInterrupt_passes {m : Machine P} (hc : m.carried = 0) :
    Passes m m.takeInterrupt [] 0 0 ∧ m.takeInterrupt.carried.toNat ≤ carriedMax := by
  unfold takeInterrupt
  simp only
  split_ifs
  · have hcycles := Processor.requestInterrupt_cycles m.processor
      { m.board with control := m.board.control.poll.2 }
    have hle := (Processor.requestInterrupt_cycles_within Board.bounded m.processor
      { m.board with control := m.board.control.poll.2 }).2
    generalize m.processor.requestInterrupt
      { m.board with control := m.board.control.poll.2 } = outcome at hcycles hle ⊢
    rcases outcome with ⟨q, out, cycles⟩
    simp only [hc, UInt32.zero_add] at hcycles hle ⊢
    refine ⟨⟨fun _ => rfl, rfl, ?_⟩, hle⟩
    have hnone : m.carried.toNat = 0 := congrArg UInt32.toNat hc
    show 0 + m.processor.cycles + cycles.toNat = q.cycles + m.carried.toNat + 0 + 0
    omega
  · refine ⟨⟨fun _ => rfl, rfl, ?_⟩, ?_⟩
    · show 0 + m.processor.cycles + m.carried.toNat = m.processor.cycles + m.carried.toNat + 0 + 0
      omega
    · show m.carried.toNat ≤ _
      rw [hc]
      exact Nat.zero_le _

/-! ## Batches -/

theorem runBatch_running {m : Machine P} (transfers : Nat)
    (h : m.pollKeypad.board.control.power = .running) :
    m.runBatch transfers = (m.pollKeypad.runProcessor.drain transfers).map fun m' =>
      ((m'.takeInterrupt.elapsed - m.elapsed).count, m'.takeInterrupt) := by
  unfold runBatch
  simp only
  rw [h]

theorem runBatch_halted {m : Machine P} (transfers : Nat)
    (h : m.pollKeypad.board.control.power = .halted) :
    m.runBatch transfers = (m.pollKeypad.runHalted.drain transfers).map fun m' =>
      ((m'.takeInterrupt.elapsed - m.elapsed).count, m'.takeInterrupt) := by
  unfold runBatch
  simp only
  rw [h]

theorem runBatch_stopped {m : Machine P} (transfers : Nat)
    (h : m.pollKeypad.board.control.power = .stopped) :
    m.runBatch transfers = some
      ((m.pollKeypad.runStopped.elapsed - m.elapsed).count, m.pollKeypad.runStopped) := by
  unfold runBatch
  simp only
  rw [h]

/-- What follows the processor's share, or its sleep: the drain and perhaps an interrupt. -/
theorem drain_takeInterrupt_passes {m m₁ m' : Machine P} {transfers ticks : Nat}
    {log₁ : List Call} {t₁ idle : Nat} (calls : List Call) (h₁ : Passes m m₁ log₁ t₁ idle)
    (hc : m₁.carried = 0)
    (h : ((m₁.drain transfers).map fun m' =>
      ((m'.takeInterrupt.elapsed - m.elapsed).count, m'.takeInterrupt)) = some (ticks, m')) :
    m'.carried.toNat ≤ carriedMax ∧
      ∃ log, (((m₁.metered (log₁ ++ calls)).drain transfers).map fun m' =>
          ((m'.takeInterrupt.elapsed - m.elapsed).count, m'.takeInterrupt)) =
            some (ticks, m'.metered (log ++ calls)) ∧
        (Modest log → Passes m m' log ticks idle) := by
  cases hd : m₁.drain transfers with
  | none => rw [hd] at h; cases h
  | some m₂ =>
    rw [hd] at h
    cases h
    obtain ⟨hcarried, log₂, hlog₂, hpasses₂⟩ := drain_passes (log₁ ++ calls) hd
    obtain ⟨hpasses₃, hle⟩ := takeInterrupt_passes (hcarried.trans hc)
    refine ⟨hle, log₂ ++ log₁, ?_, fun hmod => ?_⟩
    · rw [hlog₂, List.append_assoc, Option.map_some, takeInterrupt_metered]
      rfl
    · obtain ⟨t₂, h₂⟩ := hpasses₂ hmod.left
      have hall := (h₁.trans h₂).trans hpasses₃
      have ht : (m₂.takeInterrupt.elapsed - m.elapsed).count = t₁ + t₂ + 0 := by
        show m₂.takeInterrupt.elapsed.count - m.elapsed.count = _
        rw [hall.elapsed]
        omega
      rw [ht]
      exact hall

/-- Set the buttons that the host holds. -/
def hold (m : Machine P) (buttons : UInt16) : Machine P :=
  { m with board := { m.board with keypad := m.board.keypad.hold buttons } }

end Machine

/-! ## Runs -/

/-- What a run of batches came to: the ticks they returned, those of them that passed while the
machine was stopped, and the time it was to sleep while halted. -/
structure Tally where
  returned : Nat
  stopped : Nat
  slept : Nat
  deriving DecidableEq

namespace Tally

/-- Nothing has been run. -/
def zero : Tally := ⟨0, 0, 0⟩

/-- Enter a batch from a machine, with the ticks that it returned. -/
def add {P : Type} [Peripherals P] (tally : Tally) (m : Machine P) (ticks : Nat) : Tally :=
  match m.pollKeypad.board.control.power with
  | .running => { tally with returned := tally.returned + ticks }
  | .halted =>
    { tally with
      returned := tally.returned + ticks
      slept := tally.slept + m.idleCycles.toNat }
  | .stopped =>
    { tally with
      returned := tally.returned + ticks
      stopped := tally.stopped + ticks }

end Tally

namespace Machine

variable {P : Type} [Peripherals P]

/-- Run some batches, each with the buttons then held and a bound on its DMA transfers. -/
def runBatches : List (UInt16 × Nat) → Tally → Machine P → Option (Tally × Machine P)
  | [], tally, m => some (tally, m)
  | (buttons, transfers) :: rest, tally, m =>
    match (m.hold buttons).runBatch transfers with
    | none => none
    | some (ticks, after) => runBatches rest (tally.add (m.hold buttons) ticks) after

/-- The ledger of a run since a reset, before which the processor had counted some cycles. -/
structure Ledger (before : Nat) (tally : Tally) (m : Machine P) (calls : List Call) : Prop where
  video : total .video calls = m.elapsed.count
  returned : tally.returned = m.elapsed.count
  audio : total .audio calls = total .timers calls
  stopped : total .timers calls + tally.stopped = m.elapsed.count
  balance : total .timers calls + before + m.carried.toNat =
    m.processor.cycles + tally.slept + totalSpent calls

omit [Peripherals P] in
/-- The keypad takes no time. -/
theorem Ledger.pollKeypad {before : Nat} {tally : Tally} {m : Machine P} {calls : List Call}
    (h : Ledger before tally m calls) : Ledger before tally m.pollKeypad calls :=
  ⟨h.video, h.returned, h.audio, h.stopped, h.balance⟩

omit [Peripherals P] in
theorem Ledger.hold {before : Nat} {tally : Tally} {m : Machine P} {calls : List Call}
    (h : Ledger before tally m calls) (buttons : UInt16) :
    Ledger before tally (m.hold buttons) calls :=
  ⟨h.video, h.returned, h.audio, h.stopped, h.balance⟩

omit [Peripherals P] in
/-- Ticks that pass are entered. -/
theorem Ledger.passes {before ticks idle : Nat} {tally : Tally} {m m' : Machine P}
    {calls log : List Call} (h : Ledger before tally m calls) (hp : Passes m m' log ticks idle) :
    Ledger before ⟨tally.returned + ticks, tally.stopped, tally.slept + idle⟩ m'
      (log ++ calls) := by
  have helapsed := hp.elapsed
  have hbalance := hp.balance
  have hstopped := h.stopped
  have hb := h.balance
  refine ⟨?_, ?_, ?_, ?_, ?_⟩
  · rw [total_append, hp.handed, h.video, helapsed, Nat.add_comm]
  · rw [h.returned, helapsed]
  · rw [total_append, total_append, hp.handed, hp.handed, h.audio]
  · rw [total_append, hp.handed, helapsed]
    simp only
    omega
  · rw [total_append, totalSpent_append, hp.handed]
    simp only
    omega

theorem stoppedTicks_pos (m : Machine P) : 1 ≤ m.stoppedTicks.toInt := by
  have hmax : m.stoppedTicks = if 1 ≤ Peripherals.nextEvent .video m.board.peripherals then
      Peripherals.nextEvent .video m.board.peripherals else 1 := rfl
  rw [hmax]
  split_ifs with h
  · exact Int32.le_iff_toInt_le.mp h
  · decide

theorem toNat_stoppedTicks (m : Machine P) :
    m.stoppedTicks.toUInt32.toNat = m.stoppedTicks.toInt.toNat := by
  have hpos := m.stoppedTicks_pos
  have hnonneg : (0 : Int32) ≤ m.stoppedTicks := Int32.le_iff_toInt_le.mpr (by
    show (0 : Int) ≤ _
    omega)
  exact Int32.toNat_toUInt32_of_le hnonneg

/-- A batch in which all else is stopped takes what the video unit is handed. -/
theorem elapsed_runStopped (m : Machine P) :
    m.runStopped.elapsed.count = m.elapsed.count + m.stoppedTicks.toUInt32.toNat := by
  have hpos := m.stoppedTicks_pos
  have hlt : m.stoppedTicks.toInt < 2 ^ 31 := m.stoppedTicks.toInt_lt
  obtain ⟨passed, he, ht⟩ :=
    Ticks.elapsed_of_pos (show 0 < m.stoppedTicks.toInt by omega) (by omega)
  show (m.elapsed.advance m.stoppedTicks.toInt).count = _
  unfold Ticks.advance
  rw [he, m.toNat_stoppedTicks, ← ht]

theorem returned_runStopped (m : Machine P) :
    (m.runStopped.elapsed - m.elapsed).count = m.stoppedTicks.toUInt32.toNat := by
  show m.runStopped.elapsed.count - m.elapsed.count = _
  rw [elapsed_runStopped]
  omega

/-- While all else is stopped, the video unit alone is handed the ticks that pass. -/
theorem runStopped_ledger {before : Nat} {tally : Tally} {m : Machine P} {calls : List Call}
    (h : Ledger before tally m calls) :
    Ledger before
      ⟨tally.returned + (m.runStopped.elapsed - m.elapsed).count,
        tally.stopped + (m.runStopped.elapsed - m.elapsed).count, tally.slept⟩
      m.runStopped (.sync .video m.stoppedTicks.toUInt32 :: calls) := by
  have helapsed := m.elapsed_runStopped
  have htotal (unit : Timed) : total unit (.sync .video m.stoppedTicks.toUInt32 :: calls) =
      Call.ticks unit (.sync .video m.stoppedTicks.toUInt32) + total unit calls :=
    List.sum_cons
  have hspent : totalSpent (.sync .video m.stoppedTicks.toUInt32 :: calls) = totalSpent calls :=
    (List.sum_cons).trans (Nat.zero_add _)
  have hstopped := h.stopped
  have hbalance := h.balance
  rw [returned_runStopped]
  refine ⟨?_, ?_, ?_, ?_, ?_⟩
  · rw [htotal, h.video, helapsed]
    exact Nat.add_comm ..
  · rw [h.returned, helapsed]
  · rw [htotal, htotal, h.audio]
    rfl
  · rw [htotal, helapsed]
    show 0 + total .timers calls + (tally.stopped + m.stoppedTicks.toUInt32.toNat) = _
    omega
  · rw [htotal, hspent]
    show 0 + total .timers calls + before + m.carried.toNat =
      m.processor.cycles + tally.slept + totalSpent calls
    omega

/-- Every batch keeps the ledger, whatever its kind, and the meter is not noticed. -/
theorem runBatch_ledger (before : Nat) (tally : Tally) {m m' : Machine P} (calls : List Call)
    {transfers ticks : Nat} (hc : m.carried.toNat ≤ carriedMax)
    (h : m.runBatch transfers = some (ticks, m')) :
    m'.carried.toNat ≤ carriedMax ∧
      ∃ log, (m.metered calls).runBatch transfers = some (ticks, m'.metered (log ++ calls)) ∧
        (Modest log → Ledger before tally m calls →
          Ledger before (tally.add m ticks) m' (log ++ calls)) := by
  have hcp : m.pollKeypad.carried.toNat ≤ carriedMax := hc
  unfold Tally.add
  cases hpower : m.pollKeypad.board.control.power with
  | running =>
    have hpower' : (m.metered calls).pollKeypad.board.control.power = .running := hpower
    rw [runBatch_running _ hpower] at h
    rw [runBatch_running _ hpower', pollKeypad_metered, runProcessor_metered]
    obtain ⟨hpasses, hzero⟩ := runProcessor_passes hcp
    obtain ⟨hle, log, hlog, hall⟩ := drain_takeInterrupt_passes calls hpasses hzero h
    exact ⟨hle, log, hlog, fun hmod hledger =>
      hledger.pollKeypad.passes (hall hmod)⟩
  | halted =>
    have hpower' : (m.metered calls).pollKeypad.board.control.power = .halted := hpower
    rw [runBatch_halted _ hpower] at h
    rw [runBatch_halted _ hpower', pollKeypad_metered, runHalted_metered]
    obtain ⟨hpasses, hzero⟩ := runHalted_passes hcp
    obtain ⟨hle, log, hlog, hall⟩ := drain_takeInterrupt_passes calls hpasses hzero h
    exact ⟨hle, log, hlog, fun hmod hledger =>
      hledger.pollKeypad.passes (hall hmod)⟩
  | stopped =>
    have hpower' : (m.metered calls).pollKeypad.board.control.power = .stopped := hpower
    rw [runBatch_stopped _ hpower] at h
    rw [runBatch_stopped _ hpower', pollKeypad_metered, runStopped_metered]
    cases h
    exact ⟨hcp, [.sync .video m.pollKeypad.stoppedTicks.toUInt32], rfl, fun _ hledger =>
      runStopped_ledger hledger.pollKeypad⟩

theorem runBatches_ledger (before : Nat) (batches : List (UInt16 × Nat)) :
    ∀ {tally tally' : Tally} {m m' : Machine P} (calls : List Call),
      m.carried.toNat ≤ carriedMax → m.runBatches batches tally = some (tally', m') →
        ∃ log, (m.metered calls).runBatches batches tally =
            some (tally', m'.metered (log ++ calls)) ∧
          (Modest log → Ledger before tally m calls → Ledger before tally' m' (log ++ calls)) := by
  induction batches with
  | nil =>
    intro tally tally' m m' calls hc h
    cases h
    exact ⟨[], rfl, fun _ hledger => hledger⟩
  | cons batch rest ih =>
    intro tally tally' m m' calls hc h
    rcases batch with ⟨buttons, transfers⟩
    unfold runBatches at h ⊢
    have hhold : (m.metered calls).hold buttons = (m.hold buttons).metered calls := rfl
    have hadd (ticks : Nat) :
        tally.add ((m.hold buttons).metered calls) ticks = tally.add (m.hold buttons) ticks := rfl
    rw [hhold]
    cases hb : (m.hold buttons).runBatch transfers with
    | none => rw [hb] at h; cases h
    | some result =>
      rcases result with ⟨ticks, m₁⟩
      rw [hb] at h
      have hch : (m.hold buttons).carried.toNat ≤ carriedMax := hc
      obtain ⟨hc₁, log₁, hlog₁, hledger₁⟩ := runBatch_ledger before tally calls hch hb
      obtain ⟨log₂, hlog₂, hledger₂⟩ := ih (log₁ ++ calls) hc₁ h
      refine ⟨log₂ ++ log₁, ?_, fun hmod hledger => ?_⟩
      · rw [hlog₁, List.append_assoc]
        exact hlog₂
      · rw [List.append_assoc]
        exact hledger₂ hmod.left (hledger₁ hmod.right (hledger.hold buttons))

/-! ## Conservation -/

/-- A machine that was just built or reset, and what its processor had counted before that. -/
inductive Fresh : Machine P → Nat → Prop
  | built {config : Config} {peripherals : P} {m : Machine P}
    (h : build config peripherals = .ok m) : Fresh m 0
  | reset (m : Machine P) : Fresh m.reset m.processor.cycles

omit [Peripherals P] in
theorem fresh_ledger {m : Machine P} {before : Nat} (helapsed : m.elapsed = Ticks.zero)
    (hcarried : before + m.carried.toNat = m.processor.cycles) : Ledger before Tally.zero m [] := by
  refine ⟨?_, ?_, rfl, ?_, ?_⟩
  · rw [helapsed]; rfl
  · rw [helapsed]; rfl
  · rw [helapsed]; rfl
  · show 0 + before + m.carried.toNat = m.processor.cycles + 0 + 0
    omega

/-- The cycles of a reset are carried into the first batch. -/
theorem reset_ledger (m : Machine P) :
    m.reset.carried.toNat ≤ carriedMax ∧ Ledger m.processor.cycles Tally.zero m.reset [] := by
  unfold reset
  cases m.boot with
  | bios =>
    exact ⟨(Processor.reset_cycles_within Board.bounded _ _).2,
      fresh_ledger rfl (Processor.reset_cycles ..).symm⟩
  | direct =>
    exact ⟨(Processor.bootDirect_cycles_within Board.bounded _ _).2.trans (Nat.le_add_left ..),
      fresh_ledger rfl (Processor.bootDirect_cycles ..).symm⟩

/-- A machine is built by a reset of one whose processor has not run yet. -/
theorem build_eq_reset {config : Config} {peripherals : P} {m : Machine P}
    (h : build config peripherals = .ok m) :
    ∃ start : Machine P, start.processor = Processor.powerOn ∧ start.reset = m := by
  unfold build at h
  cases hb : Board.build config peripherals with
  | error e => rw [hb] at h; cases h
  | ok board =>
    rw [hb] at h
    cases h
    exact ⟨_, rfl, rfl⟩

theorem Fresh.ledger {m : Machine P} {before : Nat} (h : Fresh m before) :
    m.carried.toNat ≤ carriedMax ∧ Ledger before Tally.zero m [] := by
  cases h with
  | built h =>
    obtain ⟨start, hp, rfl⟩ := build_eq_reset h
    have hl := reset_ledger start
    rw [hp] at hl
    exact hl
  | reset m => exact reset_ledger m

/-- **Time is conserved.** Run any batches from a machine that was just built or reset. Behind a
meter, which it does not notice, every tick is handed to the video unit once and returned by a
batch, the timers and the audio unit are handed those that did not pass while the machine was
stopped, and these are the cycles that the processor has counted since the reset and does not
still carry, the time the machine slept and what the DMA controller spent. -/
theorem time_conserved {m m' : Machine P} {before : Nat} (h : Fresh m before)
    {batches : List (UInt16 × Nat)} {tally : Tally}
    (hrun : m.runBatches batches Tally.zero = some (tally, m')) :
    ∃ calls, (m.metered []).runBatches batches Tally.zero = some (tally, m'.metered calls) ∧
      (Modest calls →
        total .video calls = m'.elapsed.count ∧ m'.elapsed.count = tally.returned ∧
        total .timers calls = total .audio calls ∧
        (total .timers calls : Int) = m'.elapsed.count - tally.stopped ∧
        (total .timers calls : Int) = (m'.processor.cycles - before) - m'.carried.toNat +
          tally.slept + totalSpent calls) := by
  obtain ⟨hc, hstart⟩ := h.ledger
  obtain ⟨log, hlog, hledger⟩ := runBatches_ledger before batches [] hc hrun
  rw [List.append_nil] at hlog hledger
  refine ⟨log, hlog, fun hmod => ?_⟩
  have hl := hledger hmod hstart
  have hstopped := hl.stopped
  have hbalance := hl.balance
  refine ⟨hl.video, hl.returned.symm, hl.audio.symm, ?_, ?_⟩
  · omega
  · omega

end Machine

/-! ## A run -/

/-- A DMA controller with some bursts left, the last of which stops the machine and the others of
which halt it. A burst becomes due whenever time passes. -/
structure Bursts where
  left : Nat
  due : Bool

instance : Peripherals Bursts where
  nextEvent _ _ := 8
  sync _ _ state := (Signals.empty, { state with due := state.left != 0 })
  readRegister _ _ state := (none, state)
  writeRegister _ _ _ state := state
  readVideo _ _ state := (none, state)
  writeVideo _ _ _ state := state
  transferPending state := state.due
  trigger _ state := state
  transfer _ :=
    .update (fun state => ⟨state.left - 1, false⟩) fun state =>
      .write Control.powerAddress (if state.left = 1 then 0x80 else 0) .byte fun _ =>
        .done ⟨5, Signals.empty⟩

namespace Bursts

/-- An empty cartridge. -/
def cartridge : Rom :=
  ⟨romMinSize, Memory.filled romMinSize 0, by decide, by decide, by decide⟩

/-- A machine with two bursts left. -/
def machine : Machine Bursts where
  processor := Processor.powerOn
  board :=
    { bios := Memory.filled biosSize 0
      large := Memory.filled largeSize 0
      small := Memory.filled smallSize 0
      rom := cartridge
      control := Control.initial
      keypad := Keypad.initial
      peripherals := ⟨2, false⟩
      dma := .attached
      prefetched := 0 }
  header := Header.ofMemory cartridge.image
  boot := .direct
  elapsed := Ticks.zero
  carried := 0

/-- A running batch, a halted one and a stopped one, with a burst after each of the first two. -/
def batches : List (UInt16 × Nat) := [(0, 4), (0, 4), (0, 4)]

end Bursts

namespace Machine

theorem time_conserved_bursts :
    Fresh Bursts.machine.reset 0 ∧ ∃ m' calls,
      Bursts.machine.reset.runBatches Bursts.batches Tally.zero = some (⟨46, 8, 8⟩, m') ∧
      (Bursts.machine.reset.metered []).runBatches Bursts.batches Tally.zero =
        some (⟨46, 8, 8⟩, m'.metered calls) ∧
      Modest calls ∧ total .video calls = 46 ∧ total .timers calls = 38 ∧
      total .audio calls = 38 := by
  have hfresh : Fresh Bursts.machine.reset 0 := Fresh.reset Bursts.machine
  have htally : (Bursts.machine.reset.runBatches Bursts.batches Tally.zero).map Prod.fst =
      some ⟨46, 8, 8⟩ := by decide +kernel
  have hmodest : ((Bursts.machine.reset.metered []).runBatches Bursts.batches Tally.zero).map
      (fun result => decide (Modest result.2.board.peripherals.calls)) = some true := by
    decide +kernel
  obtain ⟨⟨tally, m'⟩, hrun, ht⟩ := Option.map_eq_some_iff.mp htally
  change tally = _ at ht
  subst ht
  obtain ⟨calls, hmeter, hledger⟩ := time_conserved hfresh hrun
  rw [hmeter] at hmodest
  have hmod : Modest calls := of_decide_eq_true (Option.some.inj hmodest)
  obtain ⟨hvideo, hreturned, haudio, htimers, -⟩ := hledger hmod
  rw [hreturned] at hvideo htimers
  have htotal : total .timers calls = 38 := by
    change (total .timers calls : Int) = 46 - 8 at htimers
    omega
  exact ⟨hfresh, m', calls, hrun, hmeter, hmod, hvideo, htotal, haudio.symm.trans htotal⟩

end Machine

end Handheld
