import Handheld.Proofs.Machine.Unchanged
import Handheld.Proofs.Machine.Watched

/-!
# No trigger is lost

What the units raise in a round comes to the DMA controller at once, whatever the machine is doing
and wherever the controller is, and the controller is back in its slot whenever a batch is over.

1. `Signals.count_triggers` says which triggers some signals hold, and `Signals.triggers_sublist` in
   which order.
2. `triggers_delivered` is a run of batches under watch, and a drain that may never end.
-/

namespace Handheld

/-! ## Signals -/

namespace Signals

variable (signals : Signals)

/-- Triggers are delivered in the order of all. -/
theorem triggers_sublist : signals.triggers.Sublist Trigger.all :=
  List.filter_sublist

/-- Each trigger whose bit is set is delivered once, and no other. -/
theorem count_triggers (trigger : Trigger) :
    signals.triggers.count trigger = if signals.triggerBits &&& trigger.bit ≠ 0 then 1 else 0 := by
  have hone : Trigger.all.count trigger = 1 := by cases trigger <;> rfl
  unfold triggers
  split_ifs with h
  · rw [List.count_filter, hone]
    exact bne_iff_ne.mpr h
  · refine List.count_eq_zero.mpr fun hm => ?_
    exact h (bne_iff_ne.mp (List.mem_filter.mp hm).2)

end Signals

namespace Machine

variable {P : Type} [Peripherals P]

/-- **No trigger is lost.** Run any batches from a machine whose DMA controller is in its slot, with
what is plugged in under watch. The machine goes the same way, and the contacts are made in whole
passages: each round of the timed units, and each of the video unit alone, is followed at once by
the triggers that it raised, which are those of the bits that are set, each once and in the order
of all; there are no others. The controller is in its slot whenever a batch is over. The same goes
for a batch whose drain is still under way after any number of transfers, with the controller lifted
off the board and a stand-in in its slot; during each of these transfers the registers of the
controller read as the open bus and ignore what is written. -/
theorem triggers_delivered {m m' : Machine P} (hm : m.board.dma = .attached)
    {batches : List (UInt16 × Nat)} {tally tally' : Tally}
    (h : m.runBatches batches tally = some (tally', m')) :
    m'.board.dma = .attached ∧
    (∃ passages, (m.watched []).runBatches batches tally =
        some (tally', m'.watched (contactsOf passages)) ∧
      ∀ n, ∃ more,
        (Draining.slice^[n] (.start (m'.watched (contactsOf passages)).beforeDrain)).machine =
          (Draining.slice^[n] (.start m'.beforeDrain)).machine.watched (contactsOf more)) ∧
    (∀ signals : Signals, signals.triggers.Sublist Trigger.all ∧ ∀ trigger,
      signals.triggers.count trigger =
        if signals.triggerBits &&& trigger.bit ≠ 0 then 1 else 0) ∧
    ∀ n, let d := Draining.slice^[n] (.start m'.beforeDrain)
      d.dma = .attached ∧ d.machine.board.dma = .vacant ∧
        ∀ met ∈ Board.visits (d.dma.transfer d.next) d.machine.board, met.OffBus := by
  have hrun := runBatches_related watched_lockstep batches (underWatch_watched m []) hm tally
  obtain ⟨hnone, -⟩ | ⟨_, _, w, hsome, hw, hunder⟩ := results_cases hrun
  · rw [h] at hnone
    cases hnone
  rw [h] at hsome
  cases hsome
  obtain ⟨passages, rfl⟩ := UnderWatch.eq_watched hunder
  have hback : m'.board.dma = .attached := (installed_runBatches batches h).dma.trans hm
  have hbefore : m'.beforeDrain.board.dma = .attached :=
    m'.installed_beforeDrain.dma.trans hback
  refine ⟨hback, ⟨passages, hw, fun n => ?_⟩, fun signals => ?_, fun n => ?_⟩
  · have hdrain := Draining.start_related watched_lockstep
      (beforeDrain_related watched_lockstep hunder hback) hbefore
    exact UnderWatch.eq_watched (Draining.slices_related watched_lockstep n hdrain).machine
  · exact ⟨signals.triggers_sublist, signals.count_triggers⟩
  · have hvacant := m'.beforeDrain.vacant_slices n
    refine ⟨(Draining.dma_slices n _).trans hbefore, hvacant, fun met hmet => ?_⟩
    exact Board.offBus_of_vacant ((Board.fixed_visits _ _ met hmet).dma.trans hvacant)

end Machine

/-! ## A run -/

/-- A video unit that raises both blanks whenever time passes, and a DMA controller that has a
transfer to make after the horizontal one. -/
structure Blanks where
  due : Bool

instance : Peripherals Blanks where
  nextEvent _ _ := 8
  sync unit _ state := (if unit = .video then ⟨0, 3⟩ else Signals.empty, state)
  readRegister _ _ state := (none, state)
  writeRegister _ _ _ state := state
  readVideo _ _ state := (none, state)
  writeVideo _ _ _ state := state
  transferPending state := state.due
  trigger raised _ := ⟨raised = .hBlank⟩
  transfer _ := .update (fun _ => ⟨false⟩) fun _ => .done ⟨5, Signals.empty⟩

/-- A machine with nothing to transfer yet. -/
def Blanks.machine : Machine Blanks :=
  { Bursts.machine with board := { Bursts.machine.board with peripherals := ⟨false⟩ } }

/-- The triggers of the first round start a transfer, and those of the second are delivered while
the controller drains. -/
def Blanks.passages : List Passage :=
  [.round 20 Signals.empty Signals.empty ⟨0, 3⟩, .transfer 8,
    .round 5 Signals.empty Signals.empty ⟨0, 3⟩]

namespace Machine

theorem triggers_delivered_blanks :
    Blanks.machine.reset.board.dma = .attached ∧ ∃ m' tally,
      Blanks.machine.reset.runBatches [(0, 2)] Tally.zero = some (tally, m') ∧
      m'.board.dma = .attached ∧
      (Blanks.machine.reset.watched []).runBatches [(0, 2)] Tally.zero =
        some (tally, m'.watched (contactsOf Blanks.passages)) := by
  have hm : Blanks.machine.reset.board.dma = .attached := rfl
  have hran : (Blanks.machine.reset.runBatches [(0, 2)] Tally.zero).isSome = true := by
    decide +kernel
  have hcontacts : ((Blanks.machine.reset.watched []).runBatches [(0, 2)] Tally.zero).map
      (fun result => result.2.board.peripherals.contacts) = some (contactsOf Blanks.passages) := by
    decide +kernel
  obtain ⟨⟨tally, m'⟩, hrun⟩ := Option.isSome_iff_exists.mp hran
  obtain ⟨hback, ⟨passages, hwatched, -⟩, -⟩ := triggers_delivered hm hrun
  rw [hwatched] at hcontacts
  have hpassages : contactsOf passages = contactsOf Blanks.passages := Option.some.inj hcontacts
  rw [hpassages] at hwatched
  exact ⟨hm, m', tally, hrun, hback, hwatched⟩

end Machine

end Handheld
