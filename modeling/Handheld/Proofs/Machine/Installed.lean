import Handheld.Proofs.Machine.Progress
import Handheld.Proofs.Machine.Unchanged
import Handheld.Proofs.Processor.Retiming

/-!
# What no batch changes

A batch leaves the images, the header and the boot mode alone. It lifts the DMA controller off the
board to drain it, and puts it back.

1. `Machine.Installed` relates machines that agree in these.
2. `installed_slices` says that transfers leave them alone while the controller is off the board,
   and `installed_drain` that the controller is back at the end, however the drain ends.
3. `installed_runBatch`, `installed_runTicks`, `installed_runBatches` and `installed_reset` carry
   this over to all that a machine does by itself.
-/

namespace Handheld

variable {P : Type} [Peripherals P]

/-- A command to the processor leaves the images and the slot alone. -/
theorem Board.fixed_command (board : Board P) (p : Processor) (command : Command) :
    board.Fixed (command.run p board).bus :=
  (command.run_alike (BusSim.refl.keeping board.keeps_fixed) (.refl p) ⟨rfl, .refl board⟩).bus.2

namespace Machine

/-- Machines with the same images, the same in the slot of the DMA controller, and the same header
and boot mode. -/
structure Installed {D : Type} (m : Machine P) (n : Machine D) : Prop where
  bios : n.board.bios = m.board.bios
  rom : n.board.rom = m.board.rom
  dma : n.board.dma = m.board.dma
  header : n.header = m.header
  boot : n.boot = m.boot

omit [Peripherals P] in
theorem Installed.refl (m : Machine P) : m.Installed m := ⟨rfl, rfl, rfl, rfl, rfl⟩

omit [Peripherals P] in
theorem Installed.symm {D : Type} {m : Machine P} {n : Machine D} (h : m.Installed n) :
    n.Installed m :=
  ⟨h.bios.symm, h.rom.symm, h.dma.symm, h.header.symm, h.boot.symm⟩

omit [Peripherals P] in
theorem Installed.trans {D E : Type} {m : Machine P} {n : Machine D} {o : Machine E}
    (h : m.Installed n) (k : n.Installed o) : m.Installed o :=
  ⟨k.bios.trans h.bios, k.rom.trans h.rom, k.dma.trans h.dma, k.header.trans h.header,
    k.boot.trans h.boot⟩

omit [Peripherals P] in
theorem Installed.of_fixed {m n : Machine P} (h : m.board.Fixed n.board)
    (hheader : n.header = m.header) (hboot : n.boot = m.boot) : m.Installed n :=
  ⟨h.bios, h.rom, h.dma, hheader, hboot⟩

/-! ## Parts of a batch -/

theorem fixed_runInstructions (horizon : Int) (bound : Nat) :
    ∀ (p : Processor) (board : Board P) (ticks : Int),
      board.Fixed (runInstructions horizon bound p board ticks).2.2 := by
  induction bound with
  | zero => exact fun _ board _ => .refl board
  | succ bound ih =>
    intro p board ticks
    have hstep : board.Fixed (p.step board).bus := board.fixed_command p .step
    have hpolled : board.Fixed
        { (p.step board).bus with control := (p.step board).bus.control.poll.2 } :=
      ⟨⟨hstep.bios, hstep.rom⟩, hstep.dma⟩
    rw [runInstructions_succ]
    simp only
    split_ifs
    · exact hstep
    · exact hpolled
    · exact hpolled.trans (ih _ _ _)

variable (m : Machine P)

theorem installed_settle (dma : Dma) (ticks : Int) : m.Installed (m.settle dma ticks) := by
  cases he : Ticks.elapsed ticks with
  | none =>
    rw [settle_of_none m dma he]
    exact .refl m
  | some passed =>
    rw [settle_of_elapsed m dma he]
    exact ⟨rfl, rfl, rfl, rfl, rfl⟩

theorem installed_sync (ticks : Int) : m.Installed (m.sync ticks) := by
  rw [sync_eq]
  exact m.installed_settle _ ticks

theorem installed_runProcessor : m.Installed m.runProcessor := by
  have hshare : m.Installed
      { m with processor := m.share.2.1, board := m.share.2.2, carried := 0 } :=
    .of_fixed (fixed_runInstructions _ _ _ _ _) rfl rfl
  rw [runProcessor_eq]
  exact hshare.trans (installed_sync _ _)

theorem installed_runHalted : m.Installed m.runHalted :=
  (show m.Installed { m with carried := 0 } from ⟨rfl, rfl, rfl, rfl, rfl⟩).trans
    (installed_sync _ _)

theorem installed_beforeDrain : m.Installed m.beforeDrain := by
  have hpolled : m.Installed m.pollKeypad := ⟨rfl, rfl, rfl, rfl, rfl⟩
  unfold beforeDrain
  split_ifs
  · exact hpolled.trans (installed_runProcessor _)
  · exact hpolled.trans (installed_runHalted _)

theorem installed_runSlice (dma : Dma) (limit : Int32) :
    m.Installed (m.runSlice dma limit).2 := by
  have hfixed := Board.fixed_runProgram (dma.transfer limit) m.board
  exact ⟨hfixed.bios, hfixed.rom, hfixed.dma, rfl, rfl⟩

theorem installed_slices (n : Nat) :
    ∀ d : Draining P, d.machine.Installed (Draining.slice^[n] d).machine := by
  induction n with
  | zero => exact fun d => .refl d.machine
  | succ n ih =>
    intro d
    have hslice : d.machine.Installed d.slice.machine := by
      have hone := d.machine.installed_runSlice d.dma d.next
      unfold Draining.slice
      simp only
      split_ifs
      · exact hone.trans (installed_settle _ d.dma d.due)
      · exact hone
    exact hslice.trans (ih d.slice)

/-- While a drain is under way the slot is vacant. -/
theorem vacant_slices (n : Nat) :
    (Draining.slice^[n] (.start m)).machine.board.dma = .vacant :=
  (installed_slices n (.start m)).dma

/-- At its end the controller is back, though a transfer made no progress. -/
theorem installed_drain {m m' : Machine P} {transfers : Nat} (h : m.drain transfers = some m') :
    m.Installed m' := by
  obtain ⟨n, -, -, rfl⟩ := drain_eq_some h
  have hslices := installed_slices n (.start m)
  have hrested : (Draining.slice^[n] (.start m)).machine.Installed
      (Draining.slice^[n] (.start m)).rested := by
    unfold Draining.rested
    split_ifs
    · exact installed_runSlice _ _ _
    · exact .refl _
  have hsettled := (hslices.trans hrested).trans
    (installed_settle _ (Draining.slice^[n] (.start m)).dma (Draining.slice^[n] (.start m)).owed)
  exact ⟨hsettled.bios, hsettled.rom, Draining.dma_slices n (.start m), hsettled.header,
    hsettled.boot⟩

theorem installed_takeInterrupt : m.Installed m.takeInterrupt := by
  have hfixed := Board.fixed_command { m.board with control := m.board.control.poll.2 }
    m.processor .requestInterrupt
  unfold takeInterrupt
  simp only
  split_ifs
  · exact .of_fixed ⟨⟨hfixed.bios, hfixed.rom⟩, hfixed.dma⟩ rfl rfl
  · exact ⟨rfl, rfl, rfl, rfl, rfl⟩

/-! ## Batches -/

theorem installed_runBatch {m m' : Machine P} {transfers ticks : Nat}
    (h : m.runBatch transfers = some (ticks, m')) : m.Installed m' := by
  by_cases hp : m.pollKeypad.board.control.power = .stopped
  · rw [runBatch_stopped transfers hp] at h
    cases h
    exact ⟨rfl, rfl, rfl, rfl, rfl⟩
  · rw [runBatch_eq hp] at h
    obtain ⟨m₁, hd, he⟩ := Option.map_eq_some_iff.mp h
    cases he
    exact (m.installed_beforeDrain.trans (installed_drain hd)).trans (installed_takeInterrupt m₁)

theorem installed_runTicks (target transfers bound : Nat) :
    ∀ {m m' : Machine P} {passed ticks : Nat},
      runTicks target transfers bound passed m = some (ticks, m') → m.Installed m' := by
  induction bound with
  | zero =>
    intro m m' passed ticks h
    cases h
    exact .refl m
  | succ bound ih =>
    intro m m' passed ticks h
    unfold runTicks at h
    split_ifs at h
    · cases hb : m.runBatch transfers with
      | none => rw [hb] at h; cases h
      | some result =>
        rw [hb] at h
        exact (installed_runBatch hb).trans (ih h)
    · cases h
      exact .refl m

theorem installed_runBatches (batches : List (UInt16 × Nat)) :
    ∀ {m m' : Machine P} {tally tally' : Tally},
      m.runBatches batches tally = some (tally', m') → m.Installed m' := by
  induction batches with
  | nil =>
    intro m m' tally tally' h
    cases h
    exact .refl m
  | cons batch rest ih =>
    intro m m' tally tally' h
    rcases batch with ⟨buttons, transfers⟩
    unfold runBatches at h
    cases hb : (m.hold buttons).runBatch transfers with
    | none => rw [hb] at h; cases h
    | some result =>
      rw [hb] at h
      have hheld : m.Installed (m.hold buttons) := ⟨rfl, rfl, rfl, rfl, rfl⟩
      exact (hheld.trans (installed_runBatch hb)).trans (ih h)

theorem installed_reset : m.Installed m.reset := by
  have hcleared : m.board.Fixed m.board.reset := ⟨⟨rfl, rfl⟩, rfl⟩
  have hmarked : m.board.Fixed (m.board.reset.writeAt Control.postBootAddress 1 .byte).2 :=
    m.board.keeps_fixed.write hcleared Control.postBootAddress 1 .byte
  unfold reset
  cases hb : m.boot with
  | bios =>
    exact .of_fixed (hcleared.trans (Board.fixed_command _ m.processor .reset)) rfl hb.symm
  | direct =>
    exact .of_fixed (hmarked.trans (Board.fixed_command _ m.processor .bootDirect)) rfl hb.symm

end Machine

end Handheld
