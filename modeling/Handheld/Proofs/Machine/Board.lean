import Handheld.Machine.Board
import Handheld.Proofs.Processor.Cost

/-!
# The board as a bus

The wait states of the board's registers are small numbers and never zero, so every access is cheap
and none is free.

1. `windowWait_within`, `romWait_within` and `largeRamWait_within` bound the costs that registers
   set.
2. `Board.bounded` bounds every access to the board, whatever is plugged into it.
-/

namespace Handheld

theorem Timing.Within.mono {low limit bound : Nat} {timing : Timing} (h : timing.Within low limit)
    (hb : limit ≤ bound) : timing.Within low bound :=
  ⟨h.nonseq.mono hb, h.seq.mono hb⟩

theorem Timing.uniform_within {cycles : UInt32} {low limit : Nat}
    (h : Cost.Within low limit cycles) : (Timing.uniform cycles).Within low limit := ⟨h, h⟩

theorem Timing.single_within {limit : Nat} (h : 1 ≤ limit) : Timing.single.Within 1 limit :=
  uniform_within ⟨le_rfl, h⟩

/-- Small costs add up as numbers do. -/
theorem Cost.Within.toNat_add {a b : UInt32} {limit bound : Nat} (ha : Within 1 limit a)
    (hb : Within 1 bound b) (h : limit + bound < 2 ^ 32) :
    (a + b).toNat = a.toNat + b.toNat := by
  have hlimit := ha.2
  have hbound := hb.2
  rw [UInt32.toNat_add]
  omega

theorem Cost.Within.add {a b : UInt32} {limit bound : Nat} (ha : Within 1 limit a)
    (hb : Within 1 bound b) (h : limit + bound < 2 ^ 32) : Within 1 (limit + bound) (a + b) := by
  rw [Within, ha.toNat_add hb h]
  exact ⟨ha.1.trans (Nat.le_add_right ..), Nat.add_le_add ha.2 hb.2⟩

namespace Control

/-! ## Wait states -/

theorem firstAccess_within (code : UInt16) : Cost.Within 1 9 (firstAccess code) := by
  unfold firstAccess
  split <;> exact ⟨by decide, by decide⟩

theorem secondAccess_within (code : UInt16) {slow : UInt32} (h : Cost.Within 1 9 slow) :
    Cost.Within 1 9 (secondAccess code slow) := by
  unfold secondAccess
  split
  · exact h
  · exact ⟨by decide, by decide⟩

theorem windowWait_within (control : Control) (address : Word) :
    (control.windowWait address).Within 1 9 := by
  unfold windowWait
  extract_lets wait
  split_ifs
  · exact ⟨firstAccess_within _, secondAccess_within _ ⟨by decide, by decide⟩⟩
  · exact ⟨firstAccess_within _, secondAccess_within _ ⟨by decide, by decide⟩⟩
  · exact ⟨firstAccess_within _, secondAccess_within _ ⟨by decide, by decide⟩⟩

/-- A word from the cartridge takes two halfwords. -/
theorem romWait_within (control : Control) (address : Word) (width : Width) :
    (control.romWait address width).Within 1 18 := by
  unfold romWait
  extract_lets base half timing
  have hh : half.Within 1 9 := control.windowWait_within base
  have ht : timing.Within 1 18 := by
    cases width with
    | word => exact ⟨hh.nonseq.add hh.seq (by decide), hh.seq.add hh.seq (by decide)⟩
    | _ => exact hh.mono (by decide)
  split
  · exact ⟨ht.nonseq, ht.nonseq⟩
  · exact ht

theorem backupWait_within (control : Control) : control.backupWait.Within 1 9 :=
  Timing.uniform_within (firstAccess_within _)

/-- The wait of large work RAM is sixteen less four bits, so it is never zero. -/
theorem largeRamHalf_within (control : Control) :
    Cost.Within 1 16 (16 - field control.memoryControl 24 0xF) := by
  have hf : (field control.memoryControl 24 0xF).toNat ≤ 0xF := toNat_and_le ..
  rw [Cost.Within, UInt32.toNat_sub_of_le _ _ (UInt32.le_iff_toNat_le.mpr (hf.trans (by decide)))]
  show 1 ≤ 16 - _ ∧ 16 - _ ≤ 16
  omega

theorem largeRamWait_within (control : Control) (width : Width) :
    (control.largeRamWait width).Within 1 32 := by
  unfold largeRamWait
  extract_lets half
  have hh : Cost.Within 1 16 half := control.largeRamHalf_within
  cases width with
  | word =>
    have htwo : 2 * half = half + half := UInt32.two_mul
    simp only [htwo]
    exact Timing.uniform_within (hh.add hh (by decide))
  | _ => exact Timing.uniform_within (hh.mono (by decide))

end Control

namespace Board

theorem videoWait_within (address : Word) (width : Width) :
    (videoWait address width).Within 1 2 := by
  unfold videoWait
  split
  · exact Timing.single_within (by decide)
  · cases width with
    | word => exact Timing.uniform_within ⟨by decide, by decide⟩
    | _ => exact Timing.single_within (by decide)

theorem cartridgeReadWait_within (control : Control) (opcode : Bool) (address : Word)
    (width : Width) : (cartridgeReadWait control opcode address width).Within 1 18 := by
  unfold cartridgeReadWait
  split
  · cases width with
    | word => exact Timing.uniform_within ⟨by decide, by decide⟩
    | _ => exact Timing.single_within (by decide)
  · exact control.romWait_within address width

/-! ## Accesses -/

variable {P : Type} [Peripherals P]

theorem readAt_within (board : Board P) (opcode : Bool) (address : Word) (width : Width) :
    (board.readAt opcode address width).1.timing.Within 1 32 := by
  unfold readAt
  extract_lets base
  have hs : Timing.single.Within 1 32 := Timing.single_within (by decide)
  split
  · exact hs
  · exact board.control.largeRamWait_within width
  · exact hs
  · exact hs
  · exact (videoWait_within base width).mono (by decide)
  · exact (cartridgeReadWait_within board.control opcode base width).mono (by decide)
  · exact board.control.backupWait_within.mono (by decide)
  · exact hs

theorem writeAt_within (board : Board P) (address value : Word) (width : Width) :
    (board.writeAt address value width).1.Within 1 32 := by
  unfold writeAt
  extract_lets base
  have hs : Timing.single.Within 1 32 := Timing.single_within (by decide)
  split
  · exact board.control.largeRamWait_within width
  · exact hs
  · exact hs
  · exact (videoWait_within base width).mono (by decide)
  · exact (board.control.romWait_within base width).mono (by decide)
  · exact board.control.backupWait_within.mono (by decide)
  · exact hs
  · exact hs

/-- No access is free, and the slowest is that of a word in large work RAM. -/
theorem bounded : Bounded (Board P) 1 32 where
  read board := board.readAt_within false
  write := writeAt_within
  fetch board := board.readAt_within true
  fits := by decide

end Board

end Handheld
