import Handheld.Proofs.Machine.Board
import Handheld.Proofs.Machine.ByteLanes

/-!
# Words on a narrow bus

Large work RAM, the palette, video memory and the cartridge hang on buses of 16 bits, on which a
word is moved in two halfwords.

1. `Halves` is a cost that goes by halfwords. So do those of work RAM and of video memory, which are
   the same everywhere (`inHalfwords`), and those of the cartridge, whether it prefetches or not
   (`halves_romWait`, `Board.halves_cartridgeReadWait`).
2. `Control.Narrow` are the addresses with a narrow bus, and `word_costs_halfwords` says that every
   access to them costs its halfwords, whatever the registers hold.
-/

namespace Handheld

/-! ## Costs by halfwords -/

/-- At an address, a word costs what its two halfwords cost, the second of which follows on. At the
beginning of 128K no access follows on. A byte costs what a halfword costs. -/
structure Halves (wait : Word → Width → Timing) (address : Word) : Prop where
  nonseq : (wait address .word).nonseq.toNat =
    (wait address .halfword).nonseq.toNat + (wait (address + 2) .halfword).seq.toNat
  seq : (wait address .word).seq.toNat =
    (wait address .halfword).seq.toNat + (wait (address + 2) .halfword).seq.toNat
  block : address.toNat % 0x20000 = 0 →
    (wait address .halfword).seq = (wait address .halfword).nonseq
  byte : wait address .byte = wait address .halfword
  byte_high : wait (address + 2) .byte = wait (address + 2) .halfword

/-- The cost of a width where a halfword has a given cost. -/
def inHalfwords (half : Timing) : Width → Timing
  | .word => ⟨half.nonseq + half.seq, half.seq + half.seq⟩
  | _ => half

theorem halves_uniform {cycles : UInt32} (h : Cost.Within 1 16 cycles) (address : Word) :
    Halves (fun _ => inHalfwords (Timing.uniform cycles)) address where
  nonseq := h.toNat_add h (by decide)
  seq := h.toNat_add h (by decide)
  block _ := rfl
  byte := rfl
  byte_high := rfl

theorem Halves.congr {wait other : Word → Width → Timing} {address : Word} (h : Halves wait address)
    (hlow : ∀ width, other address width = wait address width)
    (hhigh : ∀ width, width ≠ .word → other (address + 2) width = wait (address + 2) width) :
    Halves other address where
  nonseq := by
    rw [hlow, hlow, hhigh _ (by decide)]
    exact h.nonseq
  seq := by
    rw [hlow, hlow, hhigh _ (by decide)]
    exact h.seq
  block hblock := by
    rw [hlow]
    exact h.block hblock
  byte := by
    rw [hlow, hlow]
    exact h.byte
  byte_high := by
    rw [hhigh _ (by decide), hhigh _ (by decide)]
    exact h.byte_high

section Aligned

variable {address : Word} (h : address % 4 = 0)
include h

theorem mod_four : address.toNat % 4 = 0 :=
  (@Width.mod_bytes_iff .word address).mp h

theorem toNat_high : (address + 2).toNat = address.toNat + 2 := by
  have hlt := address.toNat_lt
  have hmod := mod_four h
  rw [UInt32.toNat_add]
  show (address.toNat + 2) % 2 ^ 32 = _
  omega

/-- An aligned word begins with an aligned halfword and an aligned byte. -/
theorem align_low (width : Width) : width.align address = address := by
  have hmod := mod_four h
  refine Width.align_of_mod (Width.mod_bytes_iff.mpr ?_)
  cases width with
  | byte => exact Nat.mod_one _
  | halfword =>
    show address.toNat % 2 = 0
    omega
  | word => exact hmod

/-- So does its second half. -/
theorem align_high {width : Width} (hwidth : width ≠ .word) :
    width.align (address + 2) = address + 2 := by
  have hmod := mod_four h
  refine Width.align_of_mod (Width.mod_bytes_iff.mpr ?_)
  rw [toNat_high h]
  cases width with
  | byte => exact Nat.mod_one _
  | halfword =>
    show (address.toNat + 2) % 2 = 0
    omega
  | word => exact absurd rfl hwidth

theorem region_high : (address + 2) >>> 24 = address >>> 24 := by
  have hmod := mod_four h
  rw [← UInt32.toNat_inj, toNat_shiftRight 24 rfl, toNat_shiftRight 24 rfl, toNat_high h]
  omega

/-- No word lies across two windows of the cartridge. -/
theorem windowWait_high (control : Control) :
    control.windowWait (address + 2) = control.windowWait address := by
  have hmod := mod_four h
  have hside (bound : Word) (hbound : bound.toNat % 4 = 0) :
      (address + 2 < bound) = (address < bound) := by
    rw [UInt32.lt_iff_toNat_lt, UInt32.lt_iff_toNat_lt, toNat_high h]
    exact propext ⟨fun hlt => by omega, fun hlt => by omega⟩
  unfold Control.windowWait
  simp only [hside 0x0A000000 (by decide), hside 0x0C000000 (by decide)]

omit h in
theorem block_iff (address : Word) : address &&& 0x0001FFFF = 0 ↔ address.toNat % 0x20000 = 0 := by
  have hand : (address &&& 0x0001FFFF).toNat = address.toNat % 0x20000 := by
    rw [UInt32.toNat_and]
    exact Nat.and_two_pow_sub_one_eq_mod address.toNat 17
  rw [← UInt32.toNat_inj, hand, UInt32.toNat_zero]

omit h in
theorem romWait_eq (control : Control) (address : Word) (width : Width) :
    control.romWait address width =
      if width.align address &&& 0x0001FFFF = 0 then
        Timing.uniform (inHalfwords (control.windowWait (width.align address)) width).nonseq
      else inHalfwords (control.windowWait (width.align address)) width := by
  cases width <;> rfl

/-- The second half of a word follows on, also where the first does not. -/
theorem romWait_high (control : Control) {width : Width} (hwidth : width ≠ .word) :
    control.romWait (address + 2) width = control.windowWait address := by
  have hmod := mod_four h
  have hblock : ¬ (address + 2) &&& 0x0001FFFF = 0 := by
    rw [block_iff, toNat_high h]
    omega
  rw [romWait_eq, align_high h hwidth, if_neg hblock, windowWait_high h]
  cases width with
  | word => exact absurd rfl hwidth
  | _ => rfl

theorem halves_romWait (control : Control) : Halves control.romWait address := by
  have hhalf : control.romWait (address + 2) .halfword = control.windowWait address :=
    romWait_high h control (by decide)
  have hbyte : control.romWait (address + 2) .byte = control.windowWait address :=
    romWait_high h control (by decide)
  have hwindow := control.windowWait_within address
  have hnonseq := hwindow.nonseq.toNat_add hwindow.seq (by decide)
  have hseq := hwindow.seq.toNat_add hwindow.seq (by decide)
  by_cases hblock : address &&& 0x0001FFFF = 0
  · have hlow (width : Width) : control.romWait address width =
        Timing.uniform (inHalfwords (control.windowWait address) width).nonseq := by
      rw [romWait_eq, align_low h, if_pos hblock]
    refine ⟨?_, ?_, fun _ => ?_, ?_, hbyte.trans hhalf.symm⟩
    · rw [hlow, hlow, hhalf]
      exact hnonseq
    · rw [hlow, hlow, hhalf]
      exact hnonseq
    · rw [hlow]
      rfl
    · rw [hlow, hlow]
      rfl
  · have hlow (width : Width) :
        control.romWait address width = inHalfwords (control.windowWait address) width := by
      rw [romWait_eq, align_low h, if_neg hblock]
    refine ⟨?_, ?_, fun hb => absurd ((block_iff address).mpr hb) hblock, ?_,
      hbyte.trans hhalf.symm⟩
    · rw [hlow, hlow, hhalf]
      exact hnonseq
    · rw [hlow, hlow, hhalf]
      exact hseq
    · rw [hlow, hlow]
      rfl

end Aligned

/-! ## The narrow buses -/

theorem Control.largeRamWait_eq (control : Control) :
    control.largeRamWait =
      inHalfwords (Timing.uniform (16 - field control.memoryControl 24 0xF)) := by
  funext width
  cases width with
  | word => exact congrArg Timing.uniform UInt32.two_mul
  | _ => rfl

namespace Board

theorem videoWait_eq {address : Word} (h : address >>> 24 ≠ 0x07) :
    videoWait address = inHalfwords Timing.single := by
  funext width
  unfold videoWait
  rw [if_neg h]
  cases width <;> rfl

/-- An access to the cartridge; opcodes that it prefetched are ready. -/
theorem halves_cartridgeReadWait {address : Word} (h : address % 4 = 0) (control : Control)
    (opcode : Bool) : Halves (cartridgeReadWait control opcode) address := by
  cases hready : opcode && control.prefetchEnabled with
  | false =>
    have hwait (a : Word) (width : Width) :
        cartridgeReadWait control opcode a width = control.romWait a width := by
      unfold cartridgeReadWait
      rw [hready]
      rfl
    exact (halves_romWait h control).congr (hwait _) fun width _ => hwait _ width
  | true =>
    have hwait (a : Word) (width : Width) :
        cartridgeReadWait control opcode a width = inHalfwords Timing.single width := by
      unfold cartridgeReadWait
      rw [hready]
      cases width <;> rfl
    exact (halves_uniform ⟨by decide, by decide⟩ address).congr (hwait _)
      fun width _ => hwait _ width

end Board

/-! ## Accesses -/

/-- An access over the bus. -/
inductive Transaction
  | read
  | fetch
  | write (value : Word)
  deriving DecidableEq

/-- An address with a narrow bus. -/
def Control.Narrow (control : Control) (address : Word) : Prop :=
  ((address >>> 24).toNat = 0x02 ∧ control.ramEnabled = true ∧ control.largeRamEnabled = true) ∨
    (0x05 ≤ (address >>> 24).toNat ∧ (address >>> 24).toNat ≤ 0x06) ∨
    (0x08 ≤ (address >>> 24).toNat ∧ (address >>> 24).toNat ≤ 0x0D)

namespace Board

variable {P : Type} [Peripherals P]

/-- What an access costs. -/
def cost (board : Board P) (transaction : Transaction) (address : Word) (width : Width) : Timing :=
  match transaction with
  | .read => (Bus.read board address width).1.timing
  | .fetch => (Bus.fetch board address width).1.timing
  | .write value => (Bus.write board address value width).1

/-- The cost of an access to the cartridge. -/
def cartridgeWait (control : Control) (transaction : Transaction) : Word → Width → Timing :=
  match transaction with
  | .read => cartridgeReadWait control false
  | .fetch => cartridgeReadWait control true
  | .write _ => control.romWait

theorem halves_cartridgeWait {address : Word} (h : address % 4 = 0) (control : Control)
    (transaction : Transaction) : Halves (cartridgeWait control transaction) address := by
  cases transaction with
  | read => exact halves_cartridgeReadWait h control false
  | fetch => exact halves_cartridgeReadWait h control true
  | write value => exact halves_romWait h control

/-- The cost of an access by the place that it goes to. -/
def placeWait (control : Control) (transaction : Transaction) (base : Word) (width : Width) :
    Place → Timing
  | .large _ => control.largeRamWait width
  | .video => videoWait base width
  | .cartridge _ => cartridgeWait control transaction base width
  | .backup => control.backupWait
  | .bios _ | .small _ | .registers | .nothing => Timing.single

/-- What an access costs is decided by the control block and its address alone. -/
theorem cost_eq (board : Board P) (transaction : Transaction) (address : Word) (width : Width) :
    board.cost transaction address width =
      placeWait board.control transaction (width.align address) width
        (board.control.place (width.align address)) := by
  cases transaction with
  | write value =>
    show (board.writeAt address value width).1 = _
    unfold writeAt
    simp only
    cases board.control.place (width.align address) <;> rfl
  | _ =>
    show (board.readAt _ address width).1.timing = _
    unfold readAt
    simp only
    cases board.control.place (width.align address) <;> rfl

end Board

/-! ## Places with a narrow bus -/

theorem Control.narrow_cases {control : Control} {address : Word} (h : control.Narrow address) :
    (∃ offset, control.place address = .large offset) ∨
      (control.place address = .video ∧ address >>> 24 ≠ 0x07) ∨
      ∃ offset, control.place address = .cartridge offset := by
  unfold place
  rcases h with ⟨hregion, hram, hlarge⟩ | ⟨hle, hge⟩ | ⟨hle, hge⟩
  · left
    rw [hregion]
    refine ⟨(address &&& 0x3FFFF).toNat, ?_⟩
    simp only [ramPlace, hram, hlarge]
    rfl
  · right
    left
    rw [ne_eq, ← UInt32.toNat_inj]
    generalize (address >>> 24).toNat = region at hle hge ⊢
    interval_cases region <;> exact ⟨rfl, by decide⟩
  · right
    right
    generalize (address >>> 24).toNat = region at hle hge ⊢
    interval_cases region <;> exact ⟨_, rfl⟩

/-- **On a narrow bus a word costs its two halfwords.** Whatever the registers hold, any read, write
or opcode fetch of an aligned word in large work RAM, the palette, video memory or the cartridge,
whether this prefetches or not, costs at a new address what its first halfword costs there and its
second one following on, and following on what both cost so. At the beginning of 128K a halfword
costs the same either way, and a byte always costs what a halfword costs. -/
theorem word_costs_halfwords {P : Type} [Peripherals P] (board : Board P)
    (transaction : Transaction) (address : Word) (h : address % 4 = 0)
    (hnarrow : board.control.Narrow address) : Halves (board.cost transaction) address := by
  have hnext : board.control.place (address + 2) = (board.control.place address).lane 2 := by
    have hlane := @Control.place_lane .word address 2 (by decide) board.control
    rw [align_low h] at hlane
    exact hlane
  have hlow (width : Width) : board.cost transaction address width =
      Board.placeWait board.control transaction address width (board.control.place address) := by
    rw [Board.cost_eq, align_low h]
  have hhigh (width : Width) (hwidth : width ≠ .word) :
      board.cost transaction (address + 2) width =
        Board.placeWait board.control transaction (address + 2) width
          ((board.control.place address).lane 2) := by
    rw [Board.cost_eq, align_high h hwidth, hnext]
  rcases Control.narrow_cases hnarrow with ⟨offset, hplace⟩ | ⟨hplace, hvideo⟩ | ⟨offset, hplace⟩
  · rw [hplace] at hlow hhigh
    have hwait := congrFun board.control.largeRamWait_eq
    exact (halves_uniform board.control.largeRamHalf_within address).congr
      (fun width => (hlow width).trans (hwait width))
      fun width hwidth => (hhigh width hwidth).trans (hwait width)
  · rw [hplace] at hlow hhigh
    have hvideo_high : (address + 2) >>> 24 ≠ 0x07 := by
      rw [region_high h]
      exact hvideo
    have hwait := congrFun (Board.videoWait_eq hvideo)
    have hwait_high := congrFun (Board.videoWait_eq hvideo_high)
    exact (halves_uniform ⟨by decide, by decide⟩ address).congr
      (fun width => (hlow width).trans (hwait width))
      fun width hwidth => (hhigh width hwidth).trans (hwait_high width)
  · rw [hplace] at hlow hhigh
    exact (Board.halves_cartridgeWait h board.control transaction).congr hlow hhigh

/-- A cartridge at the beginning of its second block, and the last word before it. -/
theorem word_costs_halfwords_blank :
    let block : Word := 0x08020000
    Halves (Board.blank.cost .read) block ∧ Halves (Board.blank.cost .fetch) (block - 4) ∧
      Board.blank.cost .read block .word = ⟨8, 8⟩ ∧
      Board.blank.cost .read block .halfword = ⟨5, 5⟩ ∧
      Board.blank.cost .read (block + 2) .halfword = ⟨5, 3⟩ ∧
      Board.blank.cost .read (block - 4) .word = ⟨8, 6⟩ := by
  intro block
  refine ⟨word_costs_halfwords Board.blank .read block (by decide) (Or.inr (Or.inr (by decide))),
    word_costs_halfwords Board.blank .fetch (block - 4) (by decide) (Or.inr (Or.inr (by decide))),
    ?_⟩
  decide +kernel

end Handheld
