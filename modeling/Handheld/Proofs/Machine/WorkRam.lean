import Mathlib.Data.List.Find
import Handheld.Proofs.History
import Handheld.Proofs.Machine.Unchanged

/-!
# Work RAM

Work RAM is two memories of bytes, and memory control decides at which addresses they show. Each
byte holds what was last stored in it, whatever is switched in the meantime.

1. `Control.cell?` is the byte of work RAM that an address shows, and `cell?_lane_eq_some_iff`
   follows it through the lanes of an access.
2. `ram_writeAt` is the one access that changes work RAM. `sameRam_readAt` and `sameRam_writeAt` are
   those that keep it.
3. `Operation` is what is done to a board, and `holds_perform` says what that stores in a cell.
4. `workRam_remembers` carries this over to runs.
-/

namespace Handheld

/-! ## Cells -/

/-- A work RAM of the board. -/
inductive Ram
  | large
  | small
  deriving DecidableEq

/-- The number of its bytes. -/
def Ram.size : Ram → Nat
  | large => largeSize
  | small => smallSize

/-- The place of an offset into it. -/
def Ram.place : Ram → Nat → Place
  | large, offset => .large offset
  | small, offset => .small offset

theorem Ram.size_pos (ram : Ram) : 0 < ram.size := by
  cases ram <;> decide

/-- A byte of work RAM. -/
structure Cell where
  ram : Ram
  offset : Fin ram.size
  deriving DecidableEq

/-- The byte of a work RAM at an address: the RAM repeats throughout its regions. -/
def Cell.ofAddress (ram : Ram) (address : Word) : Cell :=
  ⟨ram, ⟨address.toNat % ram.size, Nat.mod_lt _ ram.size_pos⟩⟩

namespace Control

/-- The work RAM that shows at an address. -/
def ramAt? (control : Control) (address : Word) : Option Ram :=
  match (address >>> 24).toNat with
  | 0x02 =>
    if control.ramEnabled then some (if control.largeRamEnabled then .large else .small) else none
  | 0x03 => if control.ramEnabled then some .small else none
  | _ => none

/-- The byte of work RAM that shows at an address. -/
def cell? (control : Control) (address : Word) : Option Cell :=
  (control.ramAt? address).map (Cell.ofAddress · address)

end Control

/-! ## Lanes -/

namespace Width

/-- Alignment keeps the bits that it does not clear. -/
theorem align_shiftRight {width : Width} (address : Word) {shift : Word}
    (h : (~~~(width.bytes - 1)) >>> shift = (-1) >>> shift) :
    width.align address >>> shift = address >>> shift := by
  rw [align, UInt32.shiftRight_and, h, ← UInt32.shiftRight_and, UInt32.and_neg_one]

theorem region_align (width : Width) (address : Word) :
    width.align address >>> 24 = address >>> 24 :=
  align_shiftRight address (by cases width <;> decide)

theorem lanes_dvd_size (width : Width) (ram : Ram) : width.lanes ∣ ram.size := by
  cases width <;> cases ram <;> decide

variable {width : Width} {address : Word} {index : Nat} (h : index < width.lanes)
include h

/-- The lanes of an access lie in one region. -/
theorem region_align_add :
    (width.align address + UInt32.ofNat index) >>> 24 = width.align address >>> 24 := by
  have hdvd : width.lanes ∣ 2 ^ 24 := by cases width <;> decide
  have hmod := add_lane_mod (width.lanes_dvd_align address) hdvd (by decide) h
  apply UInt32.toNat_inj.mp
  rw [toNat_shiftRight 24 rfl, toNat_shiftRight 24 rfl, toNat_align_add h]
  omega

end Width

namespace Control

variable {control : Control} {width : Width} {address : Word} {cell : Cell}

theorem ramAt?_of_region {other : Word} (h : other >>> 24 = address >>> 24) :
    control.ramAt? other = control.ramAt? address := by
  unfold ramAt?
  rw [h]

theorem cell?_eq_none_iff : control.cell? address = none ↔ control.ramAt? address = none :=
  Option.map_eq_none_iff

/-- The lanes of an access lie one after the other in one work RAM. -/
theorem cell?_lane_eq_some_iff {index : Nat} (h : index < width.lanes) :
    control.cell? (width.align address + UInt32.ofNat index) = some cell ↔
      control.ramAt? (width.align address) = some cell.ram ∧
        (width.align address).toNat % cell.ram.size + index = cell.offset := by
  have hofs (ram : Ram) : (width.align address + UInt32.ofNat index).toNat % ram.size =
      (width.align address).toNat % ram.size + index := by
    rw [Width.toNat_align_add h]
    exact Width.add_lane_mod (width.lanes_dvd_align address) (width.lanes_dvd_size ram)
      ram.size_pos h
  unfold cell?
  rw [ramAt?_of_region (Width.region_align_add h), Option.map_eq_some_iff]
  constructor
  · rintro ⟨ram, hram, rfl⟩
    exact ⟨hram, (hofs ram).symm⟩
  · rintro ⟨hram, hoffset⟩
    refine ⟨cell.ram, hram, ?_⟩
    have hfin : (Cell.ofAddress cell.ram (width.align address + UInt32.ofNat index)).offset =
        cell.offset := Fin.ext ((hofs cell.ram).trans hoffset)
    exact congrArg (Cell.mk cell.ram) hfin

/-! ## Places -/

/-- What is in a work RAM is found where its address is, modulo its size. -/
theorem place_of_ramAt? {ram : Ram} (h : control.ramAt? address = some ram) :
    control.place address = ram.place (address.toNat % ram.size) := by
  have hlarge : (address &&& 0x3FFFF).toNat = address.toNat % largeSize :=
    (UInt32.toNat_and ..).trans (Nat.and_two_pow_sub_one_eq_mod address.toNat 18)
  have hsmall : (address &&& 0x7FFF).toNat = address.toNat % smallSize :=
    (UInt32.toNat_and ..).trans (Nat.and_two_pow_sub_one_eq_mod address.toNat 15)
  unfold ramAt? at h
  split at h
  · rename_i hregion
    unfold place
    rw [hregion]
    simp only [ramPlace, hlarge, hsmall]
    split_ifs at h with hram hboth <;> cases h
    · rw [hram, hboth]
      rfl
    · rw [hram, Bool.eq_false_iff.mpr hboth]
      rfl
  · rename_i hregion
    unfold place
    rw [hregion]
    simp only [ramPlace, hlarge, hsmall]
    split_ifs at h with hram
    cases h
    rw [hram]
    rfl
  · cases h

/-- Whether something other than work RAM answers at an address: boot memory, a register, video
memory, or the cartridge with its backup. -/
def Answered (address : Word) : Prop :=
  address.toNat < biosSize ∨ 0x04 ≤ (address >>> 24).toNat ∧ (address >>> 24).toNat ≤ 0x0F

/-- Whether an address is that of a device, which may take note of an access: a register, video
memory or the cartridge backup. -/
def Device (address : Word) : Prop :=
  0x04 ≤ (address >>> 24).toNat ∧ (address >>> 24).toNat ≤ 0x07 ∨
    0x0E ≤ (address >>> 24).toNat ∧ (address >>> 24).toNat ≤ 0x0F

instance : DecidablePred Answered := fun address =>
  inferInstanceAs (Decidable (address.toNat < biosSize ∨
    0x04 ≤ (address >>> 24).toNat ∧ (address >>> 24).toNat ≤ 0x0F))

instance : DecidablePred Device := fun address =>
  inferInstanceAs (Decidable (0x04 ≤ (address >>> 24).toNat ∧ (address >>> 24).toNat ≤ 0x07 ∨
    0x0E ≤ (address >>> 24).toNat ∧ (address >>> 24).toNat ≤ 0x0F))

theorem Device.answered (h : Device address) : Answered address := by
  unfold Device at h
  exact .inr (by omega)

theorem device_align : Device (width.align address) ↔ Device address := by
  unfold Device
  rw [width.region_align]

/-- The boot memory ends at a multiple of every width. -/
theorem answered_align : Answered (width.align address) ↔ Answered address := by
  have hbios (other : Word) : other.toNat < biosSize ↔ (other >>> 14).toNat = 0 := by
    rw [toNat_shiftRight 14 rfl]
    unfold biosSize
    omega
  unfold Answered
  rw [width.region_align, hbios, hbios, Width.align_shiftRight address (by cases width <;> decide)]

/-- Where no work RAM shows, an access goes to an image, to a device or nowhere. -/
theorem place_cases (h : control.ramAt? address = none) :
    control.place address = .nothing ∨
      Answered address ∧ ((∃ offset, control.place address = .bios offset) ∨
        ∃ offset, control.place address = .cartridge offset) ∨
      Device address ∧ (control.place address = .registers ∨ control.place address = .video ∨
        control.place address = .backup) := by
  have hoff (large : Bool) (hram : ¬ control.ramEnabled = true) :
      control.ramPlace large address = .nothing := by
    unfold ramPlace
    rw [Bool.eq_false_iff.mpr hram]
    rfl
  generalize hregion : (address >>> 24).toNat = region at *
  unfold ramAt? at h
  unfold place Answered Device
  rw [hregion] at h ⊢
  split
  · split_ifs with hbios
    · exact .inr (.inl ⟨.inl hbios, .inl ⟨_, rfl⟩⟩)
    · exact .inl rfl
  · split_ifs at h with hram
    exact .inl (hoff true hram)
  · split_ifs at h with hram
    exact .inl (hoff false hram)
  · exact .inr (.inr ⟨by decide, .inl rfl⟩)
  -- Three regions of video memory, six of the cartridge and two of its backup.
  iterate 3 exact .inr (.inr ⟨by decide, .inr (.inl rfl)⟩)
  iterate 6 exact .inr (.inl ⟨.inr (by decide), .inr ⟨_, rfl⟩⟩)
  iterate 2 exact .inr (.inr ⟨by decide, .inr (.inr rfl)⟩)
  exact .inl rfl

end Control

/-! ## Accesses -/

namespace Board

variable {P : Type}

/-- A work RAM of the board. -/
def ram (board : Board P) : (ram : Ram) → Memory ram.size
  | .large => board.large
  | .small => board.small

/-- The byte that a cell holds. -/
def holds (board : Board P) (cell : Cell) : UInt8 :=
  (board.ram cell.ram).byteAt cell.offset

theorem SameRam.holds {a b : Board P} (h : a.SameRam b) (cell : Cell) :
    b.holds cell = a.holds cell := by
  obtain ⟨_ | _, offset⟩ := cell
  · exact congrArg (fun memory => Memory.byteAt memory offset) h.large
  · exact congrArg (fun memory => Memory.byteAt memory offset) h.small

variable [Peripherals P] (board : Board P)

theorem sameRam_readAt (opcode : Bool) (address : Word) (width : Width) :
    board.SameRam (board.readAt opcode address width).2 :=
  (sameMemories_readAt board opcode address width).toSameRam

variable {board}
variable {address : Word} {width : Width} {ram : Ram}

/-- A write changes no work RAM where none of it shows. -/
theorem sameRam_writeAt (h : board.control.ramAt? (width.align address) = none) (value : Word) :
    board.SameRam (board.writeAt address value width).2 := by
  unfold writeAt
  simp only
  obtain hp | ⟨-, ⟨_, hp⟩ | ⟨_, hp⟩⟩ | ⟨-, hp | hp | hp⟩ := Control.place_cases h <;> rw [hp]
  case inr.inr.inl => exact (sameMemories_writeLanes _ value _ board).toSameRam
  all_goals exact ⟨rfl, rfl⟩

theorem data_readAt (h : board.control.ramAt? (width.align address) = some ram) (opcode : Bool) :
    (board.readAt opcode address width).1.data =
      (board.ram ram).load ((width.align address).toNat % ram.size) width := by
  unfold readAt
  simp only [Control.place_of_ramAt? h]
  cases ram <;> rfl

/-- A write stores its value in the work RAM that shows, and leaves the other. -/
theorem ram_writeAt (h : board.control.ramAt? (width.align address) = some ram) (value : Word) :
    (board.writeAt address value width).2.ram ram =
        (board.ram ram).store ((width.align address).toNat % ram.size) value width ∧
      ∀ other, other ≠ ram → (board.writeAt address value width).2.ram other = board.ram other := by
  unfold writeAt
  simp only [Control.place_of_ramAt? h]
  cases ram with
  | large =>
    refine ⟨rfl, fun other hother => ?_⟩
    cases other with
    | large => exact absurd rfl hother
    | small => rfl
  | small =>
    refine ⟨rfl, fun other hother => ?_⟩
    cases other with
    | large => rfl
    | small => exact absurd rfl hother

/-- What a write stores in a cell: the lane of its value that falls on the cell. -/
def storedAt (control : Control) (cell : Cell) (address value : Word) (width : Width) :
    Option UInt8 :=
  ((List.range width.lanes).find? fun index =>
    control.cell? (width.align address + UInt32.ofNat index) = some cell).map (lane value)

/-- A write changes the cells that its lanes fall on, and no others. -/
theorem holds_writeAt (board : Board P) (cell : Cell) (address value : Word) (width : Width) :
    (board.writeAt address value width).2.holds cell =
      (storedAt board.control cell address value width).getD (board.holds cell) := by
  by_cases h : board.control.ramAt? (width.align address) = some cell.ram
  · have hlanes : ∀ index ∈ List.range width.lanes,
        decide (board.control.cell? (width.align address + UInt32.ofNat index) = some cell) =
          ((width.align address).toNat % cell.ram.size + index == cell.offset) := by
      intro index hindex
      have hiff : board.control.cell? (width.align address + UInt32.ofNat index) = some cell ↔ _ :=
        Control.cell?_lane_eq_some_iff (List.mem_range.mp hindex)
      rw [beq_eq_decide]
      exact decide_eq_decide.mpr (hiff.trans (and_iff_right h))
    unfold storedAt
    rw [List.find?_congr hlanes, holds, (ram_writeAt h value).1]
    exact Memory.byteAt_store cell.offset.isLt
  · have hnone : storedAt board.control cell address value width = none := by
      refine Option.map_eq_none_iff.mpr (List.find?_eq_none.mpr fun index hindex hcell => h ?_)
      have hcell := of_decide_eq_true hcell
      exact ((Control.cell?_lane_eq_some_iff (List.mem_range.mp hindex)).mp hcell).1
    rw [hnone, Option.getD_none]
    cases hram : board.control.ramAt? (width.align address) with
    | none => exact (sameRam_writeAt hram value).holds cell
    | some ram =>
      have hne : cell.ram ≠ ram := fun he => h (hram.trans (congrArg some he.symm))
      unfold holds
      rw [(ram_writeAt hram value).2 cell.ram hne]

omit [Peripherals P] in
/-- The lanes that a read puts together are what its cells hold. -/
theorem byteAt_lane {index : Nat} {cell : Cell}
    (h : board.control.ramAt? (width.align address) = some ram) (hindex : index < width.lanes)
    (hcell : board.control.cell? (width.align address + UInt32.ofNat index) = some cell) :
    (board.ram ram).byteAt ((width.align address).toNat % ram.size + index) =
      board.holds cell := by
  obtain ⟨hram, hoffset⟩ := (Control.cell?_lane_eq_some_iff hindex).mp hcell
  obtain ⟨other, offset⟩ := cell
  obtain rfl : ram = other := Option.some.inj (h.symm.trans hram)
  exact congrArg (board.ram ram).byteAt hoffset

theorem data_readAt_of_cells {cells : Nat → Cell}
    (h : ∀ index < width.lanes,
      board.control.cell? (width.align address + UInt32.ofNat index) = some (cells index))
    (opcode : Bool) :
    (board.readAt opcode address width).1.data =
      width.assemble fun index => board.holds (cells index) := by
  have hfirst := width.lanes_pos
  have hram := ((Control.cell?_lane_eq_some_iff hfirst).mp (h 0 hfirst)).1
  rw [data_readAt hram]
  exact Width.assemble_congr fun index hindex => byteAt_lane hram hindex (h index hindex)

/-! ## Operations -/

/-- What is done to a board over its bus, or by a reset. -/
inductive Operation
  | read (address : Word) (width : Width)
  | fetch (address : Word) (width : Width)
  | write (address value : Word) (width : Width)
  | latch (word : Word)
  | reset
  deriving DecidableEq

/-- The board after an operation. -/
def perform (board : Board P) : Operation → Board P
  | .read address width => (Bus.read board address width).2
  | .fetch address width => (Bus.fetch board address width).2
  | .write address value width => (Bus.write board address value width).2
  | .latch word => Bus.latch board word
  | .reset => board.reset

/-- What an operation stores in a cell, if it stores there. A reset clears all of work RAM. -/
def stores (cell : Cell) (board : Board P) : Operation → Option UInt8
  | .write address value width => storedAt board.control cell address value width
  | .reset => some 0
  | _ => none

omit [Peripherals P] in
theorem holds_reset (board : Board P) (cell : Cell) : board.reset.holds cell = 0 := by
  obtain ⟨_ | _, offset⟩ := cell
  · exact Memory.byteAt_filled offset.isLt
  · exact Memory.byteAt_filled offset.isLt

/-- An operation does to a cell what it stores there. -/
theorem holds_perform (cell : Cell) (board : Board P) (op : Operation) :
    (board.perform op).holds cell = (stores cell board op).getD (board.holds cell) := by
  cases op with
  | read address width => exact (sameRam_readAt board false address width).holds cell
  | fetch address width => exact (sameRam_readAt board true address width).holds cell
  | write address value width => exact holds_writeAt board cell address value width
  | latch word => rfl
  | reset => exact holds_reset board cell

theorem images_perform (board : Board P) (op : Operation) : board.Images (board.perform op) := by
  cases op with
  | read address width => exact (fixed_readAt board false address width).toImages
  | fetch address width => exact (fixed_readAt board true address width).toImages
  | write address value width => exact (fixed_writeAt board address value width).toImages
  | latch word => exact ⟨rfl, rfl⟩
  | reset => exact ⟨rfl, rfl⟩

/-! ## Accesses beside work RAM -/

/-- Where no work RAM shows, only a device takes note of an access, and where nothing answers at all
a read shows the open bus. -/
theorem beside (h : board.control.cell? address = none) (opcode : Bool) (value : Word)
    (width : Width) :
    board.SameRam (board.readAt opcode address width).2 ∧
      board.SameRam (board.writeAt address value width).2 ∧
      (¬ Control.Device address → (board.readAt opcode address width).2 = board ∧
        (board.writeAt address value width).2 = board) ∧
      (¬ Control.Answered address → (board.readAt opcode address width).1 =
        Read.single (board.openBus (width.align address) width)) := by
  have hram : board.control.ramAt? (width.align address) = none := by
    rw [Control.ramAt?_of_region (width.region_align address)]
    exact Control.cell?_eq_none_iff.mp h
  refine ⟨sameRam_readAt board opcode address width, sameRam_writeAt hram value, fun hdevice => ?_,
    fun hanswered => ?_⟩
  · unfold readAt writeAt
    simp only
    obtain hp | ⟨-, ⟨_, hp⟩ | ⟨_, hp⟩⟩ | ⟨hd, -⟩ := Control.place_cases hram
    · rw [hp]
      exact ⟨rfl, rfl⟩
    · rw [hp]
      exact ⟨rfl, rfl⟩
    · rw [hp]
      exact ⟨rfl, rfl⟩
    · exact absurd (Control.device_align.mp hd) hdevice
  · unfold readAt
    simp only
    obtain hp | ⟨ha, -⟩ | ⟨hd, -⟩ := Control.place_cases hram
    · rw [hp]
    · exact absurd (Control.answered_align.mp ha) hanswered
    · exact absurd (Control.answered_align.mp hd.answered) hanswered

/-- Large work RAM shows nowhere. -/
def SwitchedOut (board : Board P) : Prop :=
  ¬ (board.control.ramEnabled = true ∧ board.control.largeRamEnabled = true)

instance (board : Board P) : Decidable board.SwitchedOut :=
  inferInstanceAs (Decidable (¬ (_ ∧ _)))

omit [Peripherals P] in
theorem SwitchedOut.ramAt?_ne (h : board.SwitchedOut) (address : Word) :
    board.control.ramAt? address ≠ some .large := by
  intro hram
  unfold Control.ramAt? at hram
  split at hram
  · split_ifs at hram with hon hlarge
    · exact h ⟨hon, hlarge⟩
    · cases hram
  · split_ifs at hram
    cases hram
  · cases hram

/-- Large work RAM that is switched out keeps its bytes. -/
theorem large_perform (h : board.SwitchedOut) {op : Operation} (hop : op ≠ .reset) :
    (board.perform op).large = board.large := by
  cases op with
  | read address width => exact (sameRam_readAt board false address width).large
  | fetch address width => exact (sameRam_readAt board true address width).large
  | write address value width =>
    cases hram : board.control.ramAt? (width.align address) with
    | none => exact (sameRam_writeAt hram value).large
    | some ram =>
      cases ram with
      | large => exact absurd hram (h.ramAt?_ne _)
      | small => exact (ram_writeAt hram value).2 .large (by decide)
  | latch word => rfl
  | reset => exact absurd rfl hop

theorem large_foldl {ops : List Operation} : ∀ {board : Board P},
    (∀ before op after, ops = before ++ op :: after →
      op ≠ .reset ∧ (before.foldl perform board).SwitchedOut) →
    (ops.foldl perform board).large = board.large := by
  induction ops with
  | nil => exact fun _ => rfl
  | cons op rest ih =>
    intro board h
    obtain ⟨hop, hout⟩ := h [] op rest rfl
    refine (ih fun before other after hrest => ?_).trans (large_perform hout hop)
    exact h (op :: before) other after (congrArg (op :: ·) hrest)

/-! ## Runs -/

/-- The board after its reset and some operations. -/
def afterAll (start : Board P) (ops : List Operation) : Board P :=
  ops.foldl perform start.reset

/-- The byte that some operations since the reset of a board last stored in a cell, and zero if none
did. -/
def lastStored (start : Board P) (ops : List Operation) (cell : Cell) : UInt8 :=
  (History.lastMark perform (stores cell) start.reset ops).getD 0

theorem holds_afterAll (start : Board P) (ops : List Operation) (cell : Cell) :
    (start.afterAll ops).holds cell = start.lastStored ops cell := by
  have h := History.view_foldl (holds · cell) (holds_perform cell) ops start.reset
  rwa [holds_reset] at h

theorem images_foldl (ops : List Operation) : ∀ board : Board P,
    board.Images (ops.foldl perform board) := by
  induction ops with
  | nil => exact .refl
  | cons op rest ih => exact fun board => (images_perform board op).trans (ih _)

theorem images_afterAll (start : Board P) (ops : List Operation) :
    start.Images (start.afterAll ops) := by
  have hreset : start.Images start.reset := ⟨rfl, rfl⟩
  exact hreset.trans (images_foldl ops _)

omit [Peripherals P] in
/-- A new board is as a reset leaves it. -/
theorem reset_build {config : Config} {peripherals : P} {board : Board P}
    (h : build config peripherals = .ok board) : board.reset = board := by
  unfold build at h
  cases hbios : bootMemory config.bios config.boot with
  | error failure => rw [hbios] at h; cases h
  | ok bios =>
    cases hrom : Rom.ofDump config.rom with
    | error failure => rw [hbios, hrom] at h; cases h
    | ok rom => rw [hbios, hrom] at h; cases h; rfl

/-- **Work RAM is a memory of bytes behind its mirrors and switches.** After any operations, a read
from addresses that show work RAM puts together what was last stored in their cells, and zero where
nothing was since the reset. The images stay, and so does large work RAM while it is switched out.
Where no work RAM shows, an access leaves all of it alone. Only a device takes note of such an
access, and where nothing answers at all it reads the open bus. -/
theorem workRam_remembers (start : Board P) :
    (∀ config peripherals, build config peripherals = .ok start → start.reset = start) ∧
    (∀ (ops : List Operation) (opcode : Bool),
      (∀ address cell, (start.afterAll ops).control.cell? address = some cell →
        ((start.afterAll ops).readAt opcode address .byte).1.data =
          (start.lastStored ops cell).toUInt32) ∧
      ∀ (address : Word) (width : Width) (cells : Nat → Cell),
        (∀ index < width.lanes, (start.afterAll ops).control.cell?
          (width.align address + UInt32.ofNat index) = some (cells index)) →
        ((start.afterAll ops).readAt opcode address width).1.data =
          width.assemble fun index => start.lastStored ops (cells index)) ∧
    (∀ ops, start.Images (start.afterAll ops)) ∧
    (∀ (board : Board P) (ops : List Operation),
      (∀ before op after, ops = before ++ op :: after →
        op ≠ .reset ∧ (before.foldl perform board).SwitchedOut) →
      (ops.foldl perform board).large = board.large) ∧
    ∀ (board : Board P) (address : Word), board.control.cell? address = none →
      ∀ (opcode : Bool) (value : Word) (width : Width),
        board.SameRam (board.readAt opcode address width).2 ∧
        board.SameRam (board.writeAt address value width).2 ∧
        (¬ Control.Device address → (board.readAt opcode address width).2 = board ∧
          (board.writeAt address value width).2 = board) ∧
        (¬ Control.Answered address → (board.readAt opcode address width).1 =
          Read.single (board.openBus (width.align address) width)) := by
  refine ⟨fun _ _ => reset_build, fun ops opcode => ?_, images_afterAll start,
    fun _ _ => large_foldl, fun _ _ => beside⟩
  have hwide (address : Word) (width : Width) (cells : Nat → Cell)
      (h : ∀ index < width.lanes, (start.afterAll ops).control.cell?
        (width.align address + UInt32.ofNat index) = some (cells index)) :
      ((start.afterAll ops).readAt opcode address width).1.data =
        width.assemble fun index => start.lastStored ops (cells index) := by
    rw [data_readAt_of_cells h]
    exact Width.assemble_congr fun index _ => holds_afterAll start ops (cells index)
  refine ⟨fun address cell hcell => hwide address .byte (fun _ => cell) ?_, hwide⟩
  intro index hindex
  obtain rfl : index = 0 := Nat.lt_one_iff.mp hindex
  have halign : Width.byte.align address = address := UInt32.and_neg_one
  rw [halign]
  exact (congrArg (start.afterAll ops).control.cell? (UInt32.add_zero address)).trans hcell

/-- A configuration without a boot image, whose cartridge is all ones. -/
def blankConfig : Config :=
  ⟨.empty, ⟨#[0xFF]⟩, .direct⟩

/-- The board of that configuration, with nothing plugged in. -/
def blank : Board Detached where
  bios := Memory.filled biosSize 0
  large := Memory.filled largeSize 0
  small := Memory.filled smallSize 0
  rom :=
    { size := Rom.mappedSize 1
      image := ⟨Rom.padded blankConfig.rom (Rom.mappedSize 1), Rom.size_padded (by decide)⟩
      size_ge := by decide
      size_le := by decide
      size_mod := by decide }
  control := Control.initial
  keypad := Keypad.initial
  peripherals := ⟨⟩
  dma := .attached
  prefetched := 0

/-- A word is stored in large work RAM, which then gives way to the small one and comes back: its
bytes are as they were, also in the mirrors. Region 1 reads as the open bus. -/
theorem workRam_remembers_blank :
    let stored : List Operation :=
      [.write 0x02000005 0x44332211 .word, .write 0x04010800 0x00 .byte]
    let away : List Operation := [.write 0x02000004 0xFF .byte]
    let ops : List Operation := stored ++ away ++ [.write 0x04000800 0x20 .byte]
    build blankConfig ⟨⟩ = .ok blank ∧ blank.reset = blank ∧
      ((blank.afterAll ops).readAt false 0x02040006 .byte).1.data = 0x33 ∧
      ((blank.afterAll ops).readAt true 0x02000005 .halfword).1.data = 0x2211 ∧
      (away.foldl perform (blank.afterAll stored)).large = (blank.afterAll stored).large ∧
      (blank.readAt false 0x01000002 .word).1 = Read.single (blank.openBus 0x01000000 .word) ∧
      (blank.writeAt 0x01000002 0xFF .word).2 = blank := by
  intro stored away ops
  obtain ⟨hbuild, hread, -, hout, hbeside⟩ := workRam_remembers blank
  have hblank : build blankConfig ⟨⟩ = .ok blank := rfl
  have hcell : (blank.afterAll ops).control.cell? 0x02040006 = some ⟨.large, 6, by decide⟩ := by
    decide +kernel
  have hcells : ∀ index < Width.halfword.lanes,
      (blank.afterAll ops).control.cell? (Width.halfword.align 0x02000005 + UInt32.ofNat index) =
        some (.ofAddress .large (0x02000004 + UInt32.ofNat index)) := by
    decide +kernel
  have hnone : blank.control.cell? 0x01000002 = none := by decide +kernel
  refine ⟨hblank, hbuild _ _ hblank, ((hread ops false).1 _ _ hcell).trans (by decide +kernel),
    ((hread ops true).2 _ _ _ hcells).trans (by decide +kernel),
    hout _ _ fun before op after hsplit => ?_, ?_, ?_⟩
  · cases before with
    | nil =>
      obtain ⟨rfl, -⟩ := List.cons.inj hsplit
      exact ⟨by decide, by decide +kernel⟩
    | cons first before =>
      obtain ⟨-, hrest⟩ := List.cons.inj hsplit
      exact absurd hrest.symm (List.append_ne_nil_of_right_ne_nil _ (List.cons_ne_nil _ _))
  · exact (hbeside blank _ hnone false 0 .word).2.2.2 (by decide +kernel)
  · exact ((hbeside blank _ hnone false 0xFF .word).2.2.1 (by decide +kernel)).2

/-- Not every access that meets no work RAM reads the open bus and changes nothing: a cartridge
answers with what it holds, and memory control takes what is written to it. -/
theorem beside_answered :
    let board := blank.afterAll [.latch 0x12345678]
    board.control.cell? 0x08000000 = none ∧
      (board.readAt false 0x08000000 .word).1.data ≠ board.openBus 0x08000000 .word ∧
      board.control.cell? 0x04000800 = none ∧
      (board.writeAt 0x04000800 0x00 .byte).2.control ≠ board.control := by
  decide +kernel

end Board

end Handheld
