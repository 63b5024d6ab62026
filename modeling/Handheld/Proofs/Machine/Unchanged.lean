import Handheld.Proofs.Machine.Alike
import Handheld.Proofs.Word

/-!
# What no access changes

A program changes work RAM, the registers and what is plugged in. The images in the boot memory and
on the cartridge are there to stay, and so is what the slot of the DMA controller holds.

1. `Board.Fixed` relates boards that agree in these, and every access keeps them (`keeps_fixed`).
2. `Board.SameMemories` relates boards that agree in work RAM, too. So do those before and after a
   read, or an access to a register.
3. `Board.OffBus` says how a board answers whose DMA controller was lifted off it, and `visits` are
   the boards that a conversation comes by.
-/

namespace Handheld

namespace Board

variable {P : Type}

/-- Boards with the same images. -/
structure Images (a b : Board P) : Prop where
  bios : b.bios = a.bios
  rom : b.rom = a.rom

theorem Images.refl (board : Board P) : board.Images board := ⟨rfl, rfl⟩

theorem Images.trans {a b c : Board P} (h : a.Images b) (k : b.Images c) : a.Images c :=
  ⟨k.bios.trans h.bios, k.rom.trans h.rom⟩

/-- Boards with the same images and the same in the slot of the DMA controller. -/
structure Fixed (a b : Board P) : Prop extends Images a b where
  dma : b.dma = a.dma

theorem Fixed.refl (board : Board P) : board.Fixed board := ⟨.refl board, rfl⟩

theorem Fixed.trans {a b c : Board P} (h : a.Fixed b) (k : b.Fixed c) : a.Fixed c :=
  ⟨h.toImages.trans k.toImages, k.dma.trans h.dma⟩

/-- Boards with the same work RAM. -/
structure SameRam (a b : Board P) : Prop where
  large : b.large = a.large
  small : b.small = a.small

/-- Boards with the same memories, which differ in their registers and in what is plugged in. -/
structure SameMemories (a b : Board P) : Prop extends Fixed a b, SameRam a b

theorem SameMemories.refl (board : Board P) : board.SameMemories board := ⟨.refl board, rfl, rfl⟩

theorem SameMemories.trans {a b c : Board P} (h : a.SameMemories b) (k : b.SameMemories c) :
    a.SameMemories c :=
  ⟨h.toFixed.trans k.toFixed, k.large.trans h.large, k.small.trans h.small⟩

variable [Peripherals P] (board : Board P)

/-! ## Accesses -/

theorem sameMemories_readRegister (address : Word) :
    board.SameMemories (board.readRegister address).2 := by
  unfold readRegister
  cases registerOwner address with
  | plugged block => exact ⟨⟨⟨rfl, rfl⟩, rfl⟩, rfl, rfl⟩
  | keypad => exact .refl board
  | control => exact .refl board

theorem sameMemories_writeRegister (address : Word) (value : UInt8) :
    board.SameMemories (board.writeRegister address value) := by
  unfold writeRegister
  cases registerOwner address with
  | plugged block =>
    simp only
    split_ifs
    · exact ⟨⟨⟨rfl, rfl⟩, rfl⟩, rfl, rfl⟩
    · exact ⟨⟨⟨rfl, rfl⟩, rfl⟩, rfl, rfl⟩
  | keypad => exact ⟨⟨⟨rfl, rfl⟩, rfl⟩, rfl, rfl⟩
  | control => exact ⟨⟨⟨rfl, rfl⟩, rfl⟩, rfl, rfl⟩

theorem sameMemories_readLanes (base openWord : Word) (lanes : List Nat) :
    ∀ (sofar : Word) (board : Board P),
      board.SameMemories (readLanes base openWord lanes sofar board).2 := by
  induction lanes with
  | nil => exact fun _ board => .refl board
  | cons index rest ih =>
    intro sofar board
    exact (sameMemories_readRegister board _).trans (ih _ _)

theorem sameMemories_writeLanes (base value : Word) (lanes : List Nat) :
    ∀ board : Board P, board.SameMemories (writeLanes base value lanes board) := by
  induction lanes with
  | nil => exact fun board => .refl board
  | cons index rest ih =>
    intro board
    exact (sameMemories_writeRegister board _ _).trans (ih _)

/-- A read changes no memory. -/
theorem sameMemories_readAt (opcode : Bool) (address : Word) (width : Width) :
    board.SameMemories (board.readAt opcode address width).2 := by
  unfold readAt
  simp only
  cases board.control.place (width.align address) with
  | registers => exact sameMemories_readLanes _ _ _ 0 board
  | _ => exact ⟨⟨⟨rfl, rfl⟩, rfl⟩, rfl, rfl⟩

theorem fixed_readAt (opcode : Bool) (address : Word) (width : Width) :
    board.Fixed (board.readAt opcode address width).2 :=
  (sameMemories_readAt board opcode address width).toFixed

theorem fixed_writeAt (address value : Word) (width : Width) :
    board.Fixed (board.writeAt address value width).2 := by
  unfold writeAt
  simp only
  cases board.control.place (width.align address) with
  | registers => exact (sameMemories_writeLanes _ value _ board).toFixed
  | _ => exact ⟨⟨rfl, rfl⟩, rfl⟩

/-- Every access leaves the images and the slot as they were. -/
theorem keeps_fixed : BusKeeps fun after : Board P => board.Fixed after where
  read h address width := h.trans (fixed_readAt _ false address width)
  write h address value width := h.trans (fixed_writeAt _ address value width)
  fetch h address width := h.trans (fixed_readAt _ true address width)
  latch h _ := h.trans ⟨⟨rfl, rfl⟩, rfl⟩

/-! ## The DMA controller off the board -/

/-- The first register of the DMA controller. -/
def dmaFirst : Word := 0x040000B0

/-- The last register of the DMA controller. -/
def dmaLast : Word := 0x040000FF

omit [Peripherals P] in
/-- What is on the open bus fits the width of the access. -/
theorem openBus_mask (address : Word) (width : Width) :
    board.openBus address width &&& width.mask = board.openBus address width := by
  cases width with
  | byte => exact and_and_self _ _
  | halfword => exact and_and_self _ _
  | word => exact UInt32.and_neg_one

/-- An access to the registers of the DMA controller is one to no others. -/
theorem registerOwner_dma {address : Word} (h : dmaFirst ≤ address) (hl : address ≤ dmaLast)
    (width : Width) :
    (width.align address >>> 24).toNat = 4 ∧
      ∀ index < width.lanes,
        registerOwner (width.align address + UInt32.ofNat index) = .plugged .dma := by
  have hofs : (address - dmaFirst).toNat < 80 := by
    rw [UInt32.le_iff_toNat_le] at h hl
    rw [UInt32.toNat_sub_of_le _ _ (UInt32.le_iff_toNat_le.mpr h)]
    have h1 : dmaFirst.toNat = 0x040000B0 := rfl
    have h2 : dmaLast.toNat = 0x040000FF := rfl
    omega
  have hall : ∀ offset : Fin 80, (width.align (dmaFirst + UInt32.ofNat offset) >>> 24).toNat = 4 ∧
      ∀ index < width.lanes, registerOwner
        (width.align (dmaFirst + UInt32.ofNat offset) + UInt32.ofNat index) = .plugged .dma := by
    cases width <;> decide +kernel
  have ha : dmaFirst + UInt32.ofNat (address - dmaFirst).toNat = address := by
    rw [UInt32.ofNat_toNat, UInt32.add_comm, UInt32.sub_add_cancel]
  rw [← ha]
  exact hall ⟨(address - dmaFirst).toNat, hofs⟩

omit [Peripherals P] in
theorem place_dma {address : Word} (h : dmaFirst ≤ address) (hl : address ≤ dmaLast)
    (width : Width) : board.control.place (width.align address) = .registers := by
  unfold Control.place
  rw [(registerOwner_dma h hl width).1]
  rfl

variable {board}

/-- Off the board, the DMA controller does not answer. -/
theorem readLanes_vacant (hv : board.dma = .vacant) (base openWord : Word)
    (lanes : List Nat) (ho : ∀ index ∈ lanes,
      registerOwner (base + UInt32.ofNat index) = .plugged .dma) :
    ∀ sofar : Word, readLanes base openWord lanes sofar board =
      (lanes.foldl (fun sofar index =>
        sofar ||| (lane openWord index).toUInt32 <<< UInt32.ofNat (8 * index)) sofar, board) := by
  induction lanes with
  | nil => exact fun _ => rfl
  | cons index rest ih =>
    intro sofar
    have hr : board.readRegister (base + UInt32.ofNat index) = (none, board) := by
      have hnone : board.dma.readRegister (base + UInt32.ofNat index) board.peripherals =
          (none, board.peripherals) := by
        rw [hv]
        rfl
      unfold readRegister
      rw [ho index List.mem_cons_self]
      simp only [if_true, hnone]
    unfold readLanes
    rw [hr]
    exact ih (fun other hm => ho other (List.mem_cons_of_mem _ hm)) _

theorem writeLanes_vacant (hv : board.dma = .vacant) (base value : Word)
    (lanes : List Nat) (ho : ∀ index ∈ lanes,
      registerOwner (base + UInt32.ofNat index) = .plugged .dma) :
    writeLanes base value lanes board = board := by
  induction lanes with
  | nil => rfl
  | cons index rest ih =>
    have hw : board.writeRegister (base + UInt32.ofNat index) (lane value index) = board := by
      unfold writeRegister
      rw [ho index List.mem_cons_self]
      simp only [if_true, hv]
      rfl
    show writeLanes base value rest (board.writeRegister _ _) = board
    rw [hw]
    exact ih fun other hm => ho other (List.mem_cons_of_mem _ hm)

/-- The registers of the DMA controller read as the open bus and ignore what is written. -/
structure OffBus (board : Board P) : Prop where
  read : ∀ (opcode : Bool) (width : Width) {address : Word}, dmaFirst ≤ address →
    address ≤ dmaLast → board.readAt opcode address width =
      (Read.single (board.openBus (width.align address) width), board)
  write : ∀ (value : Word) (width : Width) {address : Word}, dmaFirst ≤ address →
    address ≤ dmaLast → board.writeAt address value width = (Timing.single, board)

theorem offBus_of_vacant (hv : board.dma = .vacant) : board.OffBus where
  read opcode width address h hl := by
    have ho := (registerOwner_dma h hl width).2
    unfold readAt
    simp only [board.place_dma h hl width]
    rw [readLanes_vacant hv _ _ _ fun index hm => ho index (List.mem_range.mp hm)]
    exact congrArg (fun data => (Read.single data, board))
      (fromLanes_eq width (board.openBus_mask (width.align address) width))
  write value width address h hl := by
    have ho := (registerOwner_dma h hl width).2
    unfold writeAt
    simp only [board.place_dma h hl width]
    rw [writeLanes_vacant hv _ _ _ fun index hm => ho index (List.mem_range.mp hm)]

/-! ## Conversations -/

/-- The boards that a conversation comes by. -/
def visits {α : Type} : BusProgram P α → Board P → List (Board P)
  | .done _, board => [board]
  | .read address width next, board =>
    board :: visits (next (Bus.read board address width).1) (Bus.read board address width).2
  | .write address value width next, board =>
    board :: visits (next (Bus.write board address value width).1)
      (Bus.write board address value width).2
  | .fetch address width next, board =>
    board :: visits (next (Bus.fetch board address width).1) (Bus.fetch board address width).2
  | .latch word next, board => board :: visits next (Bus.latch board word)
  | .update change next, board =>
    board :: visits (next board.peripherals) (board.modifyPeripherals change)

omit [Peripherals P] in
theorem fixed_cons {a b : Board P} {rest : List (Board P)} (h : a.Fixed b)
    (hrest : ∀ after ∈ rest, b.Fixed after) : ∀ after ∈ a :: rest, a.Fixed after := by
  intro after hm
  rcases List.mem_cons.mp hm with rfl | hm
  · exact .refl _
  · exact h.trans (hrest after hm)

/-- A conversation comes by no board with other images, or with something else in the slot. -/
theorem fixed_visits {α : Type} (program : BusProgram P α) :
    ∀ board : Board P, ∀ after ∈ visits program board, board.Fixed after := by
  induction program with
  | done result =>
    intro board after hm
    rw [List.mem_singleton.mp hm]
    exact .refl board
  | read address width next ih =>
    exact fun board => fixed_cons (fixed_readAt board false address width) (ih _ _)
  | write address value width next ih =>
    exact fun board => fixed_cons (fixed_writeAt board address value width) (ih _ _)
  | fetch address width next ih =>
    exact fun board => fixed_cons (fixed_readAt board true address width) (ih _ _)
  | latch word next ih =>
    intro board
    have hlatch : board.Fixed (Bus.latch board word) := ⟨⟨rfl, rfl⟩, rfl⟩
    exact fixed_cons hlatch (ih _)
  | update change next ih =>
    intro board
    have hupdate : board.Fixed (board.modifyPeripherals change) := ⟨⟨rfl, rfl⟩, rfl⟩
    exact fixed_cons hupdate (ih _ _)

/-- The last of them is the board that the conversation leaves. -/
theorem run_mem_visits {α : Type} (program : BusProgram P α) :
    ∀ board : Board P, (board.runProgram program).2 ∈ visits program board := by
  induction program with
  | done result => exact fun board => List.mem_singleton.mpr rfl
  | latch word next ih => exact fun board => List.mem_cons_of_mem _ (ih _)
  | read address width next ih => exact fun board => List.mem_cons_of_mem _ (ih _ _)
  | write address value width next ih => exact fun board => List.mem_cons_of_mem _ (ih _ _)
  | fetch address width next ih => exact fun board => List.mem_cons_of_mem _ (ih _ _)
  | update change next ih => exact fun board => List.mem_cons_of_mem _ (ih _ _)

theorem fixed_runProgram {α : Type} (program : BusProgram P α) (board : Board P) :
    board.Fixed (board.runProgram program).2 :=
  fixed_visits program board _ (run_mem_visits program board)

end Board

end Handheld
