import Handheld.Proofs.Machine.WorkRam

/-!
# Wide accesses

A read of some bytes is the reads of each of them put together, and a write is the writes of each of
them in turn. Video memory and the cartridge backup have buses of their own and are left out.

1. `Control.place_lane` follows an access through its lanes: they lie one after the other in one
   place.
2. `Board.busByte` is what the bus has at an address, and `data_readAt_eq_busByte` says that every
   read is made of it.
3. `state_writeAt_eq_writeBytes` splits a write: its lanes are written one by one, as bytes are
   (`writeBytes_eq_foldl`).
4. `accesses_bytewise` puts both together with the view of a memory from the outside.
-/

namespace Handheld

/-! ## Places -/

/-- The place of a byte some lanes further on. -/
def Place.lane (place : Place) (index : Nat) : Place :=
  match place with
  | .bios offset => .bios (offset + index)
  | .large offset => .large (offset + index)
  | .small offset => .small (offset + index)
  | .cartridge offset => .cartridge (offset + index)
  | .registers => .registers
  | .video => .video
  | .backup => .backup
  | .nothing => .nothing

/-- An address whose bytes are read and written one by one: that of memory, of a register or of
nothing at all. -/
def Control.Bytewise (address : Word) : Prop :=
  ¬ (0x05 ≤ (address >>> 24).toNat ∧ (address >>> 24).toNat ≤ 0x07) ∧
    ¬ (0x0E ≤ (address >>> 24).toNat ∧ (address >>> 24).toNat ≤ 0x0F)

instance : DecidablePred Control.Bytewise := fun _ => inferInstanceAs (Decidable (_ ∧ _))

section Lanes

variable {width : Width} {address : Word} {index : Nat} (h : index < width.lanes)
include h

/-- The lanes of an access have offsets one after the other. -/
theorem Width.toNat_align_add_and {mask : Word} (i : Nat) (hmask : mask.toNat = 2 ^ i - 1)
    (hi : 2 ≤ i) :
    ((width.align address + UInt32.ofNat index) &&& mask).toNat =
      (width.align address &&& mask).toNat + index := by
  have hdvd : width.lanes ∣ 2 ^ i := by
    have hfour : width.lanes ∣ 2 ^ 2 := by cases width <;> decide
    exact hfour.trans (Nat.pow_dvd_pow 2 hi)
  rw [UInt32.toNat_and, UInt32.toNat_and, hmask, Nat.and_two_pow_sub_one_eq_mod,
    Nat.and_two_pow_sub_one_eq_mod, toNat_align_add h]
  exact add_lane_mod (width.lanes_dvd_align address) hdvd (Nat.two_pow_pos i) h

/-- The boot memory ends between two accesses. -/
theorem Width.lane_lt_biosSize_iff :
    (width.align address).toNat + index < biosSize ↔ (width.align address).toNat < biosSize := by
  have hdvd : width.lanes ∣ biosSize := by cases width <;> decide
  have hmod := add_lane_mod (width.lanes_dvd_align address) hdvd (by decide) h
  unfold biosSize at hmod ⊢
  omega

namespace Control

variable (control : Control)

theorem ramPlace_lane (large : Bool) :
    control.ramPlace large (width.align address + UInt32.ofNat index) =
      (control.ramPlace large (width.align address)).lane index := by
  unfold ramPlace
  rw [Width.toNat_align_add_and h 18 rfl (by decide),
    Width.toNat_align_add_and h 15 rfl (by decide)]
  split_ifs <;> rfl

/-- The lanes of an access lie one after the other in one place. -/
theorem place_lane :
    control.place (width.align address + UInt32.ofNat index) =
      (control.place (width.align address)).lane index := by
  unfold place
  rw [Width.region_align_add h, Width.toNat_align_add_and h 25 rfl (by decide),
    control.ramPlace_lane h, control.ramPlace_lane h]
  simp only [Width.toNat_align_add h, Width.lane_lt_biosSize_iff h]
  split <;> first | rfl | split_ifs <;> rfl

end Control

end Lanes

/-- A work RAM region is no device. -/
theorem Control.ramPlace_ne (control : Control) (large : Bool) (address : Word) {place : Place}
    (h : place = .registers ∨ place = .video ∨ place = .backup) :
    control.ramPlace large address ≠ place := by
  unfold ramPlace
  rcases h with rfl | rfl | rfl <;> split_ifs <;> exact nofun

theorem Control.Bytewise.place_ne {address : Word} (h : Bytewise address) (control : Control)
    (width : Width) :
    control.place (width.align address) ≠ .video ∧
      control.place (width.align address) ≠ .backup := by
  unfold Bytewise at h
  unfold place
  rw [width.region_align]
  split
  case h_1 => split_ifs <;> exact ⟨nofun, nofun⟩
  case h_2 | h_3 =>
    exact ⟨ramPlace_ne _ _ _ (.inr (.inl rfl)), ramPlace_ne _ _ _ (.inr (.inr rfl))⟩
  -- The regions of video memory and of the backup are ruled out, and the others go elsewhere.
  all_goals first | (exfalso; omega) | exact ⟨nofun, nofun⟩

/-- Registers are at the same addresses whatever memory control says. -/
theorem Control.place_registers {control : Control} {address : Word}
    (h : control.place address = .registers) (other : Control) :
    other.place address = .registers := by
  unfold place at h ⊢
  split at h
  case h_1 => split_ifs at h
  case h_2 | h_3 => exact absurd h (ramPlace_ne _ _ _ (.inl rfl))
  case h_4 => rfl
  all_goals exact nomatch h

theorem Control.Bytewise.lane {width : Width} {address : Word} (h : Bytewise address) {index : Nat}
    (hindex : index < width.lanes) : Bytewise (width.align address + UInt32.ofNat index) := by
  unfold Bytewise
  rwa [Width.region_align_add hindex, width.region_align]

/-! ## Bytes of a value -/

namespace Width

theorem assemble_eq_foldl (width : Width) (lanes : Nat → UInt8) :
    width.assemble lanes =
      (List.range width.lanes).foldl
        (fun sofar index => sofar ||| (lanes index).toUInt32 <<< UInt32.ofNat (8 * index)) 0 := by
  have hfirst :
      (0 : Word) ||| (lanes 0).toUInt32 <<< UInt32.ofNat (8 * 0) = (lanes 0).toUInt32 := by
    simp
  cases width with
  | byte => exact hfirst.symm
  | halfword =>
    show _ = (0 ||| (lanes 0).toUInt32 <<< UInt32.ofNat (8 * 0)) ||| _
    rw [hfirst]
    rfl
  | word =>
    show _ = (0 ||| (lanes 0).toUInt32 <<< UInt32.ofNat (8 * 0)) ||| _ ||| _ ||| _
    rw [hfirst]
    rfl

theorem lane_assemble {width : Width} (lanes : Nat → UInt8) {index : Nat}
    (h : index < width.lanes) : lane (width.assemble lanes) index = lanes index := by
  have h0 := (lanes 0).toNat_lt
  have h1 := (lanes 1).toNat_lt
  have h2 := (lanes 2).toNat_lt
  have h3 := (lanes 3).toNat_lt
  rw [← UInt8.toNat_inj, toNat_lane _ (h.trans_le width.lanes_le)]
  cases width with
  | byte =>
    change index < 1 at h
    rw [toNat_assemble_byte]
    interval_cases index
    omega
  | halfword =>
    change index < 2 at h
    rw [toNat_assemble_halfword]
    interval_cases index <;> omega
  | word =>
    change index < 4 at h
    rw [toNat_assemble_word]
    interval_cases index <;> omega

end Width

/-! ## What the bus has at an address -/

/-- A cartridge has no bytes past its end. -/
theorem Rom.load_eq_assemble (rom : Rom) (offset : Nat) (width : Width) :
    rom.load offset width = width.assemble fun index => rom.image.byteAt (offset + index) := by
  by_cases h : offset < rom.size
  · exact if_pos h
  · have hzero : ∀ index < width.lanes, rom.image.byteAt (offset + index) = 0 :=
      fun index _ => Memory.byteAt_of_le (by omega)
    rw [Width.assemble_congr hzero]
    exact (if_neg h).trans (by cases width <;> rfl)

namespace Board

variable {P : Type} (board : Board P)

/-- The byte of the open bus at an address. -/
def openLane (address : Word) : UInt8 :=
  lane board.prefetched (address &&& 3).toNat

/-- Bytes in a row of the word in the fetch slot. -/
theorem field_prefetched {k : Word} {first : Nat} (hk : k.toNat % 32 = 8 * first)
    (hfirst : first ≤ 2) :
    field board.prefetched k 0xFFFF =
      Width.halfword.assemble fun index => lane board.prefetched (first + index) := by
  rw [← UInt32.toNat_inj, toNat_field _ _ 16 hk rfl, Width.toNat_assemble_halfword,
    toNat_lane _ (by omega), toNat_lane _ (by omega)]
  interval_cases first <;> omega

/-- The open bus has the same bytes for every width. -/
theorem openBus_eq_openLane (address : Word) (width : Width) :
    board.openBus (width.align address) width =
      width.assemble fun index => board.openLane (width.align address + UInt32.ofNat index) := by
  have hlane : ∀ index < width.lanes,
      board.openLane (width.align address + UInt32.ofNat index) =
        lane board.prefetched ((width.align address &&& 3).toNat + index) := by
    intro index hindex
    rw [openLane, Width.toNat_align_add_and hindex 2 rfl (by decide)]
  rw [Width.assemble_congr hlane]
  cases width with
  | byte =>
    have hplace : UInt32.ofNat (8 * (Width.byte.align address &&& 3).toNat) =
        (Width.byte.align address &&& 3) * 8 := by
      rw [UInt32.ofNat_mul, UInt32.ofNat_toNat, UInt32.mul_comm]
      rfl
    have hbyte := toUInt32_toUInt8
      (board.prefetched >>> UInt32.ofNat (8 * (Width.byte.align address &&& 3).toNat))
    rw [hplace] at hbyte
    show field board.prefetched ((Width.byte.align address &&& 3) * 8) 0xFF =
      (lane board.prefetched ((Width.byte.align address &&& 3).toNat + 0)).toUInt32
    rw [Nat.add_zero, lane, hplace, hbyte, field]
  | halfword =>
    have heven : Width.halfword.align address &&& 3 = Width.halfword.align address &&& 2 := by
      rw [Width.align, UInt32.and_assoc, UInt32.and_assoc]
      rfl
    have hle : (Width.halfword.align address &&& 2).toNat ≤ 2 := toNat_and_le ..
    rw [heven]
    refine board.field_prefetched ?_ hle
    rw [UInt32.toNat_mul]
    show _ * 8 % 2 ^ 32 % 32 = _
    omega
  | word =>
    have hzero : Width.word.align address &&& 3 = 0 := by
      rw [Width.align, UInt32.and_assoc]
      exact UInt32.and_zero
    rw [hzero]
    simp only [UInt32.toNat_zero, Nat.zero_add]
    exact (Width.assemble_lane _).symm

variable [Peripherals P]

/-- The byte that a place shows at an address, apart from those with a bus of their own. What a
device does when it is read is not shown. -/
def placeByte (address : Word) : Place → UInt8
  | .bios offset => board.bios.byteAt offset
  | .large offset => board.large.byteAt offset
  | .small offset => board.small.byteAt offset
  | .cartridge offset => board.rom.image.byteAt offset
  | .registers => (board.readRegister address).1.getD (board.openLane address)
  | .nothing => board.openLane address
  | .video | .backup => 0

/-- The byte that the bus has at an address. -/
def busByte (address : Word) : UInt8 :=
  board.placeByte address (board.control.place address)

/-- A board on which reads of device registers have no side effects. -/
def ReadsQuietly : Prop :=
  ∀ block address,
    (Peripherals.readRegister block address board.peripherals).2 = board.peripherals

variable {board}

theorem state_readRegister (hquiet : board.ReadsQuietly) (address : Word) :
    (board.readRegister address).2 = board := by
  unfold readRegister
  cases registerOwner address with
  | plugged block =>
    have hdma : (board.dma.readRegister address board.peripherals).2 = board.peripherals := by
      cases board.dma with
      | attached => exact hquiet .dma address
      | vacant => rfl
    have hanswer : (if block = .dma then board.dma.readRegister address board.peripherals
        else Peripherals.readRegister block address board.peripherals).2 = board.peripherals := by
      split_ifs
      · exact hdma
      · exact hquiet block address
    exact congrArg (fun peripherals => { board with peripherals }) hanswer
  | keypad => rfl
  | control => rfl

/-- Registers without side effects are read as if each were read alone. -/
theorem readLanes_quiet (hquiet : board.ReadsQuietly) (base openWord : Word) (lanes : List Nat) :
    ∀ sofar : Word, readLanes base openWord lanes sofar board =
      (lanes.foldl (fun sofar index => sofar |||
        ((board.readRegister (base + UInt32.ofNat index)).1.getD (lane openWord index)).toUInt32 <<<
          UInt32.ofNat (8 * index)) sofar, board) := by
  induction lanes with
  | nil => exact fun _ => rfl
  | cons index rest ih =>
    intro sofar
    show readLanes base openWord rest _ (board.readRegister _).2 = _
    rw [state_readRegister hquiet]
    exact ih _

theorem state_readAt (hquiet : board.ReadsQuietly) {address : Word}
    (h : Control.Bytewise address) (opcode : Bool) (width : Width) :
    (board.readAt opcode address width).2 = board := by
  obtain ⟨hvideo, hbackup⟩ := h.place_ne board.control width
  unfold readAt
  simp only
  cases hplace : board.control.place (width.align address) with
  | registers =>
    simp only [readLanes_quiet hquiet]
  | video => exact absurd hplace hvideo
  | backup => exact absurd hplace hbackup
  | _ => rfl

/-- **Reads.** What is read is made of the bytes that the bus has at the addresses of the lanes. -/
theorem data_readAt_eq_busByte (hquiet : board.ReadsQuietly) {address : Word}
    (h : Control.Bytewise address) (opcode : Bool) (width : Width) :
    (board.readAt opcode address width).1.data =
      width.assemble fun index => board.busByte (width.align address + UInt32.ofNat index) := by
  obtain ⟨hvideo, hbackup⟩ := h.place_ne board.control width
  have hbytes : ∀ index < width.lanes,
      board.busByte (width.align address + UInt32.ofNat index) =
        board.placeByte (width.align address + UInt32.ofNat index)
          ((board.control.place (width.align address)).lane index) := by
    intro index hindex
    rw [busByte, board.control.place_lane hindex]
  rw [Width.assemble_congr hbytes]
  unfold readAt
  simp only
  cases hplace : board.control.place (width.align address) with
  | bios offset => rfl
  | large offset => rfl
  | small offset => rfl
  | cartridge offset => exact board.rom.load_eq_assemble offset width
  | registers =>
    simp only [readLanes_quiet hquiet]
    rw [Width.assemble_eq_foldl]
    refine List.foldl_ext _ _ _ fun sofar index hindex => ?_
    have hopen : lane (board.openBus (width.align address) width) index = _ :=
      (congrArg (lane · index) (board.openBus_eq_openLane address width)).trans
        (Width.lane_assemble _ (List.mem_range.mp hindex))
    rw [hopen]
    rfl
  | nothing => exact board.openBus_eq_openLane address width
  | video => exact absurd hplace hvideo
  | backup => exact absurd hplace hbackup

/-! ## Writes -/

/-- The byte writes of the lanes of a value, in ascending order. -/
def writeBytes (board : Board P) (base value : Word) (lanes : List Nat) : Board P :=
  lanes.foldl
    (fun board index =>
      (board.writeAt (base + UInt32.ofNat index) (lane value index).toUInt32 .byte).2) board

/-- Byte writes that each change one part of a board in one way. -/
theorem writeBytes_eq_foldl {σ : Type} (part : σ → Board P) (change : σ → Nat → σ)
    {base value : Word} {lanes : List Nat}
    (h : ∀ state, ∀ index ∈ lanes,
      ((part state).writeAt (base + UInt32.ofNat index) (lane value index).toUInt32 .byte).2 =
        part (change state index)) :
    ∀ state, writeBytes (part state) base value lanes = part (lanes.foldl change state) := by
  unfold writeBytes
  induction lanes with
  | nil => exact fun _ => rfl
  | cons index rest ih =>
    intro state
    rw [List.foldl_cons, h state index List.mem_cons_self, List.foldl_cons]
    exact ih (fun state other hm => h state other (List.mem_cons_of_mem _ hm)) _

/-- The only lane of a byte. -/
theorem lane_toUInt32 (byte : UInt8) : lane byte.toUInt32 0 = byte := by
  have hlane : lane (Width.byte.assemble fun _ => byte) 0 = byte :=
    Width.lane_assemble _ (by decide)
  exact hlane

/-- What the write of a byte changes in a place, apart from those with a bus of their own. -/
def putByte (board : Board P) (address : Word) (byte : UInt8) : Place → Board P
  | .large offset => { board with large := board.large.set offset byte }
  | .small offset => { board with small := board.small.set offset byte }
  | .registers => board.writeRegister address byte
  | .bios _ | .cartridge _ | .nothing | .video | .backup => board

theorem state_writeAt_byte (board : Board P) {address : Word} (h : Control.Bytewise address)
    (byte : UInt8) :
    (board.writeAt address byte.toUInt32 .byte).2 =
      board.putByte address byte (board.control.place address) := by
  have halign : Width.byte.align address = address := UInt32.and_neg_one
  obtain ⟨hvideo, hbackup⟩ := h.place_ne board.control .byte
  rw [halign] at hvideo hbackup
  have hset {size : Nat} (memory : Memory size) (offset : Nat) :
      memory.store offset byte.toUInt32 .byte = memory.set offset byte := by
    show memory.set (offset + 0) (lane byte.toUInt32 0) = _
    rw [Nat.add_zero, lane_toUInt32]
  unfold writeAt
  simp only [halign]
  cases hplace : board.control.place address with
  | large offset =>
    simp only [hset]
    rfl
  | small offset =>
    simp only [hset]
    rfl
  | registers =>
    show board.writeRegister (address + 0) (lane byte.toUInt32 0) = _
    rw [UInt32.add_zero, lane_toUInt32]
    rfl
  | video => exact absurd hplace hvideo
  | backup => exact absurd hplace hbackup
  | _ => rfl

/-- **Writes.** A write does what byte writes of its lanes do. -/
theorem state_writeAt_eq_writeBytes (board : Board P) {address : Word}
    (h : Control.Bytewise address) (value : Word) (width : Width) :
    (board.writeAt address value width).2 =
      board.writeBytes (width.align address) value (List.range width.lanes) := by
  obtain ⟨hvideo, hbackup⟩ := h.place_ne board.control width
  have hbyte (state : Board P) : ∀ index ∈ List.range width.lanes,
      (state.writeAt (width.align address + UInt32.ofNat index) (lane value index).toUInt32
          .byte).2 =
        state.putByte (width.align address + UInt32.ofNat index) (lane value index)
          ((state.control.place (width.align address)).lane index) := by
    intro index hindex
    rw [← state.control.place_lane (List.mem_range.mp hindex)]
    exact state.state_writeAt_byte (h.lane (List.mem_range.mp hindex)) _
  unfold writeAt
  simp only
  cases hplace : board.control.place (width.align address) with
  | large offset =>
    refine (writeBytes_eq_foldl (fun large => { board with large })
      (fun large index => large.set (offset + index) (lane value index))
      (fun large index hindex => ?_) board.large).symm
    rw [hbyte _ index hindex, hplace]
    rfl
  | small offset =>
    refine (writeBytes_eq_foldl (fun small => { board with small })
      (fun small index => small.set (offset + index) (lane value index))
      (fun small index hindex => ?_) board.small).symm
    rw [hbyte _ index hindex, hplace]
    rfl
  | registers =>
    refine (writeBytes_eq_foldl id
      (fun board index => board.writeRegister (width.align address + UInt32.ofNat index)
        (lane value index)) (fun state index hindex => ?_) board).symm
    rw [id, hbyte state index hindex, Control.place_registers hplace]
    rfl
  | video => exact absurd hplace hvideo
  | backup => exact absurd hplace hbackup
  | _ =>
    -- Nothing takes the value, and so nothing takes any of its lanes.
    refine (writeBytes_eq_foldl (fun _ : Unit => board) (fun state _ => state)
      (fun _ index hindex => ?_) ()).symm
    rw [hbyte board index hindex, hplace]
    rfl

/-! ## The view from the outside -/

/-- With both switches of work RAM as after a reset, the bus has the bytes of memory. -/
theorem busByte_of_peek {board : Board P} {address : Word} {byte : UInt8}
    (hram : board.control.ramEnabled = Control.initial.ramEnabled)
    (hlarge : board.control.largeRamEnabled = Control.initial.largeRamEnabled)
    (h : board.peek address = some byte) :
    Control.Bytewise address ∧ board.busByte address = byte := by
  have hplace (large : Bool) : board.control.ramPlace large address =
      if large then .large (address &&& 0x3FFFF).toNat else .small (address &&& 0x7FFF).toNat := by
    unfold Control.ramPlace
    rw [hram, hlarge]
    cases large <;> rfl
  unfold peek at h
  unfold Control.Bytewise busByte Control.place
  simp only [hplace]
  generalize (address >>> 24).toNat = region at h ⊢
  split at h
  case h_1 =>
    split_ifs at h with hbios
    rw [if_pos hbios]
    exact ⟨by decide, Option.some.inj h⟩
  case h_2 | h_3 => exact ⟨by decide, Option.some.inj h⟩
  case h_10 => exact nomatch h
  -- Six regions of the cartridge.
  all_goals
    dsimp only at h
    split_ifs at h
    exact ⟨by decide, Option.some.inj h⟩

variable {board : Board P}

theorem data_readAt_byte (hquiet : board.ReadsQuietly) {address : Word}
    (h : Control.Bytewise address) (opcode : Bool) :
    (board.readAt opcode address .byte).1.data = (board.busByte address).toUInt32 := by
  have hself : Width.byte.align address = address := UInt32.and_neg_one
  have halign : Width.byte.align address + UInt32.ofNat 0 = address := by
    rw [hself]
    exact UInt32.add_zero address
  refine (data_readAt_eq_busByte hquiet h opcode .byte).trans ?_
  show (board.busByte (Width.byte.align address + UInt32.ofNat 0)).toUInt32 = _
  rw [halign]

/-- The value of the bytes that are read one after the other from an address on. -/
def joined (board : Board P) (base : Word) (width : Width) : Word :=
  (List.range width.lanes).foldl (fun sofar index =>
    sofar ||| (Bus.read board (base + UInt32.ofNat index) .byte).1.data <<<
      UInt32.ofNat (8 * index)) 0

theorem data_readAt_eq_joined (hquiet : board.ReadsQuietly) {address : Word}
    (h : Control.Bytewise address) (opcode : Bool) (width : Width) :
    (board.readAt opcode address width).1.data = board.joined (width.align address) width := by
  rw [data_readAt_eq_busByte hquiet h, Width.assemble_eq_foldl, joined]
  refine List.foldl_ext _ _ _ fun sofar index hindex => ?_
  have hbyte : (Bus.read board (width.align address + UInt32.ofNat index) .byte).1.data = _ :=
    data_readAt_byte hquiet (h.lane (List.mem_range.mp hindex)) false
  rw [hbyte]

/-- **Wide accesses.** Away from video memory and the backup, a read of some bytes is what reads of
each of them put together, as data or as an opcode, and changes nothing where reads of registers
have no side effects. A write does what writes of its bytes do in ascending order. With work RAM
switched as after a reset, a byte that memory shows without an access is the one that is read. -/
theorem accesses_bytewise (hquiet : board.ReadsQuietly) :
    (∀ address width, Control.Bytewise address →
      (Bus.read board address width).1.data = board.joined (width.align address) width ∧
      (Bus.read board address width).2 = board ∧
      (Bus.fetch board address width).1.data = (Bus.read board address width).1.data ∧
      (Bus.fetch board address width).2 = (Bus.read board address width).2 ∧
      ∀ value, (Bus.write board address value width).2 =
        (List.range width.lanes).foldl (fun board index =>
          (Bus.write board (width.align address + UInt32.ofNat index)
            (lane value index).toUInt32 .byte).2) board) ∧
    (board.control.ramEnabled = Control.initial.ramEnabled →
      board.control.largeRamEnabled = Control.initial.largeRamEnabled →
      ∀ address byte, board.peek address = some byte →
        (Bus.read board address .byte).1.data = byte.toUInt32) := by
  refine ⟨fun address width h => ?_, fun hram hlarge address byte hpeek => ?_⟩
  · have hread (opcode : Bool) := data_readAt_eq_joined hquiet h opcode width
    have hstate (opcode : Bool) := state_readAt hquiet h opcode width
    exact ⟨hread false, hstate false, (hread true).trans (hread false).symm,
      (hstate true).trans (hstate false).symm,
      fun value => state_writeAt_eq_writeBytes board h value width⟩
  · obtain ⟨h, hbyte⟩ := busByte_of_peek hram hlarge hpeek
    exact (data_readAt_byte hquiet h false).trans (congrArg UInt8.toUInt32 hbyte)

/-- A word beside the registers of the control block is the one in the fetch slot, one that is
written to them is taken byte by byte, and the cartridge shows the byte that is read from it. -/
theorem accesses_bytewise_blank :
    let board : Board Detached := { blank with prefetched := 0xCAFEF00D }
    board.ReadsQuietly ∧
      Control.Bytewise 0x0400020E ∧
      (Bus.read board 0x0400020E .word).1.data = 0xCAFEF00D ∧
      (Bus.read board 0x0400020E .byte).1.data = 0xFE ∧
      Control.Bytewise 0x04000202 ∧
      (Bus.write board 0x04000202 0xFFFFFFFF .word).2.control.enabled = 0x3FFF ∧
      board.peek 0x08000000 = some 0xFF ∧
      (Bus.read board 0x08000000 .byte).1.data = 0xFF := by
  intro board
  have hquiet : board.ReadsQuietly := fun _ _ => rfl
  obtain ⟨hwide, hpeek⟩ := accesses_bytewise hquiet
  have hbeside : Control.Bytewise 0x0400020E := by decide
  have henable : Control.Bytewise 0x04000202 := by decide
  have hshown : board.peek 0x08000000 = some 0xFF := by decide +kernel
  obtain ⟨hword, -⟩ := hwide 0x0400020E .word hbeside
  obtain ⟨hbyte, -⟩ := hwide 0x0400020E .byte hbeside
  obtain ⟨-, -, -, -, hwrite⟩ := hwide 0x04000202 .word henable
  refine ⟨hquiet, hbeside, hword.trans (by decide +kernel), hbyte.trans (by decide +kernel),
    henable, ?_, hshown, hpeek rfl rfl _ _ hshown⟩
  rw [hwrite 0xFFFFFFFF]
  decide +kernel

end Board

end Handheld
