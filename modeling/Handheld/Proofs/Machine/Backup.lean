import Handheld.Proofs.Machine.Watched
import Handheld.Proofs.Machine.WorkRam
import Handheld.Proofs.Processor.SingleTransfers

/-!
# The cartridge backup

The backup is on a bus of single bytes: an access of any width is one of one byte. The board takes
the byte and the lane that the address selects, but the processor aligns the address down first, so
that a load or store gets to the first byte of its width and carries the lowest lane.

1. `readAt_backup` and `writeAt_backup` are the accesses of the board, and `loadValue_backup` and
   `storeValue_backup` those of the processor.
2. `Processor.single?` is what an instruction is about to move, and at which address.
   `Thumb.IsSingleTransfer` are the 16-bit opcodes that move a value.
3. `transfer_loadsBackup` and `transfer_storesBackup` follow a transfer to the backup.
4. `backup_aligned` is one step over any such opcode, and `backup_misaligned` sets it beside the
   access of the board at the same address.
-/

namespace Handheld

/-! ## Accesses of the board -/

/-- An address of the cartridge backup. -/
def Control.InBackup (address : Word) : Prop :=
  0x0E ≤ (address >>> 24).toNat ∧ (address >>> 24).toNat ≤ 0x0F

instance : DecidablePred Control.InBackup := fun _ => inferInstanceAs (Decidable (_ ∧ _))

theorem Control.InBackup.align {address : Word} (h : InBackup address) (width : Width) :
    InBackup (width.align address) := by
  unfold InBackup
  rwa [width.region_align]

theorem Control.InBackup.place {address : Word} (h : InBackup address) (control : Control) :
    control.place address = .backup := by
  unfold InBackup at h
  unfold Control.place
  have hregion : (address >>> 24).toNat = 0x0E ∨ (address >>> 24).toNat = 0x0F := by omega
  rcases hregion with hregion | hregion <;> rw [hregion] <;> rfl

/-- What a read of the backup makes of a byte. -/
def repeated (byte : UInt8) (width : Width) : Word :=
  byte.toUInt32 * 0x01010101 &&& width.mask

namespace Board

variable {P : Type} [Peripherals P] {board : Board P} {address : Word} {width : Width}

/-- One read of a byte of the backup, which is zero where nothing backs it. -/
def readBackup (board : Board P) (address : Word) : UInt8 × Board P :=
  match Peripherals.readRegister .backup address board.peripherals with
  | (byte, peripherals) => (byte.getD 0, { board with peripherals })

/-- One write of a byte of the backup. -/
def writeBackup (board : Board P) (address : Word) (byte : UInt8) : Board P :=
  board.modifyPeripherals (Peripherals.writeRegister .backup address byte)

/-- A read of any width repeats the byte at its address. -/
theorem readAt_backup (h : Control.InBackup address) (opcode : Bool) :
    board.readAt opcode address width =
      (⟨repeated (board.readBackup address).1 width, board.control.backupWait⟩,
        (board.readBackup address).2) := by
  unfold readAt
  simp only [(h.align width).place]
  rfl

/-- A write of any width carries the lane that its address selects. -/
theorem writeAt_backup (h : Control.InBackup address) (value : Word) :
    board.writeAt address value width =
      (board.control.backupWait,
        board.writeBackup address (lane value (address.toNat % width.lanes))) := by
  unfold writeAt
  simp only [(h.align width).place]
  unfold backupLane
  rw [toNat_misaligned]
  rfl

end Board

/-! ## Values -/

/-- A number with a sign has the lowest byte of the bits that it extends. -/
theorem lane_signExtend {bits : Word} {n s : Nat} (hn : 8 ≤ n) (hs : n + s = 32)
    (hb : bits.toNat = n) (w : Word) : lane (signExtend bits w) 0 = lane w 0 := by
  have hdvd : (2 ^ 8 : Int) ∣ (2 ^ n : Nat) := by
    exact_mod_cast Nat.pow_dvd_pow 2 hn
  have hvalue : ((signExtend bits w).toNat : Int) % 2 ^ 8 = (w.toNat : Int) % 2 ^ 8 := by
    rw [toNat_eq_toInt, toInt_signExtend (by omega) hs hb,
      Int.emod_emod_of_dvd _ (show (2 ^ 8 : Int) ∣ 2 ^ 32 by decide),
      ← Int.emod_emod_of_dvd _ hdvd, Int.bmod_emod, Int.emod_emod_of_dvd _ hdvd]
  rw [← UInt8.toNat_inj, toNat_lane _ (by decide), toNat_lane _ (by decide)]
  omega

theorem toNat_repeated (byte : UInt8) (width : Width) :
    (repeated byte width).toNat =
      ofDigits fun index => if index < width.lanes then byte.toNat else 0 := by
  have hbyte := byte.toNat_lt
  have hproduct : (byte.toUInt32 * 0x01010101).toNat = byte.toNat * 0x01010101 := by
    rw [UInt32.toNat_mul, UInt8.toNat_toUInt32]
    exact Nat.mod_eq_of_lt (by show _ * 0x01010101 < _; omega)
  rw [repeated, Width.toNat_and_mask, hproduct, ofDigits]
  cases width with
  | byte =>
    show _ % 2 ^ 8 = byte.toNat + 2 ^ 8 * 0 + 2 ^ 16 * 0 + 2 ^ 24 * 0
    omega
  | halfword =>
    show _ % 2 ^ 16 = byte.toNat + 2 ^ 8 * byte.toNat + 2 ^ 16 * 0 + 2 ^ 24 * 0
    omega
  | word =>
    show _ % 2 ^ 32 =
      byte.toNat + 2 ^ 8 * byte.toNat + 2 ^ 16 * byte.toNat + 2 ^ 24 * byte.toNat
    omega

theorem lane_repeated (byte : UInt8) {width : Width} {index : Nat} (h : index < width.lanes) :
    lane (repeated byte width) index = byte := by
  have hbyte := byte.toNat_lt
  have hindex : index < 4 := h.trans_le width.lanes_le
  rw [← UInt8.toNat_inj, toNat_lane _ hindex, toNat_repeated,
    digit_ofDigits (fun i => by split <;> omega) hindex, if_pos h]

/-- A rotation by whole lanes brings another lane first. -/
theorem lane_rotateRight (w : Word) {amount : Word} {places : Nat} (hp : places < 4)
    (ha : amount.toNat = 8 * places) : lane (rotateRight w amount) 0 = lane w places := by
  have htop : 2 ^ (32 - 8 * places) = 2 ^ (24 - 8 * places) * 2 ^ 8 := by
    rw [← Nat.pow_add]
    congr 1
    omega
  rw [← UInt8.toNat_inj, toNat_lane _ (by decide), toNat_lane _ hp,
    toNat_rotateRight _ _ ha (by omega), htop, ← Nat.mul_assoc, Nat.mul_zero, Nat.pow_zero,
    Nat.div_one, Nat.add_mul_mod_self_right]

/-- A repeated byte comes first however far a load rotates it. -/
theorem lane_realigned (address : Word) (width : Width) (rotates : Bool) (byte : UInt8) :
    lane (if rotates then rotateRight (repeated byte width) ((address &&& (width.bytes - 1)) * 8)
      else repeated byte width) 0 = byte := by
  cases rotates with
  | false => exact lane_repeated byte width.lanes_pos
  | true =>
    have hplaces : address.toNat % width.lanes < width.lanes := Nat.mod_lt _ width.lanes_pos
    have hrotated := lane_rotateRight (repeated byte width) (hplaces.trans_le width.lanes_le)
      (toNat_rotation width address)
    exact hrotated.trans (lane_repeated byte hplaces)

/-- A repeated byte comes first wherever a load begins, with or without a sign. -/
theorem lane_extend (address : Word) (width : Width) (realign signed : Bool) (byte : UInt8) :
    lane (extend address width realign signed (repeated byte width)) 0 = byte := by
  have hmask : repeated byte width &&& width.mask = repeated byte width := and_and_self _ _
  have hvalue := lane_realigned address width (realign && address &&& (width.bytes - 1) != 0) byte
  have hbyte (value : Word) : lane (signExtend 8 value) 0 = lane value 0 :=
    lane_signExtend (s := 24) (by decide) rfl rfl value
  have hhalfword (value : Word) : lane (signExtend 16 value) 0 = lane value 0 :=
    lane_signExtend (s := 16) (by decide) rfl rfl value
  unfold extend
  simp only [hmask]
  generalize (if (realign && address &&& (width.bytes - 1) != 0) = true then
    rotateRight (repeated byte width) ((address &&& (width.bytes - 1)) * 8)
      else repeated byte width) = value at hvalue ⊢
  cases signed with
  | false => rwa [if_neg Bool.false_ne_true]
  | true =>
    rw [if_pos rfl]
    cases width with
    | byte => exact (hbyte value).trans hvalue
    | halfword =>
      simp only
      split
      · exact (hbyte value).trans hvalue
      · exact (hhalfword value).trans hvalue
    | word => exact hvalue

/-! ## Accesses of the processor -/

namespace Processor

variable {P : Type} [Peripherals P] (board : Board P) {address : Word}

/-- A load reads the first byte of its width, whichever its address selects. -/
theorem loadValue_backup (h : Control.InBackup address) (width : Width) (realign signed : Bool) :
    ∃ value, lane value 0 = (board.readBackup (width.align address)).1 ∧
      loadValue board address width realign signed =
        (⟨value, board.control.backupWait⟩, (board.readBackup (width.align address)).2) := by
  have hread : Bus.read board (width.align address) width = _ :=
    Board.readAt_backup (h.align width) false
  refine ⟨_, lane_extend address width realign signed _, ?_⟩
  unfold loadValue
  rw [hread]

/-- A store carries the lowest lane, whichever its address selects. -/
theorem storeValue_backup (h : Control.InBackup address) (value : Word) (width : Width) :
    storeValue board address value width =
      (board.control.backupWait, board.writeBackup (width.align address) (lane value 0)) := by
  have hzero : (width.align address).toNat % width.lanes = 0 :=
    Width.mod_bytes_iff.mp (width.align_mod address)
  have hwrite : storeValue board address value width = _ :=
    Board.writeAt_backup (h.align width) (value &&& width.mask)
  rw [hwrite, hzero, Width.lane_and_mask value width.lanes_pos]

/-! ## Transfers -/

/-- What an instruction is about to move as a single value, and its effective address. -/
def single? (p : Processor) : Instruction → Option (Transfer × Word)
  | .transfer moved how offset =>
    some (moved, how.effective (p.get how.base) (offset.evaluate p).value)
  | .loadLiteral destination offset =>
    some (⟨true, destination, .word, false, false⟩, p.literalBase + offset)
  | _ => none

/-- What a transfer stores. -/
def stored (p : Processor) (moved : Transfer) : Word :=
  p.getAhead moved.register p.width.bytes

theorem transfer_storesBackup (p : Processor) (h : Control.InBackup address) {moved : Transfer}
    (hl : moved.load = false) :
    (p.transfer board address moved).bus =
      board.writeBackup (moved.width.align address) (lane (p.stored moved) 0) := by
  unfold transfer
  simp only [hl, storeValue_backup board h, Bool.false_eq_true, if_false]
  rfl

/-- A load that reads one byte of the backup, the lowest of the value that it puts into its register
or goes on at. -/
def LoadsBackup (p : Processor) (board : Board P) (moved : Transfer) (address : Word)
    (q : Processor) (after : Board P) : Prop :=
  ∃ value, lane value 0 = (board.readBackup address).1 ∧
    if moved.register = Register.pc then
      q.nextPc = p.width.align value ∧
        after = ((p.set moved.register value).refill (board.readBackup address).2 value).bus
    else q.get moved.register = value ∧ after = (board.readBackup address).2

theorem transfer_loadsBackup (p : Processor) (h : Control.InBackup address) {moved : Transfer}
    (hl : moved.load = true) :
    LoadsBackup p board moved (moved.width.align address)
      (p.transfer board address moved).processor (p.transfer board address moved).bus := by
  obtain ⟨value, hvalue, hload⟩ :=
    loadValue_backup board h moved.width moved.realign moved.signed
  refine ⟨value, hvalue, ?_⟩
  unfold transfer
  simp only [hl, hload, if_true]
  split
  case isTrue hpc =>
    have hset : (p.set moved.register value).pc = value := pc_set p hpc value
    unfold completePcWrite
    simp only [Bool.false_eq_true, if_false, hset]
    exact ⟨nextPc_refill (p.set moved.register value) _ value, rfl⟩
  case isFalse hpc =>
    refine ⟨?_, rfl⟩
    show (p.set moved.register value).get moved.register = value
    rw [get_set, if_pos rfl]

/-- Moving the base afterwards changes neither what was loaded nor where the program goes on. -/
theorem LoadsBackup.set {p q : Processor} {board after : Board P} {moved : Transfer}
    (h : LoadsBackup p board moved address q after) {base : Register} (hpc : base ≠ Register.pc)
    (hbase : moved.register ≠ base) (value : Word) :
    LoadsBackup p board moved address (q.set base value) after := by
  obtain ⟨loaded, hbyte, hloaded⟩ := h
  refine ⟨loaded, hbyte, ?_⟩
  split
  case isTrue hregister =>
    rw [if_pos hregister] at hloaded
    refine ⟨?_, hloaded.2⟩
    rw [← hloaded.1]
    exact congrArg (· - q.width.bytes) (RegisterFile.pc_set_of_ne _ _ hpc)
  case isFalse hregister =>
    rw [if_neg hregister] at hloaded
    rwa [get_set, if_neg hbase]

/-- An instruction that moves a single value does no more than move its base afterwards. -/
theorem execute_single {β : Type} [Bus β] {p : Processor} {i : Instruction} {moved : Transfer}
    (h : p.single? i = some (moved, address)) (bus : β) :
    (p.execute bus i).bus = (p.transfer bus address moved).bus ∧
      ((p.execute bus i).processor = (p.transfer bus address moved).processor ∨
        ∃ base value, base ≠ Register.pc ∧ ¬ (moved.load = true ∧ moved.register = base) ∧
          (p.execute bus i).processor =
            (p.transfer bus address moved).processor.set base value) := by
  cases i with
  | transfer moved how offset =>
    cases h
    show (p.indexedTransfer bus _ how _).bus = _ ∧ ((p.indexedTransfer bus _ how _).processor = _ ∨
      ∃ base value, _ ∧ _ ∧ (p.indexedTransfer bus _ how _).processor = _)
    unfold indexedTransfer
    extract_lets base shifted outcome clobbered
    split
    case isTrue hback =>
      simp only [clobbered, Bool.and_eq_true, Bool.not_eq_true', Bool.and_eq_false_iff,
        decide_eq_true_eq, decide_eq_false_iff_not] at hback
      exact ⟨rfl, .inr ⟨how.base, shifted, hback.2, by grind, rfl⟩⟩
    case isFalse => exact ⟨rfl, .inl rfl⟩
  | loadLiteral destination offset =>
    cases h
    exact ⟨rfl, .inl rfl⟩
  | _ => cases h

/-- An instruction that moves a single value to or from the backup. -/
theorem step_backup {p : Processor} {board : Board P} {i : Instruction} {moved : Transfer}
    (hi : p.Retires board i) (hm : (p.advance board).1.single? i = some (moved, address))
    (h : Control.InBackup address) :
    (moved.load = false →
      (p.step board).bus = (p.advance board).2.writeBackup (moved.width.align address)
        (lane ((p.advance board).1.stored moved) 0)) ∧
    (moved.load = true →
      LoadsBackup (p.advance board).1 (p.advance board).2 moved (moved.width.align address)
        (p.step board).processor (p.step board).bus) := by
  obtain ⟨hbus, hprocessor⟩ := execute_single hm (p.advance board).2
  rw [step_of_retires hi]
  refine ⟨fun hl => hbus.trans (transfer_storesBackup _ _ h hl), fun hl => ?_⟩
  have hloads := transfer_loadsBackup (p.advance board).2 (p.advance board).1 h hl
  have hmoved : LoadsBackup (p.advance board).1 (p.advance board).2 moved
      (moved.width.align address) ((p.advance board).1.execute (p.advance board).2 i).processor
      ((p.advance board).1.execute (p.advance board).2 i).bus := by
    rw [hbus]
    obtain hsame | ⟨base, value, hpc, hbase, hset⟩ := hprocessor
    · rw [hsame]
      exact hloads
    · rw [hset]
      exact hloads.set hpc (fun he => hbase ⟨hl, he⟩) value
  exact hmoved

end Processor

/-! ## Opcodes -/

/-- The 16-bit opcodes that load or store a single value: at a register, at the program counter, at
a constant, in halfwords or on the stack. -/
def Thumb.IsSingleTransfer (opcode : Word) : Prop :=
  opcode.toNat / 2 ^ 12 % 16 = 5 ∨ opcode.toNat / 2 ^ 11 % 32 = 9 ∨
    opcode.toNat / 2 ^ 13 % 8 = 3 ∨ opcode.toNat / 2 ^ 13 % 8 = 4

namespace Processor

theorem single?_arm (p : Processor) {opcode : Word} (h : Arm.IsSingleTransfer opcode) :
    (p.single? (Arm.decodeBody opcode)).isSome = true := by
  obtain ⟨single, register, how, offset, hfields⟩ := h.fields
  rw [Arm.decodeBody_single hfields]
  rfl

theorem single?_thumb (p : Processor) {opcode : Word} (h : Thumb.IsSingleTransfer opcode) :
    (Thumb.decode opcode).1 = .always ∧ (p.single? (Thumb.decode opcode).2).isSome = true := by
  have hgroup : (field opcode 13 7).toNat = opcode.toNat / 2 ^ 13 % 8 :=
    toNat_field opcode 13 3 rfl rfl
  unfold Thumb.decode
  rw [hgroup]
  rcases h with h12 | h11 | h13 | h13
  · have h2 : opcode.toNat / 2 ^ 13 % 8 = 2 := by omega
    have hb12 : bit opcode 12 = true := bit_set 12 rfl (by omega)
    rw [h2]
    simp only [Thumb.decodeRegisterGroup, hb12, if_true]
    exact ⟨trivial, rfl⟩
  · have h2 : opcode.toNat / 2 ^ 13 % 8 = 2 := by omega
    have hb12 : bit opcode 12 = false := bit_clear 12 rfl (by omega)
    have hb11 : bit opcode 11 = true := bit_set 11 rfl (by omega)
    rw [h2]
    simp only [Thumb.decodeRegisterGroup, hb12, hb11, Bool.false_eq_true, if_true, if_false]
    exact ⟨trivial, rfl⟩
  · rw [h13]
    exact ⟨rfl, rfl⟩
  · rw [h13]
    simp only [Thumb.decodeHalfwordGroup]
    split <;> exact ⟨trivial, rfl⟩

/-- About to load or store a single value, under a condition that holds. -/
def MovesSingle (p : Processor) : Prop :=
  if p.thumb then Thumb.IsSingleTransfer p.pipeline.decoded
  else Arm.IsSingleTransfer p.pipeline.decoded ∧
    (Condition.ofCode (p.pipeline.decoded >>> 28)).holds p.status.flags = true

theorem MovesSingle.retires {β : Type} [Bus β] {p : Processor} (h : p.MovesSingle) (bus : β) :
    ∃ i moved address, p.Retires bus i ∧
      (p.advance bus).1.single? i = some (moved, address) := by
  unfold MovesSingle at h
  cases ht : p.thumb with
  | false =>
    rw [ht, if_neg Bool.false_ne_true] at h
    obtain ⟨⟨moved, address⟩, hm⟩ :=
      Option.isSome_iff_exists.mp (single?_arm (p.advance bus).1 h.1)
    exact ⟨_, moved, address, retires_arm ht h.2 rfl, hm⟩
  | true =>
    rw [ht, if_pos rfl] at h
    obtain ⟨halways, hsome⟩ := single?_thumb (p.advance bus).1 h
    obtain ⟨⟨moved, address⟩, hm⟩ := Option.isSome_iff_exists.mp hsome
    refine ⟨(Thumb.decode p.pipeline.decoded).2, moved, address, ?_, hm⟩
    unfold Retires
    rw [current_advance, ht, if_pos rfl, halways]
    exact ⟨rfl, rfl⟩

end Processor

/-! ## Both at one address -/

/-- **Backup.** A step over a load or store of a single value in the backup makes one access there,
at its effective address aligned down to the width. A store carries the lowest lane of its register,
and a load gives a value whose lowest byte is the one read. The board itself takes the address as it
is, and the lane that it selects; so the two agree on multiples of the width. -/
theorem Board.backup_aligned {P : Type} [Peripherals P] (board : Board P) :
    (∀ p : Processor, p.MovesSingle → ∃ i moved address, p.Retires board i ∧
      (p.advance board).1.single? i = some (moved, address) ∧
      (Control.InBackup address →
        (moved.load = false →
          (p.step board).bus = (p.advance board).2.writeBackup (moved.width.align address)
            (lane ((p.advance board).1.stored moved) 0)) ∧
        (moved.load = true →
          Processor.LoadsBackup (p.advance board).1 (p.advance board).2 moved
            (moved.width.align address) (p.step board).processor (p.step board).bus)) ∧
      (address.toNat % moved.width.lanes = 0 → moved.width.align address = address)) ∧
    ∀ address, Control.InBackup address → ∀ width value,
      (Bus.write board address value width).2 =
        board.writeBackup address (lane value (address.toNat % width.lanes)) ∧
      lane (Bus.read board address width).1.data 0 = (board.readBackup address).1 ∧
      (Bus.read board address width).2 = (board.readBackup address).2 := by
  refine ⟨fun p hp => ?_, fun address h width value => ?_⟩
  · obtain ⟨i, moved, address, hi, hm⟩ := hp.retires board
    exact ⟨i, moved, address, hi, hm, Processor.step_backup hi hm,
      fun hmod => Width.align_of_mod (Width.mod_bytes_iff.mpr hmod)⟩
  · have hread : Bus.read board address width = _ := readAt_backup h false
    refine ⟨congrArg Prod.snd (writeAt_backup h value), ?_, congrArg Prod.snd hread⟩
    rw [hread]
    exact lane_repeated _ width.lanes_pos

namespace Backup

/-- About to execute an opcode, with a word to store and an address three bytes into the backup. -/
def before (opcode : Word) : Processor :=
  { (Processor.powerOn.set (Register.ofNat 0) 0x12345678).set (Register.ofNat 1) 0x0E000003 with
    pipeline := ⟨0, opcode, 0⟩ }

/-- A board with nothing plugged in, under watch. -/
def board : Board (Watched Detached) :=
  { Board.blank with peripherals := ⟨⟨⟩, []⟩ }

/-- `STR R0, [R1]` and `LDR R0, [R1]`. -/
def storing : Processor :=
  before 0xE5810000

@[inherit_doc storing]
def loading : Processor :=
  before 0xE5910000

theorem storing_movesSingle : storing.MovesSingle := by
  refine ⟨.inl ?_, by decide⟩
  unfold Arm.IsWordTransfer
  decide

theorem loading_movesSingle : loading.MovesSingle := by
  refine ⟨.inl ?_, by decide⟩
  unfold Arm.IsWordTransfer
  decide

theorem storing_single? :
    (storing.advance board).1.single? (storing.advance board).1.current.2 =
      some (⟨false, Register.ofNat 0, .word, true, false⟩, 0x0E000003) := by
  decide +kernel

theorem loading_single? :
    (loading.advance board).1.single? (loading.advance board).1.current.2 =
      some (⟨true, Register.ofNat 0, .word, true, false⟩, 0x0E000003) := by
  decide +kernel

end Backup

/-- A processor that stores a word three bytes into the backup writes its lowest lane at a multiple
of the width, where the board itself writes the highest lane at the address. -/
theorem Board.backup_misaligned :
    Backup.storing.MovesSingle ∧
    (Backup.storing.advance Backup.board).1.single?
        (Backup.storing.advance Backup.board).1.current.2 =
      some (⟨false, Register.ofNat 0, .word, true, false⟩, 0x0E000003) ∧
    Control.InBackup 0x0E000003 ∧
    (Backup.storing.step Backup.board).bus.peripherals.contacts =
      [.access (.writeRegister .backup 0x0E000000 0x78)] ∧
    (Bus.write Backup.board 0x0E000003 0x12345678 .word).2.peripherals.contacts =
      [.access (.writeRegister .backup 0x0E000003 0x12)] :=
  ⟨Backup.storing_movesSingle, Backup.storing_single?, by decide, by decide +kernel,
    by decide +kernel⟩

/-- Three bytes into the backup, a word is stored at the first byte and loaded from it. -/
theorem Board.backup_aligned_word :
    (Backup.storing.step Backup.board).bus =
      (Backup.storing.advance Backup.board).2.writeBackup 0x0E000000 0x78 ∧
    Processor.LoadsBackup (Backup.loading.advance Backup.board).1
      (Backup.loading.advance Backup.board).2 ⟨true, Register.ofNat 0, .word, true, false⟩
      0x0E000000 (Backup.loading.step Backup.board).processor
      (Backup.loading.step Backup.board).bus := by
  have hbackup : Control.InBackup 0x0E000003 := by decide
  constructor
  · obtain ⟨i, moved, address, ⟨rfl, -⟩, hm, hmoves, -⟩ :=
      (Board.backup_aligned Backup.board).1 _ Backup.storing_movesSingle
    cases hm.symm.trans Backup.storing_single?
    exact (hmoves hbackup).1 rfl
  · obtain ⟨i, moved, address, ⟨rfl, -⟩, hm, hmoves, -⟩ :=
      (Board.backup_aligned Backup.board).1 _ Backup.loading_movesSingle
    cases hm.symm.trans Backup.loading_single?
    exact (hmoves hbackup).2 rfl

end Handheld
