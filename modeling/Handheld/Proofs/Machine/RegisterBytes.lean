import Handheld.Proofs.Machine.Requests
import Handheld.Proofs.Word

/-!
# Register bytes

All registers of the control block but two keep what is written to them, byte by byte and as far as
their bits can be written: the request register only loses bits to a write, and the power-down
register reads as zero.

1. `RegisterByte` are the bytes that keep what is written, and `RegisterByte.At` are their
   addresses. `home_eq_address_iff` finds them behind the mirrors.
2. `held_write` says that a write changes the byte at its address and no other, and
   `sameRegisters_write` that it changes nothing where there is none.
3. `registers_read_back` carries this over to runs.
-/

namespace Handheld

/-! ## Addresses -/

/-- A byte of a control register that keeps what is written to it. -/
inductive RegisterByte
  | enableLow
  | enableHigh
  | waitLow
  | waitHigh
  | master
  | postBoot
  | scratch
  | memoryLow
  | memoryHigh
  deriving DecidableEq

namespace RegisterByte

/-- The address of a byte, the lowest where it has many. -/
def address : RegisterByte → Word
  | enableLow => Control.enableAddress
  | enableHigh => Control.enableAddress + 1
  | waitLow => Control.waitAddress
  | waitHigh => Control.waitAddress + 1
  | master => Control.masterAddress
  | postBoot => Control.postBootAddress
  | scratch => 0x04000410
  | memoryLow => Control.memoryAddress
  | memoryHigh => Control.memoryAddress + 3

/-- The bits of a byte that can be written. -/
def writable : RegisterByte → UInt8
  | enableLow | waitLow | scratch | memoryHigh => 0xFF
  | enableHigh => 0x3F
  | waitHigh => 0x5F
  | master | postBoot => 0x01
  | memoryLow => 0x2F

/-- The byte after a reset. -/
def initial : RegisterByte → UInt8
  | memoryLow => 0x20
  | memoryHigh => 0x0D
  | _ => 0

/-- Whether a byte repeats throughout its page. -/
def mirrored : RegisterByte → Bool
  | memoryLow | memoryHigh => true
  | _ => false

/-- Whether a byte shows at an address: a mirrored one does every 64K of its page of 16M, and any
other at its own address alone. -/
def At (byte : RegisterByte) (address : Word) : Prop :=
  if byte.mirrored then
    address.toNat / 2 ^ 24 = byte.address.toNat / 2 ^ 24 ∧
      address.toNat % 2 ^ 16 = byte.address.toNat % 2 ^ 16
  else address = byte.address

instance (byte : RegisterByte) : DecidablePred byte.At := fun address =>
  inferInstanceAs (Decidable (if byte.mirrored = true then
    address.toNat / 2 ^ 24 = byte.address.toNat / 2 ^ 24 ∧
      address.toNat % 2 ^ 16 = byte.address.toNat % 2 ^ 16
    else address = byte.address))

theorem initial_and_writable (byte : RegisterByte) :
    byte.initial &&& byte.writable = byte.initial := by
  cases byte <;> rfl

end RegisterByte

namespace Control

/-- What is left of an address that has lost its mirrors. -/
theorem toNat_and_mirrors (address : Word) :
    (address &&& 0xFF00FFFF).toNat =
      address.toNat % 2 ^ 16 + 2 ^ 24 * (address.toNat / 2 ^ 24) := by
  have hlt := address.toNat_lt
  have hlow : (address &&& 0xFFFF).toNat = address.toNat % 2 ^ 16 :=
    (UInt32.toNat_and ..).trans (Nat.and_two_pow_sub_one_eq_mod address.toNat 16)
  have hsplit : address &&& (0xFF00FFFF : Word) =
      address &&& (0xFFFF : Word) ||| (lane address 3).toUInt32 <<< (24 : Word) := by
    have htop : (lane address 3).toUInt32 <<< (24 : Word) = address &&& (0xFF : Word) <<< 24 :=
      lane_shiftLeft address 3
    rw [htop, ← and_or]
    rfl
  rw [hsplit, toNat_or_shiftLeft _ 24 rfl (by decide) (by omega), hlow,
    toNat_lane _ (by decide)]
  omega

/-- A register that is mirrored has all the addresses that lose their mirrors to it. -/
theorem home_eq_iff_of_mirrored {address register : Word}
    (h : register &&& 0xFF00FFFC = memoryAddress) :
    home address = register ↔ address &&& 0xFF00FFFF = register := by
  constructor
  · intro hhome
    have hmirror : address &&& 0xFF00FFFC = memoryAddress := by
      rw [← home_and, hhome]
      exact h
    rwa [home, if_pos hmirror] at hhome
  · intro hand
    have hmirror : address &&& 0xFF00FFFC = memoryAddress := by
      have hmask : address &&& 0xFF00FFFF &&& 0xFF00FFFC = address &&& 0xFF00FFFC :=
        UInt32.and_assoc ..
      rw [← hmask, hand, h]
    rw [home, if_pos hmirror, hand]

/-- The register that an address stands for is the one that shows there. -/
theorem home_eq_address_iff {byte : RegisterByte} {address : Word} :
    home address = byte.address ↔ byte.At address := by
  unfold RegisterByte.At
  by_cases hm : byte.mirrored = true
  · have hmemory : byte.address &&& 0xFF00FFFC = memoryAddress := by
      cases byte <;> first | rfl | cases hm
    have hlowest : byte.address &&& 0xFF00FFFF = byte.address := by
      cases byte <;> rfl
    rw [if_pos hm, home_eq_iff_of_mirrored hmemory, ← UInt32.toNat_inj, ← hlowest,
      toNat_and_mirrors, toNat_and_mirrors]
    constructor
    · intro h
      omega
    · rintro ⟨hpage, hplace⟩
      omega
  · have hone : byte.address &&& 0xFF00FFFC ≠ memoryAddress := by
      cases byte <;> first | decide | exact absurd rfl hm
    rw [if_neg hm]
    exact home_eq_iff hone

/-! ## Reads and writes -/

/-- The byte that a register holds. -/
def held (control : Control) : RegisterByte → UInt8
  | .enableLow => lowByte control.enabled
  | .enableHigh => highByte control.enabled
  | .waitLow => lowByte control.waitStates
  | .waitHigh => highByte control.waitStates
  | .master => control.masterEnable.toUInt8
  | .postBoot => control.postBoot.toUInt8
  | .scratch => control.scratch
  | .memoryLow => lane control.memoryControl 0
  | .memoryHigh => lane control.memoryControl 3

theorem held_initial (byte : RegisterByte) : initial.held byte = byte.initial := by
  cases byte <;> rfl

theorem read?_eq_held (control : Control) {byte : RegisterByte} {address : Word}
    (h : byte.At address) : control.read? address = some (control.held byte) := by
  unfold read?
  rw [home_eq_address_iff.mpr h]
  cases byte <;> rfl

/-! ### The byte of a write -/

theorem beq_one_toUInt8 (value : UInt8) : (value &&& 1 == 1).toUInt8 = value &&& 1 := by
  have hbit : (value &&& 1).toNat = value.toNat % 2 :=
    (UInt8.toNat_and ..).trans (Nat.and_two_pow_sub_one_eq_mod value.toNat 1)
  rcases Nat.mod_two_eq_zero_or_one value.toNat with h | h
  · have hzero : value &&& 1 = 0 := UInt8.toNat_inj.mp (hbit.trans h)
    rw [hzero]
    rfl
  · have hone : value &&& 1 = 1 := UInt8.toNat_inj.mp (hbit.trans h)
    rw [hone]
    rfl

theorem toNat_withLane0 (word : Word) (byte : UInt8) :
    (word &&& ~~~0xFF ||| byte.toUInt32).toNat = byte.toNat + 2 ^ 8 * (word.toNat / 2 ^ 8) := by
  have hlt := word.toNat_lt
  have hhigh : (word &&& ~~~0xFF).toNat = (word.toNat / 2 ^ 8) <<< 8 := by
    rw [UInt32.toNat_and]
    show word.toNat &&& 0xFFFFFF <<< 8 = _
    rw [nat_and_shiftLeft, Nat.shiftRight_eq_div_pow,
      Nat.and_two_pow_sub_one_of_lt_two_pow (n := 24) (by omega)]
  rw [UInt32.toNat_or, hhigh, UInt8.toNat_toUInt32,
    ← Nat.shiftLeft_add_eq_or_of_lt byte.toNat_lt, Nat.shiftLeft_eq]
  omega

theorem toNat_withLane3 (word : Word) (byte : UInt8) :
    (word &&& (0x00FFFFFF : Word) ||| byte.toUInt32 <<< (24 : Word)).toNat =
      word.toNat % 2 ^ 24 + 2 ^ 24 * byte.toNat := by
  have hlow : (word &&& 0x00FFFFFF).toNat = word.toNat % 2 ^ 24 :=
    (UInt32.toNat_and ..).trans (Nat.and_two_pow_sub_one_eq_mod word.toNat 24)
  rw [toNat_or_shiftLeft byte 24 rfl (by decide) (by omega), hlow]

theorem lane_withLane0 (word : Word) (byte : UInt8) {index : Nat} (h : index < 4) :
    lane (word &&& ~~~0xFF ||| byte.toUInt32) index =
      if index = 0 then byte else lane word index := by
  have hbyte := byte.toNat_lt
  split_ifs with h0
  · rw [← UInt8.toNat_inj, toNat_lane _ h, toNat_withLane0, h0]
    omega
  · rw [← UInt8.toNat_inj, toNat_lane _ h, toNat_lane _ h, toNat_withLane0]
    interval_cases index <;> omega

theorem lane_withLane3 (word : Word) (byte : UInt8) {index : Nat} (h : index < 4) :
    lane (word &&& (0x00FFFFFF : Word) ||| byte.toUInt32 <<< (24 : Word)) index =
      if index = 3 then byte else lane word index := by
  have hbyte := byte.toNat_lt
  split_ifs with h3
  · rw [← UInt8.toNat_inj, toNat_lane _ h, toNat_withLane3, h3]
    omega
  · rw [← UInt8.toNat_inj, toNat_lane _ h, toNat_lane _ h, toNat_withLane3]
    interval_cases index <;> omega

theorem held_write_self (control : Control) (byte : RegisterByte) (value : UInt8) :
    (control.write byte.address value).held byte = value &&& byte.writable := by
  have hall : value &&& 0xFF = value := UInt8.and_neg_one
  cases byte with
  | enableLow | waitLow => exact (lowByte_withLowByte ..).trans hall.symm
  | enableHigh | waitHigh => exact highByte_withHighByte ..
  | master | postBoot => exact beq_one_toUInt8 value
  | scratch => exact hall.symm
  | memoryLow => exact lane_withLane0 _ _ (by decide)
  | memoryHigh => exact (lane_withLane3 _ _ (by decide)).trans hall.symm

/-- A byte may share its register with another, but not its address. -/
theorem held_write_of_ne (control : Control) {byte other : RegisterByte} (value : UInt8)
    (h : other ≠ byte) : (control.write byte.address value).held other = control.held other := by
  cases byte <;> cases other
  case enableLow.enableHigh | waitLow.waitHigh => exact highByte_withLowByte ..
  case enableHigh.enableLow | waitHigh.waitLow => exact lowByte_withHighByte ..
  case memoryLow.memoryHigh => exact lane_withLane0 _ _ (by decide)
  case memoryHigh.memoryLow => exact lane_withLane3 _ _ (by decide)
  all_goals first | rfl | exact absurd rfl h

/-- Both control blocks have the same in all registers that keep what is written. -/
structure SameRegisters (a b : Control) : Prop where
  enabled : b.enabled = a.enabled
  waitStates : b.waitStates = a.waitStates
  masterEnable : b.masterEnable = a.masterEnable
  postBoot : b.postBoot = a.postBoot
  scratch : b.scratch = a.scratch
  memoryControl : b.memoryControl = a.memoryControl

theorem SameRegisters.held {a b : Control} (h : a.SameRegisters b) (byte : RegisterByte) :
    b.held byte = a.held byte := by
  cases byte <;> simp only [Control.held, h.enabled, h.waitStates, h.masterEnable, h.postBoot,
    h.scratch, h.memoryControl]

theorem sameRegisters_write (control : Control) {address : Word} (value : UInt8)
    (h : ∀ byte : RegisterByte, ¬ byte.At address) :
    control.SameRegisters (control.write address value) := by
  have hne (byte : RegisterByte) : (home address).toNat ≠ byte.address.toNat := fun he =>
    h byte (home_eq_address_iff.mp (UInt32.toNat_inj.mp he))
  unfold write
  split
  case h_1 he => exact absurd he (hne .enableLow)
  case h_2 he => exact absurd he (hne .enableHigh)
  case h_5 he => exact absurd he (hne .waitLow)
  case h_6 he => exact absurd he (hne .waitHigh)
  case h_7 he => exact absurd he (hne .master)
  case h_8 he => exact absurd he (hne .postBoot)
  case h_10 he => exact absurd he (hne .scratch)
  case h_11 he => exact absurd he (hne .memoryLow)
  case h_12 he => exact absurd he (hne .memoryHigh)
  all_goals exact ⟨rfl, rfl, rfl, rfl, rfl, rfl⟩

theorem sameRegisters_request (control : Control) (sources : UInt16) :
    control.SameRegisters (control.request sources) := by
  unfold request
  split_ifs <;> exact ⟨rfl, rfl, rfl, rfl, rfl, rfl⟩

theorem sameRegisters_poll (control : Control) : control.SameRegisters control.poll.2 := by
  show control.SameRegisters (if control.pending then control.wake else control)
  split_ifs <;> exact ⟨rfl, rfl, rfl, rfl, rfl, rfl⟩

/-- A write reaches the byte that shows at its address, wherever that is. -/
theorem write_of_at (control : Control) {byte : RegisterByte} {address : Word} (value : UInt8)
    (h : byte.At address) : control.write address value = control.write byte.address value := by
  have hself : home byte.address = byte.address := by cases byte <;> rfl
  unfold write
  rw [home_eq_address_iff.mpr h, hself]

/-- A write changes the byte that shows at its address, and no other. -/
theorem held_write (control : Control) (byte : RegisterByte) (address : Word) (value : UInt8) :
    (control.write address value).held byte =
      if byte.At address then value &&& byte.writable else control.held byte := by
  by_cases hat : byte.At address
  · rw [if_pos hat, write_of_at control value hat, held_write_self]
  rw [if_neg hat]
  by_cases hother : ∃ other : RegisterByte, other.At address
  · obtain ⟨other, hother⟩ := hother
    have hne : byte ≠ other := by
      rintro rfl
      exact hat hother
    rw [write_of_at control value hother, held_write_of_ne control value hne]
  · exact (sameRegisters_write control value (not_exists.mp hother)).held byte

/-! ## Runs -/

/-- What an operation leaves in a byte, where it writes the byte or resets it. -/
def leaves (byte : RegisterByte) : Operation → Option UInt8
  | .write address value => if byte.At address then some (value &&& byte.writable) else none
  | .reset => some byte.initial
  | _ => none

theorem held_perform (byte : RegisterByte) (control : Control) (op : Operation) :
    (control.perform op).held byte = (leaves byte op).getD (control.held byte) := by
  cases op with
  | request sources => exact (sameRegisters_request control sources).held byte
  | write address value =>
    exact (held_write control byte address value).trans (History.getD_ite ..).symm
  | poll => exact (sameRegisters_poll control).held byte
  | reset => exact held_initial byte

/-- What some operations since a reset last left in a byte. -/
def lastLeft (ops : List Operation) (byte : RegisterByte) : UInt8 :=
  (ops.filterMap (leaves byte)).getLast?.getD byte.initial

theorem held_afterAll (ops : List Operation) (byte : RegisterByte) :
    (afterAll ops).held byte = lastLeft ops byte := by
  unfold lastLeft
  rw [← held_initial byte]
  exact History.view_foldl_const (held · byte) (leaves byte) (held_perform byte) ops initial

/-! ## Bits that cannot be written -/

/-- Nothing is set that cannot be written. -/
structure Masked (control : Control) : Prop where
  held : ∀ byte, control.held byte &&& byte.writable = control.held byte
  /-- The bytes of memory control between those that can be written. -/
  memory : ∀ index, index = 1 ∨ index = 2 → lane control.memoryControl index = 0

theorem masked_initial : initial.Masked where
  held byte := by rw [held_initial, byte.initial_and_writable]
  memory index h := by rcases h with rfl | rfl <;> rfl

theorem lane_memoryControl_write (control : Control) (address : Word) (value : UInt8) {index : Nat}
    (h : index = 1 ∨ index = 2) :
    lane (control.write address value).memoryControl index = lane control.memoryControl index := by
  unfold write
  split
  case h_11 => exact (lane_withLane0 _ _ (by omega)).trans (if_neg (by omega))
  case h_12 => exact (lane_withLane3 _ _ (by omega)).trans (if_neg (by omega))
  all_goals rfl

theorem SameRegisters.masked {a b : Control} (h : a.SameRegisters b) (ha : a.Masked) :
    b.Masked where
  held byte := by rw [h.held, ha.held]
  memory index hindex := by rw [h.memoryControl, ha.memory index hindex]

theorem Masked.perform {control : Control} (h : control.Masked) (op : Operation) :
    (control.perform op).Masked := by
  cases op with
  | request sources => exact (sameRegisters_request control sources).masked h
  | poll => exact (sameRegisters_poll control).masked h
  | reset => exact masked_initial
  | write address value =>
    constructor
    · intro byte
      show (control.write address value).held byte &&& _ = (control.write address value).held byte
      rw [held_write]
      split_ifs
      · rw [UInt8.and_assoc, UInt8.and_self]
      · exact h.held byte
    · intro index hindex
      exact (lane_memoryControl_write control address value hindex).trans (h.memory index hindex)

theorem masked_afterAll (ops : List Operation) : (afterAll ops).Masked :=
  List.foldlRecOn ops perform masked_initial fun _ h op _ => h.perform op

/-- A bit above all that can be written of the high byte of a register. -/
theorem testBit_eq_false_of_mask {value : UInt16} {mask : UInt8}
    (h : highByte value &&& mask = highByte value) {place : Nat} (hplace : 8 ≤ place)
    (hmask : mask.toNat.testBit (place - 8) = false) : value.toNat.testBit place = false := by
  rw [testBit_eq_bytes, if_neg (by omega), ← h, UInt8.toNat_and, Nat.testBit_and, hmask,
    Bool.and_false]

theorem testBit_eq_lane (word : Word) {place : Nat} (h : place < 32) :
    word.toNat.testBit place = (lane word (place / 8)).toNat.testBit (place % 8) := by
  have hplace : place % 8 + 8 * (place / 8) = place := Nat.mod_add_div place 8
  rw [toNat_lane _ (by omega), Nat.testBit_mod_two_pow, Nat.testBit_div_two_pow, hplace,
    decide_eq_true (Nat.mod_lt place (by decide)), Bool.true_and]

namespace Masked

variable {control : Control} (h : control.Masked)
include h

theorem enabled {place : Nat} (hplace : 13 < place) :
    control.enabled.toNat.testBit place = false := by
  refine testBit_eq_false_of_mask (h.held .enableHigh) (by omega) (Nat.testBit_lt_two_pow ?_)
  calc (RegisterByte.enableHigh.writable).toNat < 2 ^ 6 := by decide
    _ ≤ 2 ^ (place - 8) := Nat.pow_le_pow_right (by decide) (by omega)

theorem waitStates {place : Nat} (hplace : place = 13 ∨ place = 15) :
    control.waitStates.toNat.testBit place = false := by
  refine testBit_eq_false_of_mask (h.held .waitHigh) (by omega) ?_
  rcases hplace with rfl | rfl <;> decide

theorem memoryControl {place : Nat} (hlow : 8 ≤ place) (hhigh : place ≤ 23) :
    control.memoryControl.toNat.testBit place = false := by
  rw [testBit_eq_lane _ (by omega), h.memory _ (by omega)]
  exact Nat.zero_testBit _

end Masked

/-! ## All together -/

/-- **Registers read back.** After any operations a byte of a register reads, at every address where
it shows, as what was last written to it there, as far as it can be written, or as its reset left
it. A write to an address at which no such byte shows leaves them all, as do requests and polls.
Bits that cannot be written are never set. -/
theorem registers_read_back :
    (∀ (ops : List Operation) (byte : RegisterByte) (address : Word), byte.At address →
      (afterAll ops).read? address = some (lastLeft ops byte)) ∧
    (∀ (control : Control) (address : Word) (value : UInt8),
      (∀ byte : RegisterByte, ¬ byte.At address) →
        control.SameRegisters (control.write address value)) ∧
    (∀ (control : Control) (sources : UInt16),
      control.SameRegisters (control.request sources)) ∧
    (∀ control : Control, control.SameRegisters control.poll.2) ∧
    ∀ ops : List Operation,
      (∀ place, 13 < place → (afterAll ops).enabled.toNat.testBit place = false) ∧
      (∀ place, place = 13 ∨ place = 15 →
        (afterAll ops).waitStates.toNat.testBit place = false) ∧
      ∀ place, 8 ≤ place → place ≤ 23 →
        (afterAll ops).memoryControl.toNat.testBit place = false := by
  refine ⟨fun ops byte address hat => ?_, fun control _ value => sameRegisters_write control value,
    sameRegisters_request, sameRegisters_poll, fun ops => ?_⟩
  · rw [read?_eq_held _ hat, held_afterAll]
  · have hmasked := masked_afterAll ops
    exact ⟨fun _ => hmasked.enabled, fun _ => hmasked.waitStates, fun _ => hmasked.memoryControl⟩

/-- Ones are written all over: to both bytes of the interrupt enable register, to a mirror of memory
control, and beside the wait states, where nothing keeps them. -/
theorem registers_read_back_ones :
    let ops : List Operation :=
      [.write enableAddress 0xFF, .write (enableAddress + 1) 0xFF, .request 0xFFFF,
        .write 0x04FF0800 0xFF, .write (waitAddress + 1) 0xFF, .poll]
    let control := afterAll ops
    control.read? (enableAddress + 1) = some 0x3F ∧
      control.read? 0x04120800 = some 0x2F ∧
      control.read? (memoryAddress + 3) = some 0x0D ∧
      control.SameRegisters (control.write (waitAddress + 2) 0xFF) ∧
      control.enabled.toNat.testBit 14 = false ∧
      control.waitStates.toNat.testBit 15 = false ∧
      control.memoryControl.toNat.testBit 8 = false := by
  intro ops control
  obtain ⟨hread, hwrite, -, -, hmasked⟩ := registers_read_back
  obtain ⟨henabled, hwait, hmemory⟩ := hmasked ops
  refine ⟨(hread ops .enableHigh _ (by decide)).trans (by decide +kernel),
    (hread ops .memoryLow _ (by decide)).trans (by decide +kernel),
    (hread ops .memoryHigh _ (by decide)).trans (by decide +kernel), hwrite _ _ _ fun byte => ?_,
    henabled 14 (by decide), hwait 15 (.inr rfl), hmemory 8 (by decide) (by decide)⟩
  cases byte <;> decide

end Control

end Handheld
