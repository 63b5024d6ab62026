import Handheld.Proofs.FlatMemory
import Handheld.Processor.Transfer

/-!
# Values loaded and stored

A flat memory gives a load the bytes at its address, and takes those of a store. A load reads at the
address aligned down and rotates what it read, so that the byte at the address comes first.

1. `Single` are the kinds of load and store, and `Single.Loads` the value that each load gives, in
   bytes of the memory.
2. `toNat_extend` is a load without a sign as a rotation, which moves digits around
   (`rotate_ofDigits`), and `extend_signed` a load with a sign.
3. `loadValue_loads` says that a load gives its value, and `storeValue_stores` what a store leaves
   of the memory (`FlatMemory.Stored`).
-/

namespace Handheld

/-- The single transfers of 32-bit opcodes. -/
inductive Single
  | ldr
  | str
  | ldrb
  | strb
  | ldrh
  | strh
  | ldrsb
  | ldrsh
  deriving DecidableEq

namespace Single

/-- Whether a transfer loads. -/
def load : Single → Bool
  | ldr | ldrb | ldrh | ldrsb | ldrsh => true
  | str | strb | strh => false

/-- How much a transfer moves. -/
def width : Single → Width
  | ldr | str => .word
  | ldrh | strh | ldrsh => .halfword
  | ldrb | strb | ldrsb => .byte

/-- Whether a load extends the sign. -/
def signed : Single → Bool
  | ldrsb | ldrsh => true
  | _ => false

/-- What a transfer moves to or from a register. -/
def transfer (single : Single) (register : Register) : Transfer :=
  ⟨single.load, register, single.width, true, single.signed⟩

end Single

/-! ## Loads -/

namespace Single

/-- The value that a load gives at an address of a memory of bytes. -/
def Loads (single : Single) (memory : Word → UInt8) (address value : Word) : Prop :=
  match single with
  | ldr =>
    ∀ k < 4, lane value k = memory ((address &&& ~~~3) + ((address + UInt32.ofNat k) &&& 3))
  | ldrb => value.toNat = (memory address).toNat
  | ldrsb => value.toInt32.toInt = ((memory address).toNat : Int).bmod (2 ^ 8)
  | ldrh =>
    if address.toNat % 2 = 0 then
      value.toNat = (memory address).toNat + 2 ^ 8 * (memory (address + 1)).toNat
    else value.toNat = (memory address).toNat + 2 ^ 24 * (memory (address - 1)).toNat
  | ldrsh =>
    if address.toNat % 2 = 0 then
      value.toInt32.toInt =
        ((memory address).toNat + 2 ^ 8 * (memory (address + 1)).toNat : Int).bmod (2 ^ 16)
    else value.toInt32.toInt = ((memory address).toNat : Int).bmod (2 ^ 8)
  | str | strb | strh => False

end Single

/-- How far an address is above its multiple of the width. -/
theorem toNat_misaligned (width : Width) (address : Word) :
    (address &&& (width.bytes - 1)).toNat = address.toNat % width.lanes := by
  rw [← Width.mod_bytes, UInt32.toNat_mod]
  rfl

/-- How far a load rotates what was read, in places. -/
theorem toNat_rotation (width : Width) (address : Word) :
    ((address &&& (width.bytes - 1)) * 8).toNat = 8 * (address.toNat % width.lanes) := by
  have hmod := Nat.mod_lt address.toNat width.lanes_pos
  have hlanes := width.lanes_le
  rw [UInt32.toNat_mul, toNat_misaligned]
  show _ * 8 % 2 ^ 32 = _
  omega

/-- A load without a sign rotates what was read by the bytes that its address is misaligned. -/
theorem toNat_extend (address : Word) (width : Width) {data : Word} (h : data &&& width.mask = data)
    {n : Nat} (hn : n = 8 * (address.toNat % width.lanes)) :
    (extend address width true false data).toNat =
      data.toNat / 2 ^ n + data.toNat % 2 ^ n * 2 ^ (32 - n) := by
  have hlanes := width.lanes_le
  have hmod := Nat.mod_lt address.toNat width.lanes_pos
  unfold extend
  simp only [h, Bool.true_and, Bool.false_eq_true, if_false]
  by_cases h0 : address &&& (width.bytes - 1) = 0
  · have hzero : n = 0 := by
      rw [hn, ← toNat_misaligned, h0]
      rfl
    simp [h0, hzero, Nat.mod_one]
  · rw [if_pos (bne_iff_ne.mpr h0)]
    exact toNat_rotateRight data n ((toNat_rotation width address).trans hn.symm) (by omega)

/-- A load with a sign extends a load without one, a misaligned halfword like a byte. -/
theorem extend_signed (address : Word) (width : Width) (data : Word) :
    extend address width true true data =
      match width with
      | .byte => signExtend 8 (extend address .byte true false data)
      | .halfword =>
        if address.toNat % 2 = 0 then signExtend 16 (extend address .halfword true false data)
        else signExtend 8 (extend address .halfword true false data)
      | .word => extend address .word true false data := by
  have hodd : (address &&& (Width.halfword.bytes - 1) != 0) = true ↔ ¬ address.toNat % 2 = 0 := by
    rw [bne_iff_ne, ne_eq, ← UInt32.toNat_inj, toNat_misaligned]
    rfl
  cases width with
  | byte => rfl
  | halfword =>
    by_cases heven : address.toNat % 2 = 0
    · have haligned : (address &&& (Width.halfword.bytes - 1) != 0) = false :=
        Bool.eq_false_iff.mpr fun h => hodd.mp h heven
      simp [extend, haligned, heven]
    · simp [extend, hodd.mpr heven, heven]
  | word => rfl

/-- The number of four digits, the lowest first. -/
def ofDigits (digit : Nat → Nat) : Nat :=
  digit 0 + 2 ^ 8 * digit 1 + 2 ^ 16 * digit 2 + 2 ^ 24 * digit 3

theorem digit_ofDigits {digit : Nat → Nat} (h : ∀ i, digit i < 2 ^ 8) {k : Nat} (hk : k < 4) :
    ofDigits digit / 2 ^ (8 * k) % 2 ^ 8 = digit k := by
  have h0 := h 0
  have h1 := h 1
  have h2 := h 2
  have h3 := h 3
  unfold ofDigits
  interval_cases k <;> omega

/-- Rotating by whole digits moves them around. -/
theorem rotate_ofDigits {digit : Nat → Nat} (h : ∀ i, digit i < 2 ^ 8) {j : Nat} (hj : j < 4) :
    ofDigits digit / 2 ^ (8 * j) + ofDigits digit % 2 ^ (8 * j) * 2 ^ (32 - 8 * j) =
      ofDigits fun i => digit ((j + i) % 4) := by
  have h0 := h 0
  have h1 := h 1
  have h2 := h 2
  have h3 := h 3
  unfold ofDigits
  interval_cases j
  · simp [Nat.mod_one]
  all_goals
    simp
    omega

namespace FlatMemory

/-- The bytes that a read puts together. -/
theorem peek_align (flat : FlatMemory) (address : Word) (width : Width) :
    flat.peek (width.align address) width =
      width.assemble fun lane => flat.byteAt (width.align address + UInt32.ofNat lane) := by
  unfold peek
  rw [Width.align_of_mod (width.align_mod address)]

theorem peek_and_mask (flat : FlatMemory) (address : Word) (width : Width) :
    flat.peek address width &&& width.mask = flat.peek address width := by
  rw [← UInt32.toNat_inj, Width.toNat_and_mask]
  refine Nat.mod_eq_of_lt ?_
  cases width with
  | byte =>
    rw [peek, Width.toNat_assemble_byte]
    exact UInt8.toNat_lt _
  | halfword =>
    have h0 := (flat.byteAt (Width.halfword.align address + UInt32.ofNat 0)).toNat_lt
    have h1 := (flat.byteAt (Width.halfword.align address + UInt32.ofNat 1)).toNat_lt
    rw [peek, Width.toNat_assemble_halfword]
    show _ < 2 ^ 16
    omega
  | word => exact UInt32.toNat_lt _

/-- What a load reads, rotated by the bytes that its address is misaligned. -/
theorem toNat_extend_peek (flat : FlatMemory) (address : Word) (width : Width) {n : Nat}
    (hn : n = 8 * (address.toNat % width.lanes)) {data : Nat}
    (hdata : (width.assemble fun lane =>
      flat.byteAt (width.align address + UInt32.ofNat lane)).toNat = data) :
    (extend address width true false (flat.peek (width.align address) width)).toNat =
      data / 2 ^ n + data % 2 ^ n * 2 ^ (32 - n) := by
  rw [toNat_extend address width (peek_and_mask flat _ width) hn, peek_align, hdata]

/-- A rotated word has its lanes moved around. -/
theorem loads_word (flat : FlatMemory) (address : Word) :
    Single.ldr.Loads flat.byteAt address
      (extend address .word true false (flat.peek (Width.word.align address) .word)) := by
  intro k hk
  let digit (lane : Nat) : Nat := (flat.byteAt (Width.word.align address + UInt32.ofNat lane)).toNat
  have hdigit (i : Nat) : digit i < 2 ^ 8 := UInt8.toNat_lt _
  have hvalue := (toNat_extend_peek flat address .word rfl (Width.toNat_assemble_word _)).trans
    (rotate_ofDigits hdigit (Nat.mod_lt address.toNat (by decide)))
  have hplace : (address + UInt32.ofNat k) &&& 3 = UInt32.ofNat ((address.toNat % 4 + k) % 4) := by
    refine and_eq_of_toNat 2 rfl ?_
    rw [UInt32.toNat_add, UInt32.toNat_ofNat_of_lt' (show k < 2 ^ 32 by omega),
      UInt32.toNat_ofNat_of_lt' (show (address.toNat % 4 + k) % 4 < 2 ^ 32 by omega)]
    omega
  rw [hplace, ← UInt8.toNat_inj, toNat_lane _ hk, hvalue]
  exact digit_ofDigits (fun i => hdigit ((address.toNat % 4 + i) % 4)) hk

theorem loads_byte (flat : FlatMemory) (address : Word) :
    Single.ldrb.Loads flat.byteAt address
      (extend address .byte true false (flat.peek (Width.byte.align address) .byte)) := by
  have hzero : 0 = 8 * (address.toNat % Width.byte.lanes) := by
    show 0 = 8 * (address.toNat % 1)
    omega
  have hvalue := toNat_extend_peek flat address .byte hzero (Width.toNat_assemble_byte _)
  refine hvalue.trans ?_
  rw [Width.align_byte]
  simp [Nat.mod_one]

/-- A misaligned halfword is turned around, with its other byte on top. -/
theorem loads_halfword (flat : FlatMemory) (address : Word) :
    Single.ldrh.Loads flat.byteAt address
      (extend address .halfword true false
        (flat.peek (Width.halfword.align address) .halfword)) := by
  have hassemble := Width.toNat_assemble_halfword fun lane =>
    flat.byteAt (Width.halfword.align address + UInt32.ofNat lane)
  have hlow := (flat.byteAt (Width.halfword.align address + UInt32.ofNat 0)).toNat_lt
  have hmod : address.toNat % Width.halfword.lanes = address.toNat % 2 := rfl
  unfold Single.Loads
  simp only
  split
  case isTrue heven =>
    have hvalue := toNat_extend_peek flat address .halfword
      (show 0 = 8 * (address.toNat % Width.halfword.lanes) by rw [hmod, heven]) hassemble
    have haligned : Width.halfword.align address = address :=
      Width.align_of_mod (Width.mod_bytes_iff.mpr heven)
    rw [hvalue, haligned]
    simp [Nat.mod_one]
  case isFalse hodd =>
    have hvalue := toNat_extend_peek flat address .halfword
      (show 8 = 8 * (address.toNat % Width.halfword.lanes) by rw [hmod]; omega) hassemble
    have haligned : Width.halfword.align address = address - 1 := by
      have hone : (1 : Word) ≤ address := by
        rw [UInt32.le_iff_toNat_le]
        show 1 ≤ address.toNat
        omega
      rw [← UInt32.toNat_inj, Width.toNat_align, UInt32.toNat_sub_of_le _ _ hone]
      show address.toNat / 2 * 2 = address.toNat - 1
      omega
    have hother : address - 1 + UInt32.ofNat 0 = address - 1 := UInt32.add_zero _
    have htop : address - 1 + UInt32.ofNat 1 = address := UInt32.sub_add_cancel ..
    rw [haligned, hother] at hlow
    rw [hvalue, haligned, hother, htop]
    omega

theorem loads_signedByte (flat : FlatMemory) (address : Word) :
    Single.ldrsb.Loads flat.byteAt address
      (extend address .byte true true (flat.peek (Width.byte.align address) .byte)) := by
  have hbyte : _ = _ := loads_byte flat address
  show (extend address .byte true true _).toInt32.toInt = _
  rw [extend_signed]
  simp only
  rw [toInt_signExtend (s := 24) (by decide) rfl rfl]
  exact congrArg (fun n : Nat => (n : Int).bmod (2 ^ 8)) hbyte

/-- The sign of a misaligned halfword is that of its byte, so what is on top does not count. -/
theorem loads_signedHalfword (flat : FlatMemory) (address : Word) :
    Single.ldrsh.Loads flat.byteAt address
      (extend address .halfword true true
        (flat.peek (Width.halfword.align address) .halfword)) := by
  have hhalfword := loads_halfword flat address
  unfold Single.Loads at hhalfword ⊢
  simp only at hhalfword ⊢
  rw [extend_signed]
  simp only
  split at hhalfword
  case isTrue heven =>
    rw [if_pos heven, if_pos heven, toInt_signExtend (s := 16) (by decide) rfl rfl, hhalfword]
    push_cast
    rfl
  case isFalse hodd =>
    rw [if_neg hodd, if_neg hodd, toInt_signExtend (s := 24) (by decide) rfl rfl, hhalfword]
    push_cast
    rw [show (16777216 : Int) = 256 * 65536 from rfl, mul_assoc]
    exact Int.add_mul_bmod_self_left ..

end FlatMemory

/-- A load gives its value, with or without a sign. -/
theorem loadValue_loads (flat : FlatMemory) {single : Single} (h : single.load = true)
    (address : Word) :
    ∃ value, single.Loads flat.byteAt address value ∧
      Processor.loadValue flat address single.width true single.signed =
        (⟨value, flat.timing⟩, flat) := by
  refine ⟨_, ?_, rfl⟩
  cases single with
  | ldr => exact flat.loads_word address
  | ldrb => exact flat.loads_byte address
  | ldrh => exact flat.loads_halfword address
  | ldrsb => exact flat.loads_signedByte address
  | ldrsh => exact flat.loads_signedHalfword address
  | str => cases h
  | strb => cases h
  | strh => cases h

/-! ## Stores -/

/-- A memory in which the low bytes of a value were put at an address, aligned down. -/
structure FlatMemory.Stored (flat : FlatMemory) (width : Width) (address value : Word)
    (after : FlatMemory) : Prop where
  size : after.size = flat.size
  timing : after.timing = flat.timing
  lanes : ∀ k < width.lanes,
    after.byteAt (width.align address + UInt32.ofNat k) = lane value k
  others : ∀ place,
    (∀ k < width.lanes,
      place ≠ FlatMemory.index flat.size (width.align address + UInt32.ofNat k)) →
      after.memory.byteAt place = flat.memory.byteAt place

/-- A store puts the low bytes of its value into memory. -/
theorem storeValue_stores {e : Nat} {flat : FlatMemory} (hs : flat.size = 2 ^ e)
    {width : Width} (hw : width.lanes ≤ flat.size) (address value : Word) :
    ∃ after, flat.Stored width address value after ∧
      Processor.storeValue flat address value width = (flat.timing, after) := by
  have haligned : width.align (width.align address) = width.align address :=
    Width.align_of_mod (width.align_mod address)
  refine ⟨flat.poke (width.align address) (value &&& width.mask) width, ?_, rfl⟩
  exact
    { size := FlatMemory.size_poke ..
      timing := FlatMemory.timing_poke ..
      lanes := fun k hk => by
        have hpoke := FlatMemory.byteAt_poke hs hw (width.align address) (value &&& width.mask) hk
        rw [haligned] at hpoke
        exact hpoke.trans (Width.lane_and_mask value hk)
      others := fun place hplace => by
        refine FlatMemory.memory_poke_of_ne hs hw _ _ ?_
        rw [haligned]
        exact hplace }

end Handheld
