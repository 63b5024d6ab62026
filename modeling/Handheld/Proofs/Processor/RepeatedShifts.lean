import Handheld.Proofs.Processor.Shifting

/-!
# Shifts place by place

A shift by some places is as many shifts by one place, of which each takes the last one's carry for
its own.

1. `Shift.onePlace` is a shift by one place. `onePlace_result` says that it takes a shift by some
   places to a shift by one more, and `byAmount_eq_iterate` follows by induction on the amount.
2. `rotated` is a rotation of a number of any width, and `rotated_succ` moves it by one more place.
3. `Shifted.bits` is a word with the carry above it. Such a rotation is one of 33 bits
   (`bits_throughCarry`), which ends after 33 places where it began (`throughCarry_turn`).
4. `shifts_repeat` puts together what follows for the amounts of registers and of opcodes.
-/

namespace Handheld

/-! ## Rotations -/

/-- A number of some bits whose lowest bits are moved to its top. -/
def rotated (width value places : Nat) : Nat :=
  value / 2 ^ places + value % 2 ^ places * 2 ^ (width - places)

section Rotations

theorem rotated_zero (width value : Nat) : rotated width value 0 = value := by
  simp [rotated, Nat.mod_one]

theorem rotated_self {width value : Nat} (h : value < 2 ^ width) :
    rotated width value width = value := by
  simp [rotated, Nat.div_eq_of_lt h, Nat.mod_eq_of_lt h]

variable {width value places : Nat} (h : places ≤ width)
include h

/-- The lowest bit of a rotated number is the next one to be moved. -/
theorem rotated_mod_two : rotated (width + 1) value places % 2 = value / 2 ^ places % 2 := by
  have htwo : 2 ^ (width + 1 - places) = 2 * 2 ^ (width - places) := by
    rw [← Nat.pow_succ']
    congr 1
    omega
  rw [rotated, htwo, Nat.mul_left_comm, Nat.add_mul_mod_self_left]

/-- Rotating by one more place moves one more bit. -/
theorem rotated_succ :
    rotated (width + 1) value (places + 1) =
      rotated (width + 1) value places / 2 +
        rotated (width + 1) value places % 2 * 2 ^ width := by
  have htwo : 2 ^ (width + 1 - places) = 2 * 2 ^ (width - places) := by
    rw [← Nat.pow_succ']
    congr 1
    omega
  have htop : 2 ^ width = 2 ^ places * 2 ^ (width - places) := by
    rw [← Nat.pow_add]
    congr 1
    omega
  have hhalf : rotated (width + 1) value places / 2 =
      value / 2 ^ (places + 1) + value % 2 ^ places * 2 ^ (width - places) := by
    rw [rotated, htwo, Nat.mul_left_comm, Nat.add_mul_div_left _ _ Nat.two_pos,
      Nat.div_div_eq_div_mul, ← Nat.pow_succ]
  rw [hhalf, rotated_mod_two h, rotated, Nat.mod_pow_succ, htop, Nat.add_sub_add_right]
  ring

end Rotations

namespace Shift

/-! ## One place -/

/-- A shift by one place. To the right, a zero, the sign or the bit moved out comes in at the
top. -/
def onePlace (shift : Shift) (s : Shifted) : Shifted :=
  match shift with
  | lsl => ⟨s.value <<< 1, bit s.value 31⟩
  | lsr => ⟨s.value >>> 1, bit s.value 0⟩
  | asr => throughCarry s.value (bit s.value 31)
  | ror => throughCarry s.value (bit s.value 0)

theorem toNat_throughCarry (w : Word) (carry : Bool) :
    (throughCarry w carry).value.toNat = w.toNat / 2 + carry.toNat * 2 ^ 31 := by
  have hw := w.toNat_lt
  have hcarry := carry.toNat_lt
  rw [throughCarry_eq]
  refine (UInt32.toNat_ofNat_of_lt' (show _ < 2 ^ 32 by omega)).trans ?_
  omega

variable {w value : Word} {n : Nat} {carry : Bool}

theorem toNat_result (shift : Shift) :
    ((shift.result w n carry).value.toNat : Int) = shift.number w n % 2 ^ 32 := by
  show ((UInt32.ofInt (shift.number w n)).toNat : Int) = _
  rw [toNat_ofInt]
  omega

/-- A word moved right by one place, with a bit put in at its top, is known by its number. -/
theorem throughCarry_eq_result {shift : Shift} {top : Bool}
    (hv : (value.toNat / 2 + top.toNat * 2 ^ 31 : Int) = shift.number w (n + 1) % 2 ^ 32)
    (hc : (value.toNat : Int) % 2 = shift.lastOut w (n + 1) % 2) :
    throughCarry value top = shift.result w (n + 1) carry := by
  have hvalue : ((throughCarry value top).value.toNat : Int) = shift.number w (n + 1) % 2 ^ 32 := by
    rw [toNat_throughCarry, ← hv]
    norm_cast
  have hlast : ((throughCarry value top).carry.toNat : Int) = shift.lastOut w (n + 1) % 2 := by
    rw [← hc]
    show ((bit value 0).toNat : Int) = _
    rw [toNat_bit 0 rfl, Nat.pow_zero, Nat.div_one]
    norm_cast
  exact eq_result (Nat.succ_ne_zero n) hvalue hlast

theorem onePlace_left : lsl.onePlace (lsl.result w n carry) = lsl.result w (n + 1) carry := by
  have hvalue : ((lsl.result w n carry).value.toNat : Int) = _ := toNat_result lsl
  have hpow : (2 : Int) ^ (n + 1) = 2 ^ n * 2 := pow_succ ..
  refine eq_result (Nat.succ_ne_zero n) ?_ ?_
  · rw [UInt32.toNat_shiftLeft]
    simp only [number] at hvalue ⊢
    rw [hpow, ← mul_assoc]
    show (((lsl.result w n carry).value.toNat <<< 1 % 2 ^ 32 : Nat) : Int) = _
    omega
  · rw [toNat_bit 31 rfl]
    simp only [number, lastOut] at hvalue ⊢
    rw [hpow, ← mul_assoc]
    omega

theorem onePlace_right : lsr.onePlace (lsr.result w n carry) = lsr.result w (n + 1) carry := by
  have hvalue : ((lsr.result w n carry).value.toNat : Int) = _ := toNat_result lsr
  have hlt : (w.toNat / 2 ^ n : Int) < 2 ^ 32 := by
    exact_mod_cast (Nat.div_le_self w.toNat (2 ^ n)).trans_lt w.toNat_lt
  have hnonneg : (0 : Int) ≤ w.toNat / 2 ^ n := by positivity
  have hhalf : (w.toNat / 2 ^ (n + 1) : Int) = w.toNat / 2 ^ n / 2 := by
    rw [pow_succ, Int.ediv_ediv_of_nonneg (by positivity)]
  simp only [number] at hvalue
  refine eq_result (Nat.succ_ne_zero n) ?_ ?_
  · rw [toNat_shiftRight 1 rfl]
    simp only [number]
    rw [hhalf]
    omega
  · rw [toNat_bit 0 rfl]
    simp only [lastOut, Nat.add_sub_cancel]
    omega

/-- What is left of a signed word is a signed word. -/
theorem signed_right (w : Word) (n : Nat) :
    -2 ^ 31 ≤ w.toInt32.toInt / 2 ^ n ∧ w.toInt32.toInt / 2 ^ n < 2 ^ 31 := by
  have hone : (1 : Int) ≤ 2 ^ n := one_le_pow₀ (by decide)
  have hlow : (2 : Int) ^ 31 ≤ 2 ^ 31 * 2 ^ n := le_mul_of_one_le_right (by decide) hone
  have hle : -2 ^ 31 ≤ w.toInt32.toInt := w.toInt32.le_toInt
  have hlt : w.toInt32.toInt < 2 ^ 31 := w.toInt32.toInt_lt
  constructor
  · refine Int.le_ediv_of_mul_le (by positivity) ?_
    rw [neg_mul]
    omega
  · exact Int.ediv_lt_of_lt_mul (by positivity) (by omega)

theorem onePlace_arithmetic :
    asr.onePlace (asr.result w n carry) = asr.result w (n + 1) carry := by
  have hvalue : ((asr.result w n carry).value.toNat : Int) = _ := toNat_result asr
  obtain ⟨hle, hlt⟩ := signed_right w n
  have hhalf : w.toInt32.toInt / 2 ^ (n + 1) = w.toInt32.toInt / 2 ^ n / 2 := by
    rw [pow_succ, Int.ediv_ediv_of_nonneg (by positivity)]
  simp only [number] at hvalue
  refine throughCarry_eq_result ?_ ?_
  · rw [toNat_bit 31 rfl]
    simp only [number]
    rw [hhalf]
    omega
  · simp only [lastOut, Nat.add_sub_cancel]
    omega

theorem number_ror (w : Word) (n : Nat) : ror.number w n = rotated 32 w.toNat (n % 32) := by
  simp only [number, rotated]
  norm_cast

/-- After 32 places a rotation begins anew. -/
theorem number_ror_succ (w : Word) (n : Nat) :
    ror.number w (n + 1) = rotated 32 w.toNat (n % 32 + 1) := by
  rw [number_ror]
  by_cases hturn : n % 32 = 31
  · rw [hturn, rotated_self w.toNat_lt, show (n + 1) % 32 = 0 by omega, rotated_zero]
  · rw [show (n + 1) % 32 = n % 32 + 1 by omega]

theorem onePlace_rotate : ror.onePlace (ror.result w n carry) = ror.result w (n + 1) carry := by
  have hvalue : ((ror.result w n carry).value.toNat : Int) = _ := toNat_result ror
  have hplaces : n % 32 ≤ 31 := by omega
  have hlast : rotated 32 w.toNat (n % 32) % 2 = w.toNat / 2 ^ (n % 32) % 2 :=
    rotated_mod_two hplaces
  have hnext : rotated 32 w.toNat (n % 32 + 1) =
      rotated 32 w.toNat (n % 32) / 2 + rotated 32 w.toNat (n % 32) % 2 * 2 ^ 31 :=
    rotated_succ hplaces
  have hlt : rotated 32 w.toNat (n % 32) < 2 ^ 32 := by
    have hrotated : (rotateRight w (UInt32.ofNat (n % 32))).toNat = rotated 32 w.toNat (n % 32) :=
      toNat_rotateRight w (n % 32) (UInt32.toNat_ofNat_of_lt' (show _ < 2 ^ 32 by omega))
        (by omega)
    rw [← hrotated]
    exact UInt32.toNat_lt _
  rw [number_ror] at hvalue
  have hsame : (ror.result w n carry).value.toNat = rotated 32 w.toNat (n % 32) := by omega
  refine throughCarry_eq_result ?_ ?_
  · rw [toNat_bit 0 rfl, number_ror_succ, hnext, hsame, Nat.pow_zero, Nat.div_one]
    push_cast
    omega
  · have hmoved : ror.lastOut w (n + 1) = (w.toNat / 2 ^ (n % 32) : Nat) := by
      simp only [lastOut, Nat.add_sub_cancel]
      norm_cast
    rw [hmoved, hsame]
    omega

/-- One place more. -/
theorem onePlace_result (shift : Shift) :
    shift.onePlace (shift.result w n carry) = shift.result w (n + 1) carry := by
  cases shift with
  | lsl => exact onePlace_left
  | lsr => exact onePlace_right
  | asr => exact onePlace_arithmetic
  | ror => exact onePlace_rotate

theorem result_eq_iterate (shift : Shift) (w : Word) (carry : Bool) (n : Nat) :
    shift.result w n carry = shift.onePlace^[n] ⟨w, carry⟩ := by
  induction n with
  | zero => exact result_zero ..
  | succ n ih => rw [Function.iterate_succ_apply', ← ih, onePlace_result]

/-- A shift by any amount is that many shifts by one place. -/
theorem byAmount_eq_iterate (shift : Shift) (w amount : Word) (carry : Bool) :
    shift.byAmount w amount carry = shift.onePlace^[amount.toNat] ⟨w, carry⟩ :=
  (byAmount_eq carry shift w amount).trans (result_eq_iterate ..)

end Shift

/-! ## Through the carry -/

/-- The 33 bits of a value and the carry above it. -/
def Shifted.bits (s : Shifted) : BitVec 33 := .cons s.carry s.value.toBitVec

theorem Shifted.toNat_bits (s : Shifted) :
    s.bits.toNat = s.carry.toNat * 2 ^ 32 + s.value.toNat := by
  rw [bits, BitVec.toNat_cons', Nat.shiftLeft_eq]
  rfl

theorem Shifted.bits_injective {a b : Shifted} (h : a.bits = b.bits) : a = b := by
  have hbits := congrArg BitVec.toNat h
  have ha := a.value.toNat_lt
  have hb := b.value.toNat_lt
  rw [toNat_bits, toNat_bits] at hbits
  have hvalue : a.value = b.value := UInt32.toNat_inj.mp (by omega)
  have hcarry : a.carry = b.carry := by
    cases hca : a.carry <;> cases hcb : b.carry <;> simp_all
  exact congrArg₂ Shifted.mk hvalue hcarry

namespace Shift

theorem toNat_bits_throughCarry (s : Shifted) :
    (throughCarry s.value s.carry).bits.toNat =
      s.bits.toNat / 2 + s.bits.toNat % 2 * 2 ^ 32 := by
  have hlast : (throughCarry s.value s.carry).carry.toNat = s.value.toNat / 2 ^ 0 % 2 :=
    toNat_bit 0 rfl
  rw [Shifted.toNat_bits, Shifted.toNat_bits, hlast, toNat_throughCarry]
  omega

/-- A rotation through the carry is one of 33 bits. -/
theorem bits_throughCarry (s : Shifted) :
    (throughCarry s.value s.carry).bits = s.bits.rotateRight 1 := by
  have hs := s.bits.isLt
  have htop : s.bits.toNat <<< 32 % 2 ^ 33 = (s.bits.toNat % 2) <<< 32 := by
    rw [Nat.shiftLeft_eq, Nat.shiftLeft_eq]
    omega
  apply BitVec.eq_of_toNat_eq
  rw [toNat_bits_throughCarry, BitVec.toNat_rotateRight]
  show _ = s.bits.toNat >>> 1 ||| s.bits.toNat <<< 32 % 2 ^ 33
  rw [htop, Nat.or_comm, ← Nat.shiftLeft_add_eq_or_of_lt (by omega), Nat.shiftLeft_eq]
  omega

theorem toNat_bits_iterate (s : Shifted) : ∀ n ≤ 33,
    ((fun s : Shifted => throughCarry s.value s.carry)^[n] s).bits.toNat =
      rotated 33 s.bits.toNat n := by
  intro n
  induction n with
  | zero => exact fun _ => (rotated_zero ..).symm
  | succ n ih =>
    intro hn
    rw [Function.iterate_succ_apply', toNat_bits_throughCarry, ih (by omega)]
    exact (rotated_succ (show n ≤ 32 by omega)).symm

/-- After as many places as there are bits, all are back. -/
theorem throughCarry_turn (s : Shifted) :
    (fun s : Shifted => throughCarry s.value s.carry)^[33] s = s := by
  apply Shifted.bits_injective
  apply BitVec.eq_of_toNat_eq
  rw [toNat_bits_iterate s 33 (le_refl 33), rotated_self s.bits.isLt]

/-! ## Registers and fields -/

/-- **Repeated shifts.** A shift by any amount is that many shifts by one place, so that amounts add
up where one shift follows another with its carry. So is a shift by a field, but that a zero stands
for 32 places to the right, or for one place in a rotation of the word with the carry above it. -/
theorem shifts_repeat (shift : Shift) (w : Word) (carry : Bool) :
    (∀ amount, shift.byAmount w amount carry = shift.onePlace^[amount.toNat] ⟨w, carry⟩) ∧
    (∀ first second : Word, first.toNat + second.toNat < 2 ^ 32 →
      shift.byAmount (shift.byAmount w first carry).value second
        (shift.byAmount w first carry).carry = shift.byAmount w (first + second) carry) ∧
    (∀ amount, amount ≠ 0 →
      shift.byImmediate w amount carry = shift.onePlace^[amount.toNat] ⟨w, carry⟩) ∧
    lsl.byImmediate w 0 carry = ⟨w, carry⟩ ∧
    lsr.byImmediate w 0 carry = lsr.onePlace^[32] ⟨w, carry⟩ ∧
    asr.byImmediate w 0 carry = asr.onePlace^[32] ⟨w, carry⟩ ∧
    (ror.byImmediate w 0 carry).bits = (⟨w, carry⟩ : Shifted).bits.rotateRight 1 ∧
    (fun s : Shifted => ror.byImmediate s.value 0 s.carry)^[33] ⟨w, carry⟩ = ⟨w, carry⟩ := by
  refine ⟨fun amount => byAmount_eq_iterate shift w amount carry, fun first second hfits => ?_,
    fun amount hamount => ?_, rfl, byAmount_eq_iterate lsr w 32 carry,
    byAmount_eq_iterate asr w 32 carry, bits_throughCarry ⟨w, carry⟩, throughCarry_turn ⟨w, carry⟩⟩
  · have hsum : (first + second).toNat = second.toNat + first.toNat := by
      rw [UInt32.toNat_add, Nat.add_comm second.toNat]
      exact Nat.mod_eq_of_lt hfits
    rw [byAmount_eq_iterate, byAmount_eq_iterate, byAmount_eq_iterate, hsum,
      Function.iterate_add_apply]
  · unfold byImmediate
    rw [if_neg hamount, byAmount_eq_iterate]

/-- A negative word moved right by 3 places and then by 40 is all sign, like the carry. -/
theorem shifts_repeat_sign :
    (3 : Word).toNat + (40 : Word).toNat < 2 ^ 32 ∧ (5 : Word) ≠ 0 ∧
      asr.byAmount (asr.byAmount 0x80000003 3 false).value 40
        (asr.byAmount 0x80000003 3 false).carry = ⟨0xFFFFFFFF, true⟩ ∧
      asr.onePlace^[5] ⟨0x80000013, false⟩ = ⟨0xFC000000, true⟩ := by
  obtain ⟨-, hsum, -⟩ := shifts_repeat asr 0x80000003 false
  obtain ⟨-, -, hfield, -⟩ := shifts_repeat asr 0x80000013 false
  have hfits : (3 : Word).toNat + (40 : Word).toNat < 2 ^ 32 := by decide
  have hfive : (5 : Word) ≠ 0 := by decide
  exact ⟨hfits, hfive, (hsum 3 40 hfits).trans (by decide), (hfield 5 hfive).symm.trans (by decide)⟩

end Shift

end Handheld
