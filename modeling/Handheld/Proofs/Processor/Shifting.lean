import Handheld.Processor.Shifter
import Handheld.Proofs.Word

/-!
# Shifts as arithmetic

A shift multiplies or divides by a power of two, and a rotation moves the low bits to the top. The
carry is the last bit that was moved out.

1. `Shift.number` and `Shift.lastOut` are the integers that a shift by any number of places makes.
2. `byAmount_eq` says that the barrel shifter computes them for every amount, and `byImmediate_eq`
   reads the zero of a five-bit field as the other shift that it stands for.
-/

namespace Handheld.Shift

/-- The integer that a shift by some places makes of a word, of which a word is kept. -/
def number (shift : Shift) (w : Word) (places : Nat) : Int :=
  match shift with
  | lsl => w.toNat * 2 ^ places
  | lsr => w.toNat / 2 ^ places
  | asr => w.toInt32.toInt / 2 ^ places
  | ror =>
    w.toNat / 2 ^ (places % 32) + w.toNat % 2 ^ (places % 32) * 2 ^ (32 - places % 32)

/-- The integer whose lowest bit is the last one that a shift by some places moves out. -/
def lastOut (shift : Shift) (w : Word) (places : Nat) : Int :=
  match shift with
  | lsl => w.toNat * 2 ^ places / 2 ^ 32
  | lsr => w.toNat / 2 ^ (places - 1)
  | asr => w.toInt32.toInt / 2 ^ (places - 1)
  | ror => w.toNat / 2 ^ ((places - 1) % 32)

/-- What a shift by some places gives; without any the carry stays. -/
def result (shift : Shift) (w : Word) (places : Nat) (carry : Bool) : Shifted :=
  ⟨UInt32.ofInt (shift.number w places),
    if places = 0 then carry else shift.lastOut w places % 2 == 1⟩

/-- What a shift by a five-bit field gives. A zero stands for 32 places to the right, or for one
place to the right with the carry moved in. -/
def fieldResult (shift : Shift) (w : Word) (places : Nat) (carry : Bool) : Shifted :=
  if places = 0 then
    match shift with
    | lsl => ⟨w, carry⟩
    | lsr => lsr.result w 32 carry
    | asr => asr.result w 32 carry
    | ror => ⟨UInt32.ofNat (carry.toNat * 2 ^ 31 + w.toNat / 2), w.toNat % 2 == 1⟩
  else shift.result w places carry

/-! ## No places -/

theorem number_zero (shift : Shift) (w : Word) : UInt32.ofInt (shift.number w 0) = w := by
  have hlt := w.toNat_lt
  have hsigned := toInt_eq w
  refine (eq_ofInt ?_).symm
  cases shift with
  | lsl => simp only [number]; omega
  | lsr => simp only [number]; omega
  | asr => simp only [number]; omega
  | ror => simp only [number, Nat.zero_mod]; omega

theorem result_zero (shift : Shift) (w : Word) (carry : Bool) :
    shift.result w 0 carry = ⟨w, carry⟩ := by
  unfold result
  rw [number_zero, if_pos rfl]

/-- A shift by some places is known by its value and the last bit moved out. -/
theorem eq_result {shift : Shift} {w value : Word} {places : Nat} {carry last : Bool}
    (h : places ≠ 0) (hv : (value.toNat : Int) = shift.number w places % 2 ^ 32)
    (hc : (last.toNat : Int) = shift.lastOut w places % 2) :
    ⟨value, last⟩ = shift.result w places carry := by
  have hlast : last = (shift.lastOut w places % 2 == 1) := by
    rw [← hc]
    cases last <;> rfl
  unfold result
  rw [if_neg h, ← eq_ofInt hv, ← hlast]

/-! ## Each kind of shift -/

variable {w amount : Word} {n : Nat} (carry : Bool)

/-- The amounts that the barrel shifter tells apart. -/
theorem amount_iff (hn : amount.toNat = n) :
    (amount = 0 ↔ n = 0) ∧ (amount < 32 ↔ n < 32) ∧ (amount = 32 ↔ n = 32) := by
  subst hn
  rw [← UInt32.toNat_inj, ← UInt32.toNat_inj, UInt32.lt_iff_toNat_lt]
  exact ⟨Iff.rfl, Iff.rfl, Iff.rfl⟩

/-- Where more than the whole word is moved out to the left, only zeros are left. -/
theorem toNat_left (w : Word) (hle : 32 ≤ n) :
    w.toNat * 2 ^ n % 2 ^ 32 = 0 ∧ w.toNat * 2 ^ n / 2 ^ 32 = w.toNat * 2 ^ (n - 32) := by
  have hsplit : 2 ^ n = 2 ^ (n - 32) * 2 ^ 32 := by rw [← Nat.pow_add]; congr 1; omega
  rw [hsplit, ← Nat.mul_assoc]
  exact ⟨Nat.mul_mod_left .., Nat.mul_div_cancel _ (by decide)⟩

theorem left_eq (hn : amount.toNat = n) : left w amount carry = lsl.result w n carry := by
  obtain ⟨hzero, hlt, hword⟩ := amount_iff hn
  unfold left
  split_ifs with h0 h h32
  · rw [hzero.mp h0, result_zero]
  · replace h := hlt.mp h
    have hsplit : 2 ^ 32 = 2 ^ (32 - n) * 2 ^ n := by rw [← Nat.pow_add]; congr 1; omega
    have hplace : (32 - amount).toNat % 32 = 32 - n := by
      have hne := mt hzero.mpr h0
      rw [UInt32.toNat_sub, hn]
      show (2 ^ 32 - n + 32) % 2 ^ 32 % 32 = 32 - n
      omega
    refine eq_result (mt hzero.mpr h0) ?_ ?_
    · rw [UInt32.toNat_shiftLeft, hn, Nat.mod_eq_of_lt h, Nat.shiftLeft_eq]
      simp [number]
    · rw [toNat_bit _ hplace, ← Nat.mul_div_mul_right _ _ (Nat.two_pow_pos n), ← hsplit]
      simp [lastOut]
  · obtain rfl := hword.mp h32
    obtain ⟨hvalue, hlast⟩ := toNat_left w (le_refl 32)
    refine eq_result (by decide) ?_ ?_
    · simp only [number]
      exact_mod_cast hvalue.symm
    · rw [toNat_bit 0 rfl]
      simp only [lastOut]
      norm_cast
      rw [hlast]
      norm_num
  · have h33 : 33 ≤ n := by
      have hne := mt hword.mpr h32
      have hge := mt hlt.mpr h
      omega
    obtain ⟨hvalue, hlast⟩ := toNat_left w (show 32 ≤ n by omega)
    refine eq_result (by omega) ?_ ?_
    · simp only [number]
      exact_mod_cast hvalue.symm
    · simp only [lastOut]
      norm_cast
      rw [hlast]
      have heven : 2 ∣ w.toNat * 2 ^ (n - 32) :=
        Dvd.dvd.mul_left (dvd_pow_self 2 (by omega)) _
      exact (Nat.mod_eq_zero_of_dvd heven).symm

/-- Where more than the whole word is moved out to the right, nothing is left. -/
theorem toNat_right (w : Word) (hle : 32 ≤ n) : w.toNat / 2 ^ n = 0 :=
  Nat.div_eq_of_lt (w.toNat_lt.trans_le (Nat.pow_le_pow_right (by decide) hle))

theorem right_eq (hn : amount.toNat = n) : right w amount carry = lsr.result w n carry := by
  obtain ⟨hzero, hlt, hword⟩ := amount_iff hn
  unfold right
  split_ifs with h0 h h32
  · rw [hzero.mp h0, result_zero]
  · replace h := hlt.mp h
    have hplace : (amount - 1).toNat % 32 = n - 1 := by
      have hne := mt hzero.mpr h0
      rw [UInt32.toNat_sub, hn]
      show (2 ^ 32 - 1 + n) % 2 ^ 32 % 32 = n - 1
      omega
    refine eq_result (mt hzero.mpr h0) ?_ ?_
    · have hsmall : w.toNat / 2 ^ n < 2 ^ 32 := (Nat.div_le_self ..).trans_lt w.toNat_lt
      rw [toNat_shiftRight n (hn.symm ▸ Nat.mod_eq_of_lt h)]
      simp only [number]
      exact_mod_cast (Nat.mod_eq_of_lt hsmall).symm
    · rw [toNat_bit _ hplace]
      simp [lastOut]
  · obtain rfl := hword.mp h32
    refine eq_result (by decide) ?_ ?_
    · simp only [number]
      exact_mod_cast (congrArg (· % 2 ^ 32) (toNat_right w (le_refl 32))).symm
    · rw [toNat_bit 31 rfl]
      simp [lastOut]
  · have h33 : 33 ≤ n := by
      have hne := mt hword.mpr h32
      have hge := mt hlt.mpr h
      omega
    refine eq_result (by omega) ?_ ?_
    · simp only [number]
      exact_mod_cast (congrArg (· % 2 ^ 32) (toNat_right w (show 32 ≤ n by omega))).symm
    · simp only [lastOut]
      exact_mod_cast (congrArg (· % 2) (toNat_right w (show 32 ≤ n - 1 by omega))).symm

/-- From 31 places on only the sign is left. -/
theorem toInt_right (w : Word) (hle : 31 ≤ n) :
    w.toInt32.toInt / 2 ^ n = -(w.toNat / 2 ^ 31 : Nat) := by
  have hlt := w.toNat_lt
  have hsigned := toInt_eq w
  have hpow : (2 : Int) ^ 31 ≤ 2 ^ n := pow_le_pow_right₀ (by decide) hle
  generalize (2 : Int) ^ n = p at hpow ⊢
  by_cases hneg : w.toNat < 2 ^ 31
  · rw [Int.ediv_eq_zero_of_lt (by omega) (by omega)]
    omega
  · have hsign : w.toNat / 2 ^ 31 = 1 := by omega
    rw [hsign, Int.ediv_eq_iff_of_pos (by omega)]
    constructor <;> push_cast <;> omega

theorem lastOut_asr (w : Word) (hn : n - 1 < 32) :
    asr.lastOut w n % 2 = (w.toNat / 2 ^ (n - 1) % 2 : Nat) := by
  have hpow : (2 : Int) ^ 32 = 2 * 2 ^ (31 - (n - 1)) * 2 ^ (n - 1) := by
    rw [mul_assoc, ← pow_add, ← pow_succ']
    congr 1
    omega
  have hpos : (2 : Int) ^ (n - 1) ≠ 0 := pow_ne_zero _ (by decide)
  simp only [lastOut]
  rw [toInt_eq, hpow, sub_eq_add_neg, ← neg_mul, ← mul_assoc, Int.add_mul_ediv_right _ _ hpos,
    mul_left_comm, Int.add_mul_emod_self_left]
  norm_cast

theorem arithmetic_eq (hn : amount.toNat = n) :
    arithmetic w amount carry = asr.result w n carry := by
  obtain ⟨hzero, hlt, hword⟩ := amount_iff hn
  unfold arithmetic
  split_ifs with h0 h
  · rw [hzero.mp h0, result_zero]
  · replace h := hlt.mp h
    have hplace : (amount - 1).toNat % 32 = n - 1 := by
      have hne := mt hzero.mpr h0
      rw [UInt32.toNat_sub, hn]
      show (2 ^ 32 - 1 + n) % 2 ^ 32 % 32 = n - 1
      omega
    have hvalue :
        (w.toInt32 >>> amount.toInt32).toUInt32.toInt32.toInt = w.toInt32.toInt / 2 ^ n := by
      show (w.toInt32 >>> amount.toInt32).toUInt32.toBitVec.toInt = _
      rw [toBitVec_signedShift w hn h, BitVec.toInt_sshiftRight, Int.shiftRight_eq_div_pow]
      push_cast
      rfl
    refine eq_result (mt hzero.mpr h0) ?_ ?_
    · rw [toNat_eq_toInt, hvalue]
      rfl
    · rw [toNat_bit _ hplace, lastOut_asr w (by omega)]
  · replace h := mt hlt.mpr h
    have hvalue : (w.toInt32 >>> 31).toUInt32.toInt32.toInt = w.toInt32.toInt / 2 ^ n := by
      show (w.toInt32 >>> (31 : Word).toInt32).toUInt32.toBitVec.toInt = _
      rw [toBitVec_signedShift w (n := 31) rfl (by decide), BitVec.toInt_sshiftRight,
        Int.shiftRight_eq_div_pow, toInt_right w (by omega)]
      exact_mod_cast toInt_right w (le_refl 31)
    refine eq_result (by omega) ?_ ?_
    · rw [toNat_eq_toInt, hvalue]
      rfl
    · rw [toNat_bit 31 rfl]
      simp only [lastOut]
      rw [toInt_right w (by omega)]
      have := w.toNat_lt
      omega

/-- The last bit that a rotation moves becomes the top one. -/
theorem topBit_rotated {m : Nat} (hlt : w.toNat < 2 ^ 32) (h0 : m ≠ 0) (hm : m < 32) :
    (w.toNat / 2 ^ m + w.toNat % 2 ^ m * 2 ^ (32 - m)) / 2 ^ 31 = w.toNat / 2 ^ (m - 1) % 2 := by
  have htop : 2 ^ 31 = 2 ^ (32 - m) * 2 ^ (m - 1) := by rw [← Nat.pow_add]; congr 1; omega
  have hword : 2 ^ 32 = 2 ^ m * 2 ^ (32 - m) := by rw [← Nat.pow_add]; congr 1; omega
  have hdouble : 2 ^ m = 2 ^ (m - 1) * 2 := by rw [← Nat.pow_succ]; congr 1; omega
  have hlow : w.toNat / 2 ^ m < 2 ^ (32 - m) := Nat.div_lt_of_lt_mul (hword ▸ hlt)
  rw [htop, ← Nat.div_div_eq_div_mul, Nat.add_mul_div_right _ _ (Nat.two_pow_pos _),
    Nat.div_eq_of_lt hlow, Nat.zero_add, hdouble, Nat.mod_mul_right_div_self]

theorem rotate_eq (hn : amount.toNat = n) : rotate w amount carry = ror.result w n carry := by
  have hzero := (amount_iff hn).1
  have hamount : (amount &&& 31).toNat = n % 32 := by
    rw [UInt32.toNat_and, hn]
    exact Nat.and_two_pow_sub_one_eq_mod n 5
  have hvalue := toNat_rotateRight w (n % 32) hamount (Nat.mod_lt _ (by decide))
  unfold rotate
  split_ifs with h0
  · rw [hzero.mp h0, result_zero]
  refine eq_result (mt hzero.mpr h0) ?_ ?_
  · have hlt := (rotateRight w (amount &&& 31)).toNat_lt
    rw [hvalue] at hlt ⊢
    simp only [number]
    exact_mod_cast (Nat.mod_eq_of_lt hlt).symm
  · have hlast :
        (w.toNat / 2 ^ (n % 32) + w.toNat % 2 ^ (n % 32) * 2 ^ (32 - n % 32)) / 2 ^ 31 % 2 =
          w.toNat / 2 ^ ((n - 1) % 32) % 2 := by
      have hne := mt hzero.mpr h0
      by_cases hturn : n % 32 = 0
      · have hprevious : (n - 1) % 32 = 31 := by omega
        rw [hturn, hprevious, Nat.pow_zero, Nat.mod_one, Nat.div_one, Nat.zero_mul, Nat.add_zero]
      · have hprevious : (n - 1) % 32 = n % 32 - 1 := by omega
        rw [topBit_rotated w.toNat_lt hturn (Nat.mod_lt _ (by decide)), hprevious, Nat.mod_mod]
    rw [toNat_bit 31 rfl, hvalue, hlast]
    simp [lastOut]

/-- **The barrel shifter.** For every kind and amount it gives the word and the last bit out. -/
theorem byAmount_eq (shift : Shift) (w amount : Word) :
    shift.byAmount w amount carry = shift.result w amount.toNat carry := by
  cases shift with
  | lsl => exact left_eq carry rfl
  | lsr => exact right_eq carry rfl
  | asr => exact arithmetic_eq carry rfl
  | ror => exact rotate_eq carry rfl

theorem throughCarry_eq (w : Word) :
    throughCarry w carry =
      ⟨UInt32.ofNat (carry.toNat * 2 ^ 31 + w.toNat / 2), w.toNat % 2 == 1⟩ := by
  have hlow : (w >>> 1).toNat = w.toNat / 2 ^ 1 := toNat_shiftRight 1 rfl
  have hlt := w.toNat_lt
  have htop : (carry.toUInt32 <<< 31).toNat = carry.toNat <<< 31 := by cases carry <;> rfl
  have hcarry := carry.toNat_lt
  have hvalue : carry.toUInt32 <<< 31 ||| w >>> 1 =
      UInt32.ofNat (carry.toNat * 2 ^ 31 + w.toNat / 2) := by
    rw [← UInt32.toNat_inj, UInt32.toNat_or, htop, hlow,
      ← Nat.shiftLeft_add_eq_or_of_lt (by omega), Nat.shiftLeft_eq,
      UInt32.toNat_ofNat_of_lt' (show carry.toNat * 2 ^ 31 + w.toNat / 2 < 2 ^ 32 by omega),
      Nat.pow_one]
  have hlast : bit w 0 = (w.toNat % 2 == 1) := by
    refine bit_eq 0 rfl ?_
    rw [Nat.pow_zero, Nat.div_one]
    rcases Nat.mod_two_eq_zero_or_one w.toNat with h | h <;> rw [h] <;> rfl
  unfold throughCarry
  rw [hvalue, hlast]

/-- **Shifts by a field.** The zero of the field has the meaning of its own. -/
theorem byImmediate_eq (shift : Shift) (w amount : Word) :
    shift.byImmediate w amount carry = shift.fieldResult w amount.toNat carry := by
  have hzero : amount = 0 ↔ amount.toNat = 0 := (amount_iff rfl).1
  unfold byImmediate fieldResult
  split_ifs with h0 h h
  · cases shift with
    | lsl => rfl
    | lsr => exact right_eq carry rfl
    | asr => exact arithmetic_eq carry rfl
    | ror => exact throughCarry_eq carry w
  · exact absurd (hzero.mp h0) h
  · exact absurd (hzero.mpr h) h0
  · exact byAmount_eq carry shift w amount

end Handheld.Shift
