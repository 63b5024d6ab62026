import Mathlib.Data.Nat.Digits.Defs
import Mathlib.Tactic
import Handheld.Access

/-!
# Masks, fields and alignment

Facts about single words that the status word, opcodes and the program counter rest on.

1. A word with the bits of one mask replaced looks the same through a disjoint mask
   (`insert_and`), and through the mask itself shows what was put in (`insert_and_self`).
2. A field of a word is what a mask in its place shows (`and_eq_iff`), and a digit of the number
   that the word is (`toNat_field`, `field_eq_iff`, `bit_eq_iff`).
3. A word is also a signed number (`toInt_eq`), as are its low bits (`signExtend_eq`), and a
   rotation of it moves digits (`toNat_rotateRight`).
4. A word is made of its lanes (`fromLanes_eq`), and a value of any width is the number that its
   lanes spell (`toNat_assemble`). A halfword is made of two bytes (`toNat_eq_bytes`), of which one
   can be replaced (`toNat_withLowByte`, `toNat_withHighByte`).
5. `Width.align` gives a multiple of the width and keeps one (`align_mod`, `align_of_mod`), and
   multiples add up to multiples (`add_mod`, `add_bytes_mod`, `sub_bytes_mod`). The lanes of an
   access follow its aligned address (`toNat_align_add`), also in a memory that repeats
   (`add_lane_mod`).
-/

namespace Handheld

/-! ## Masks -/

theorem not_and_of_disjoint {m k : Word} (h : m &&& k = 0) : ~~~m &&& k = k := by
  apply UInt32.eq_of_toBitVec_eq
  have hb : m.toBitVec &&& k.toBitVec = 0 := congrArg UInt32.toBitVec h
  ext i hi
  have hi' : (m.toBitVec &&& k.toBitVec)[i] = false := by rw [hb]; simp
  rw [BitVec.getElem_and] at hi'
  rw [UInt32.toBitVec_and, UInt32.toBitVec_not, BitVec.getElem_and, BitVec.getElem_not]
  cases hm : m.toBitVec[i]
  · rfl
  · rw [hm, Bool.true_and] at hi'
    rw [hi']; rfl

theorem or_and (a b k : Word) : (a ||| b) &&& k = a &&& k ||| b &&& k := by
  apply UInt32.eq_of_toBitVec_eq
  ext i hi
  simp only [UInt32.toBitVec_and, UInt32.toBitVec_or, BitVec.getElem_and, BitVec.getElem_or]
  exact Bool.and_or_distrib_right ..

theorem and_or (k a b : Word) : k &&& (a ||| b) = k &&& a ||| k &&& b := by
  rw [UInt32.and_comm, or_and, UInt32.and_comm a, UInt32.and_comm b]

theorem and_or_self (a k : Word) : a &&& k ||| k = k := by
  apply UInt32.eq_of_toBitVec_eq
  ext i hi
  simp only [UInt32.toBitVec_and, UInt32.toBitVec_or, BitVec.getElem_and, BitVec.getElem_or]
  cases a.toBitVec[i] <;> cases k.toBitVec[i] <;> rfl

/-- What is seen through a mask is all seen through it again. -/
theorem and_and_self (v m : Word) : v &&& m &&& m = v &&& m := by
  rw [UInt32.and_assoc, UInt32.and_self]

/-- Bits cleared outside of a mask are not seen through it. -/
theorem clear_and {m k : Word} (w : Word) (h : m &&& k = 0) : w &&& ~~~m &&& k = w &&& k := by
  rw [UInt32.and_assoc, not_and_of_disjoint h]

/-- Bits set outside of a mask are not seen through it. -/
theorem set_and {v k : Word} (w : Word) (h : v &&& k = 0) : (w ||| v) &&& k = w &&& k := by
  rw [or_and, h, UInt32.or_zero]

/-- Bits replaced outside of a mask are not seen through it. -/
theorem insert_and {m v k : Word} (w : Word) (hv : v &&& m = v) (h : m &&& k = 0) :
    (w &&& ~~~m ||| v) &&& k = w &&& k := by
  have hk : v &&& k = 0 := by rw [← hv, UInt32.and_assoc, h, UInt32.and_zero]
  rw [set_and _ hk, clear_and _ h]

/-- The bits put in place of a mask are what is seen through it. -/
theorem insert_and_self {m v : Word} (w : Word) (hv : v &&& m = v) :
    (w &&& ~~~m ||| v) &&& m = v := by
  rw [or_and, UInt32.and_assoc, UInt32.not_and_self, UInt32.and_zero, UInt32.zero_or, hv]

/-! ## Fields -/

theorem and_shiftLeft (w m k : Word) : w &&& m <<< k = field w k m <<< k := by
  apply UInt32.eq_of_toBitVec_eq
  simp only [field, UInt32.toBitVec_and, UInt32.toBitVec_shiftLeft, UInt32.toBitVec_shiftRight]
  generalize k.toBitVec % 32 = n
  ext i hi
  simp only [BitVec.shiftLeft_eq', BitVec.ushiftRight_eq', BitVec.getElem_and,
    BitVec.getElem_shiftLeft, BitVec.getElem_ushiftRight]
  by_cases h : i < n.toNat
  · simp [h]
  · rw [Nat.add_sub_cancel' (Nat.le_of_not_lt h), BitVec.getLsbD_eq_getElem hi]
    exact Bool.and_left_comm ..

/-- A field may be tested in its place. -/
theorem and_eq_iff {w k m v mask value : Word} (hm : m <<< k = mask) (hv : v <<< k = value)
    (hm' : mask >>> k = m) (hv' : value >>> k = v) : w &&& mask = value ↔ field w k m = v := by
  constructor
  · intro h
    rw [← hv', ← h, UInt32.shiftRight_and, hm']
    rfl
  · intro h
    rw [← hm, and_shiftLeft, h, hv]

theorem and_eq_zero_iff {w k m mask : Word} (hm : m <<< k = mask) (hm' : mask >>> k = m) :
    w &&& mask = 0 ↔ field w k m = 0 :=
  and_eq_iff hm UInt32.zero_shiftLeft hm' UInt32.zero_shiftRight

/-- The test on bits 8 to 11 that both instruction sets make. -/
theorem and_bits8_iff {w : Word} : w &&& 0xF00 = 0 ↔ field w 8 0xF = 0 :=
  and_eq_zero_iff (by decide) (by decide)

/-- A field of some bits is a digit of the number. -/
theorem toNat_field (w : Word) {k m : Word} (i j : Nat) (hk : k.toNat % 32 = i)
    (hm : m.toNat = 2 ^ j - 1) : (field w k m).toNat = w.toNat / 2 ^ i % 2 ^ j := by
  rw [field, UInt32.toNat_and, UInt32.toNat_shiftRight, hk, hm, Nat.and_two_pow_sub_one_eq_mod,
    Nat.shiftRight_eq_div_pow]

theorem bit_eq_true_iff {w k : Word} : bit w k = true ↔ field w k 1 = 1 :=
  beq_iff_eq

theorem bit_eq_false_iff {w k : Word} : bit w k = false ↔ field w k 1 = 0 := by
  have h : (field w k 1).toNat = w.toNat / 2 ^ (k.toNat % 32) % 2 ^ 1 := toNat_field w _ 1 rfl rfl
  rw [← Bool.not_eq_true, bit_eq_true_iff, ← UInt32.toNat_inj, ← UInt32.toNat_inj]
  show ¬ _ = 1 ↔ _ = 0
  omega

section Digits

variable {w k : Word} (i : Nat) (hk : k.toNat % 32 = i)
include hk

theorem toNat_shiftRight : (w >>> k).toNat = w.toNat / 2 ^ i := by
  rw [UInt32.toNat_shiftRight, hk, Nat.shiftRight_eq_div_pow]

theorem field_eq_iff {m value : Word} (j : Nat) (hm : m.toNat = 2 ^ j - 1) :
    field w k m = value ↔ w.toNat / 2 ^ i % 2 ^ j = value.toNat := by
  rw [← UInt32.toNat_inj, toNat_field w i j hk hm]

theorem field_eq {m value : Word} (j : Nat) (hm : m.toNat = 2 ^ j - 1)
    (h : w.toNat / 2 ^ i % 2 ^ j = value.toNat) : field w k m = value :=
  (field_eq_iff i hk j hm).mpr h

theorem digit_eq {m value : Word} (j : Nat) (hm : m.toNat = 2 ^ j - 1) (h : field w k m = value) :
    w.toNat / 2 ^ i % 2 ^ j = value.toNat :=
  (field_eq_iff i hk j hm).mp h

theorem bit_eq_iff {value : Bool} : bit w k = value ↔ w.toNat / 2 ^ i % 2 = value.toNat := by
  cases value
  · exact bit_eq_false_iff.trans (field_eq_iff i hk 1 rfl)
  · exact bit_eq_true_iff.trans (field_eq_iff i hk 1 rfl)

theorem bit_eq {value : Bool} (h : w.toNat / 2 ^ i % 2 = value.toNat) : bit w k = value :=
  (bit_eq_iff i hk).mpr h

theorem bit_set (h : w.toNat / 2 ^ i % 2 = 1) : bit w k = true :=
  bit_eq i hk h

theorem bit_clear (h : w.toNat / 2 ^ i % 2 = 0) : bit w k = false :=
  bit_eq i hk h

theorem toNat_bit : (bit w k).toNat = w.toNat / 2 ^ i % 2 :=
  ((bit_eq_iff i hk).mp rfl).symm

end Digits

theorem and_eq_of_toNat {w m value : Word} (j : Nat) (hm : m.toNat = 2 ^ j - 1)
    (h : w.toNat % 2 ^ j = value.toNat) : w &&& m = value := by
  apply UInt32.toNat_inj.mp
  rw [UInt32.toNat_and, hm, Nat.and_two_pow_sub_one_eq_mod, h]

/-- A constant of eight bits may be kept in two halves. -/
theorem halves_eq {w constant : Word} (hlow : w.toNat % 2 ^ 4 = constant.toNat % 2 ^ 4)
    (hhigh : w.toNat / 2 ^ 8 % 2 ^ 4 = constant.toNat / 2 ^ 4) :
    w &&& 0xF ||| field w 4 0xF0 = constant := by
  have hl : (w &&& 0xF).toNat = constant.toNat % 2 ^ 4 := by
    rw [UInt32.toNat_and, ← hlow]
    exact Nat.and_two_pow_sub_one_eq_mod _ 4
  have hh : (field w 4 0xF0).toNat = (constant.toNat / 2 ^ 4) <<< 4 := by
    have h : field w 4 0xF0 = field (w >>> 4) 4 0xF <<< 4 := and_shiftLeft (w >>> 4) 0xF 4
    have hlt : constant.toNat / 2 ^ 4 < 2 ^ 4 := hhigh ▸ Nat.mod_lt _ (by decide)
    rw [h, UInt32.toNat_shiftLeft, toNat_field _ 4 4 rfl rfl, toNat_shiftRight 4 rfl,
      Nat.div_div_eq_div_mul]
    change (w.toNat / 2 ^ 8 % 2 ^ 4) <<< 4 % 2 ^ 32 = _
    rw [hhigh, Nat.shiftLeft_eq]
    exact Nat.mod_eq_of_lt (by omega)
  rw [← UInt32.toNat_inj, UInt32.toNat_or, hl, hh, Nat.or_comm,
    ← Nat.shiftLeft_add_eq_or_of_lt (Nat.mod_lt _ (by decide)), Nat.shiftLeft_eq, Nat.mul_comm,
    Nat.div_add_mod]

/-! ## Signed numbers and rotation -/

theorem toNat_ofInt (value : Int) : (UInt32.ofInt value).toNat = (value % 2 ^ 32).toNat := by
  have hlt : (value % 2 ^ 32).toNat < 2 ^ 32 := by omega
  exact UInt32.toNat_ofNat_of_lt' hlt

theorem toBitVec_ofInt (value : Int) : (UInt32.ofInt value).toBitVec = BitVec.ofInt 32 value := by
  apply BitVec.eq_of_toNat_eq
  rw [BitVec.toNat_ofInt]
  exact toNat_ofInt value

/-- A word is the number that it is congruent to. -/
theorem eq_ofInt {w : Word} {value : Int} (h : (w.toNat : Int) = value % 2 ^ 32) :
    w = UInt32.ofInt value := by
  rw [← UInt32.toNat_inj, toNat_ofInt, ← h, Int.toNat_natCast]

/-- The signed number of a word is less by a whole turn where the top bit is set. -/
theorem toInt_eq (w : Word) : w.toInt32.toInt = w.toNat - w.toNat / 2 ^ 31 * 2 ^ 32 := by
  have hlt := w.toNat_lt
  have hint : w.toInt32.toInt = _ := BitVec.toInt_eq_toNat_cond w.toBitVec
  rw [hint]
  change (if 2 * w.toNat < 2 ^ 32 then (w.toNat : Int) else w.toNat - (2 ^ 32 : Nat)) = _
  split <;> omega

/-- The complement of a signed number. -/
theorem toInt_not (w : Word) : (~~~w).toInt32.toInt = -1 - w.toInt32.toInt := by
  have hlt := w.toNat_lt
  have hnot : (~~~w).toNat = 2 ^ 32 - 1 - w.toNat := UInt32.toNat_not w
  rw [toInt_eq, toInt_eq, hnot]
  omega

theorem toNat_eq_toInt (w : Word) : (w.toNat : Int) = w.toInt32.toInt % 2 ^ 32 := by
  have hlt := w.toNat_lt
  rw [toInt_eq]
  omega

/-- A signed shift by less than a word takes its amount as it stands. -/
theorem toBitVec_signedShift (w : Word) {k : Word} {n : Nat} (hk : k.toNat = n) (hn : n < 32) :
    (w.toInt32 >>> k.toInt32).toUInt32.toBitVec = w.toBitVec.sshiftRight n := by
  have hamount : ∀ s : Fin 32, ((UInt32.ofNat s).toInt32.toBitVec.smod 32).toNat = s := by
    decide +kernel
  have hof : k = UInt32.ofNat n := by rw [← hk, UInt32.ofNat_toNat]
  show w.toBitVec.sshiftRight' (k.toInt32.toBitVec.smod 32) = _
  rw [BitVec.sshiftRight', hof, hamount ⟨n, hn⟩]

/-- Bits moved to the top of a word and two places less far back are the bits, signed and moved up. -/
theorem signedShift_six (w : Word) :
    ((w <<< 8).toInt32 >>> 6).toUInt32 = signExtend 24 w <<< 2 := by
  apply UInt32.eq_of_toBitVec_eq
  have h : ((w <<< 8).toInt32 >>> 6).toUInt32.toBitVec = (w <<< 8).toBitVec.sshiftRight 6 :=
    toBitVec_signedShift (w <<< 8) (k := 6) rfl (by decide)
  have h' : (signExtend 24 w).toBitVec = (w <<< 8).toBitVec.sshiftRight 8 :=
    toBitVec_signedShift (w <<< 8) (k := 8) rfl (by decide)
  rw [UInt32.toBitVec_shiftLeft, h, h']
  show (w.toBitVec <<< 8).sshiftRight 6 = (w.toBitVec <<< 8).sshiftRight 8 <<< 2
  ext i hi
  simp only [BitVec.getElem_sshiftRight, BitVec.getElem_shiftLeft]
  by_cases h2 : i < 2
  · have h8 : 6 + i < 8 := by omega
    have h32 : 6 + i < 32 := by omega
    simp [h2, h8, h32]
  · have h8 : 8 + (i - 2) = 6 + i := by omega
    simp only [h2, h8]
    simp

/-- Bits moved to the top of a word and back are the bits, signed. -/
theorem sshiftRight_shiftLeft {n s : Nat} (hn : 0 < n) (hs : n + s = 32) (x : BitVec 32) :
    (x <<< s).sshiftRight s = (x.setWidth n).signExtend 32 := by
  ext i hi
  rw [BitVec.getElem_sshiftRight, BitVec.getElem_signExtend]
  by_cases h : i < n
  · rw [dif_pos (by omega), dif_pos h, BitVec.getElem_shiftLeft, BitVec.getElem_setWidth,
      decide_eq_false (show ¬ s + i < s by omega), BitVec.getLsbD_eq_getElem hi]
    simp only [Nat.add_sub_cancel_left, Bool.not_false, Bool.true_and]
  · have hlast : 32 - 1 - s = n - 1 := by omega
    rw [dif_neg (by omega), dif_neg h, BitVec.msb_eq_getLsbD_last, BitVec.msb_eq_getLsbD_last,
      BitVec.getLsbD_shiftLeft, BitVec.getLsbD_setWidth, hlast,
      decide_eq_true (show n - 1 < n by omega), decide_eq_false (show ¬ 32 - 1 < s by omega)]
    rfl

theorem toBitVec_signExtend {bits : Word} {n s : Nat} (hn : 0 < n) (hs : n + s = 32)
    (hb : bits.toNat = n) (w : Word) :
    (signExtend bits w).toBitVec = (w.toBitVec.setWidth n).signExtend 32 := by
  have hk : (32 - bits).toNat = s := by
    rw [UInt32.toNat_sub, hb]
    show (2 ^ 32 - n + 32) % 2 ^ 32 = s
    omega
  have hleft : ((32 - bits).toBitVec % 32).toNat = s := by
    show (32 - bits).toNat % 32 = s
    omega
  rw [← sshiftRight_shiftLeft hn hs]
  unfold signExtend
  rw [toBitVec_signedShift _ hk (by omega), UInt32.toBitVec_shiftLeft, BitVec.shiftLeft_eq', hleft]

/-- The low bits of a word as a signed number. -/
theorem signExtend_eq {bits : Word} {n : Nat} (s : Nat) (hn : 0 < n) (hs : n + s = 32)
    (hb : bits.toNat = n) {w : Word} {offset : BitVec n} (h : w.toNat % 2 ^ n = offset.toNat) :
    signExtend bits w = UInt32.ofInt offset.toInt := by
  apply UInt32.eq_of_toBitVec_eq
  have hoffset : w.toBitVec.setWidth n = offset := by
    apply BitVec.eq_of_toNat_eq
    rw [BitVec.toNat_setWidth]
    exact h
  rw [toBitVec_signExtend hn hs hb, hoffset, toBitVec_ofInt]
  rfl

theorem toInt_signExtend {bits : Word} {n s : Nat} (hn : 0 < n) (hs : n + s = 32)
    (hb : bits.toNat = n) (w : Word) :
    (signExtend bits w).toInt32.toInt = (w.toNat : Int).bmod (2 ^ n) := by
  show (signExtend bits w).toBitVec.toInt = _
  rw [toBitVec_signExtend hn hs hb, BitVec.toInt_signExtend_of_le (by omega), BitVec.toInt_setWidth]
  rfl

/-- A rotation moves the low bits to the top. -/
theorem toNat_rotateRight (w : Word) {k : Word} (n : Nat) (hk : k.toNat = n) (hn : n < 32) :
    (rotateRight w k).toNat = w.toNat / 2 ^ n + w.toNat % 2 ^ n * 2 ^ (32 - n) := by
  have hsplit : 2 ^ n * 2 ^ (32 - n) = 2 ^ 32 := by rw [← Nat.pow_add]; congr 1; omega
  have hright : (w >>> k).toNat = w.toNat / 2 ^ n :=
    toNat_shiftRight n (hk.symm ▸ Nat.mod_eq_of_lt hn)
  have hlow : w.toNat / 2 ^ n < 2 ^ (32 - n) :=
    Nat.div_lt_of_lt_mul (hsplit ▸ w.toNat_lt)
  have hleft : (w <<< (32 - k)).toNat = (w.toNat % 2 ^ n) <<< (32 - n) ∨ n = 0 := by
    refine or_iff_not_imp_right.mpr fun h0 => ?_
    have hamount : (32 - k).toNat % 32 = 32 - n := by
      rw [UInt32.toNat_sub, hk]
      show (2 ^ 32 - n + 32) % 2 ^ 32 % 32 = 32 - n
      omega
    rw [UInt32.toNat_shiftLeft, hamount, Nat.shiftLeft_eq, Nat.shiftLeft_eq, ← hsplit,
      Nat.mul_mod_mul_right]
  rcases hleft with hleft | rfl
  · rw [rotateRight, UInt32.toNat_or, hright, hleft, Nat.or_comm,
      ← Nat.shiftLeft_add_eq_or_of_lt hlow, Nat.shiftLeft_eq, Nat.add_comm]
  · obtain rfl : k = 0 := UInt32.toNat_inj.mp hk
    have hturn : w <<< (32 - 0) = w := by
      rw [← UInt32.toNat_inj, UInt32.toNat_shiftLeft]
      exact Nat.mod_eq_of_lt w.toNat_lt
    rw [rotateRight, hturn, UInt32.shiftRight_zero, UInt32.or_self]
    omega

theorem rotateRight_zero (w : Word) : rotateRight w 0 = w := by
  apply UInt32.toNat_inj.mp
  rw [toNat_rotateRight w 0 rfl (by decide)]
  omega

/-- A rotation by 30 moves a short constant two places up. -/
theorem rotateRight_thirty {w : Word} (h : w.toNat < 2 ^ 8) : rotateRight w 30 = w * 4 := by
  apply UInt32.toNat_inj.mp
  rw [toNat_rotateRight w 30 rfl (by decide), UInt32.toNat_mul]
  show _ = w.toNat * 4 % 2 ^ 32
  omega

/-! ## Lanes -/

theorem toUInt32_toUInt8 (w : Word) : w.toUInt8.toUInt32 = w &&& 0xFF := by
  rw [UInt32.toUInt32_toUInt8, ← UInt32.toNat_inj, UInt32.toNat_mod, UInt32.toNat_and]
  exact (Nat.and_two_pow_sub_one_eq_mod w.toNat 8).symm

/-- A lane put back in its place is what the word has there. -/
theorem lane_shiftLeft (w : Word) (index : Nat) :
    (lane w index).toUInt32 <<< UInt32.ofNat (8 * index) =
      w &&& 0xFF <<< UInt32.ofNat (8 * index) := by
  have hl : (lane w index).toUInt32 = field w (UInt32.ofNat (8 * index)) 0xFF :=
    toUInt32_toUInt8 _
  rw [hl, and_shiftLeft]

/-- Some lanes of a word, each in its place. -/
def fromLanes (w : Word) (lanes : List Nat) : Word :=
  lanes.foldl (fun sofar index => sofar ||| (lane w index).toUInt32 <<< UInt32.ofNat (8 * index)) 0

/-- A word is made of its lanes. -/
theorem fromLanes_eq (width : Width) {w : Word} (h : w &&& width.mask = w) :
    fromLanes w (List.range width.lanes) = w := by
  have hstep (lanes : List Nat) (index : Nat) (mask : Word) (hl : fromLanes w lanes = w &&& mask) :
      fromLanes w (lanes ++ [index]) = w &&& (mask ||| 0xFF <<< UInt32.ofNat (8 * index)) := by
    unfold fromLanes at hl ⊢
    rw [List.foldl_append, hl, List.foldl_cons, List.foldl_nil, lane_shiftLeft, and_or]
  have h0 : fromLanes w [0] = w &&& 0xFF := hstep [] 0 0 UInt32.and_zero.symm
  have h1 : fromLanes w [0, 1] = w &&& 0xFFFF := hstep [0] 1 0xFF h0
  have h3 : fromLanes w [0, 1, 2, 3] = w &&& 0xFFFFFFFF :=
    hstep [0, 1, 2] 3 0xFFFFFF (hstep [0, 1] 2 0xFFFF h1)
  cases width with
  | byte => exact h0.trans h
  | halfword => exact h1.trans h
  | word => exact h3.trans h

theorem Width.assemble_lane (w : Word) : Width.word.assemble (lane w) = w := by
  have h : fromLanes w [0, 1, 2, 3] = w := fromLanes_eq .word UInt32.and_neg_one
  have hfirst :
      (0 : Word) ||| (lane w 0).toUInt32 <<< UInt32.ofNat (8 * 0) = (lane w 0).toUInt32 := by simp
  rw [fromLanes, List.foldl_cons, hfirst] at h
  exact h

/-- A byte above a number that leaves it room. -/
theorem toNat_or_shiftLeft {low k : Word} (byte : UInt8) (i : Nat) (hk : k.toNat % 32 = i)
    (hi : i ≤ 24) (hlow : low.toNat < 2 ^ i) :
    (low ||| byte.toUInt32 <<< k).toNat = low.toNat + 2 ^ i * byte.toNat := by
  have hbyte := byte.toNat_lt
  have hroom : byte.toNat * 2 ^ i < 2 ^ 32 := by
    have hpow : 2 ^ i ≤ 2 ^ 24 := Nat.pow_le_pow_right (by decide) hi
    calc byte.toNat * 2 ^ i ≤ 255 * 2 ^ 24 := Nat.mul_le_mul (by omega) hpow
      _ < 2 ^ 32 := by decide
  rw [UInt32.toNat_or, UInt32.toNat_shiftLeft, hk, UInt8.toNat_toUInt32, Nat.shiftLeft_eq,
    Nat.mod_eq_of_lt hroom, Nat.or_comm, Nat.mul_comm, ← Nat.two_pow_add_eq_or_of_lt hlow,
    Nat.add_comm]

theorem toNat_lane (w : Word) {index : Nat} (h : index < 4) :
    (lane w index).toNat = w.toNat / 2 ^ (8 * index) % 2 ^ 8 := by
  have hk : (UInt32.ofNat (8 * index)).toNat % 32 = 8 * index := by
    rw [UInt32.toNat_ofNat_of_lt' (show 8 * index < 2 ^ 32 by omega)]
    omega
  rw [lane, UInt32.toNat_toUInt8, toNat_shiftRight _ hk]

namespace Width

theorem lanes_pos (width : Width) : 0 < width.lanes := by
  cases width <;> decide

theorem lanes_le (width : Width) : width.lanes ≤ 4 := by
  cases width <;> decide

/-- The mask of a width keeps its lanes. -/
theorem toNat_and_mask (width : Width) (w : Word) :
    (w &&& width.mask).toNat = w.toNat % 2 ^ (8 * width.lanes) := by
  rw [UInt32.toNat_and]
  cases width
  · exact Nat.and_two_pow_sub_one_eq_mod _ 8
  · exact Nat.and_two_pow_sub_one_eq_mod _ 16
  · exact Nat.and_two_pow_sub_one_eq_mod _ 32

theorem lane_and_mask {width : Width} (w : Word) {index : Nat} (h : index < width.lanes) :
    lane (w &&& width.mask) index = lane w index := by
  have hlt : index < 4 := h.trans_le width.lanes_le
  rw [← UInt8.toNat_inj, toNat_lane _ hlt, toNat_lane _ hlt, toNat_and_mask]
  have hsplit : 2 ^ (8 * width.lanes) =
      2 ^ (8 * index) * 2 ^ (8 * (width.lanes - index)) := by
    rw [← pow_add]
    congr 1
    omega
  have hdvd : 2 ^ 8 ∣ 2 ^ (8 * (width.lanes - index)) := Nat.pow_dvd_pow 2 (by omega)
  rw [hsplit, Nat.mod_mul_right_div_self, Nat.mod_mod_of_dvd _ hdvd]

theorem toNat_assemble_byte (lanes : Nat → UInt8) :
    (byte.assemble lanes).toNat = (lanes 0).toNat :=
  UInt8.toNat_toUInt32 _

theorem toNat_assemble_halfword (lanes : Nat → UInt8) :
    (halfword.assemble lanes).toNat = (lanes 0).toNat + 2 ^ 8 * (lanes 1).toNat :=
  toNat_or_shiftLeft (lanes 1) 8 rfl (by decide) (lanes 0).toNat_lt

theorem toNat_assemble_word (lanes : Nat → UInt8) :
    (word.assemble lanes).toNat =
      (lanes 0).toNat + 2 ^ 8 * (lanes 1).toNat + 2 ^ 16 * (lanes 2).toNat +
        2 ^ 24 * (lanes 3).toNat := by
  have h0 := (lanes 0).toNat_lt
  have h1 := (lanes 1).toNat_lt
  have h2 := (lanes 2).toNat_lt
  have htwo : ((lanes 0).toUInt32 ||| (lanes 1).toUInt32 <<< 8).toNat =
      (lanes 0).toNat + 2 ^ 8 * (lanes 1).toNat := toNat_assemble_halfword lanes
  have hthree : ((lanes 0).toUInt32 ||| (lanes 1).toUInt32 <<< 8 |||
      (lanes 2).toUInt32 <<< 16).toNat =
        (lanes 0).toNat + 2 ^ 8 * (lanes 1).toNat + 2 ^ 16 * (lanes 2).toNat := by
    rw [toNat_or_shiftLeft (lanes 2) 16 rfl (by decide) (by omega), htwo]
  rw [assemble, toNat_or_shiftLeft (lanes 3) 24 rfl (by decide) (by omega), hthree]

/-- The value of some lanes is the number that they spell. -/
theorem toNat_assemble (width : Width) (lanes : Nat → UInt8) :
    (width.assemble lanes).toNat =
      Nat.ofDigits 256 ((List.range width.lanes).map fun place => (lanes place).toNat) := by
  cases width with
  | byte =>
    rw [toNat_assemble_byte]
    show _ = Nat.ofDigits 256 [_]
    simp
  | halfword =>
    rw [toNat_assemble_halfword]
    show _ = Nat.ofDigits 256 [_, _]
    simp [Nat.ofDigits_cons]
  | word =>
    rw [toNat_assemble_word]
    show _ = Nat.ofDigits 256 [_, _, _, _]
    simp only [Nat.ofDigits_cons, Nat.ofDigits_nil]
    omega

/-- The lanes of a value make it up, as far as the width carries it. -/
theorem assemble_lanes (width : Width) (value : Word) :
    width.assemble (lane value) = value &&& width.mask := by
  rw [← UInt32.toNat_inj, toNat_and_mask]
  cases width with
  | byte =>
    rw [toNat_assemble_byte, toNat_lane _ (by decide)]
    simp [show byte.lanes = 1 from rfl]
  | halfword =>
    rw [toNat_assemble_halfword, toNat_lane _ (by decide), toNat_lane _ (by decide)]
    show _ = value.toNat % 2 ^ 16
    omega
  | word =>
    rw [assemble_lane]
    exact (Nat.mod_eq_of_lt value.toNat_lt).symm

end Width

/-! ## Registers of two bytes -/

theorem nat_and_shiftLeft (a b i : Nat) : a &&& b <<< i = (a >>> i &&& b) <<< i := by
  apply Nat.eq_of_testBit_eq
  intro place
  by_cases h : i ≤ place
  · simp [h]
  · simp [h]

section Halfwords

variable (value : UInt16) (byte : UInt8)

theorem toNat_lowByte : (lowByte value).toNat = value.toNat % 2 ^ 8 :=
  UInt16.toNat_toUInt8 value

theorem toNat_highByte : (highByte value).toNat = value.toNat / 2 ^ 8 := by
  have hlt := value.toNat_lt
  have hshift : (value >>> 8).toNat = value.toNat / 2 ^ 8 := by
    rw [UInt16.toNat_shiftRight]
    exact Nat.shiftRight_eq_div_pow ..
  rw [highByte, UInt16.toNat_toUInt8, hshift]
  omega

/-- A halfword is the number that its bytes spell. -/
theorem toNat_eq_bytes :
    value.toNat = (lowByte value).toNat + 2 ^ 8 * (highByte value).toNat := by
  rw [toNat_lowByte, toNat_highByte]
  omega

theorem toNat_withLowByte :
    (withLowByte value byte).toNat = byte.toNat + 2 ^ 8 * (highByte value).toNat := by
  have hhigh : (value &&& 0xFF00).toNat = (highByte value).toNat <<< 8 := by
    have hlt : value.toNat >>> 8 < 2 ^ 8 := by
      rw [Nat.shiftRight_eq_div_pow]
      exact Nat.div_lt_of_lt_mul value.toNat_lt
    rw [UInt16.toNat_and, toNat_highByte, ← Nat.shiftRight_eq_div_pow]
    show value.toNat &&& 0xFF <<< 8 = _
    rw [nat_and_shiftLeft, Nat.and_two_pow_sub_one_of_lt_two_pow hlt]
  rw [withLowByte, UInt16.toNat_or, hhigh, UInt8.toNat_toUInt16,
    ← Nat.shiftLeft_add_eq_or_of_lt byte.toNat_lt, Nat.shiftLeft_eq]
  omega

theorem toNat_withHighByte :
    (withHighByte value byte).toNat = (lowByte value).toNat + 2 ^ 8 * byte.toNat := by
  have hlow : (value &&& 0x00FF).toNat = (lowByte value).toNat := by
    rw [UInt16.toNat_and, toNat_lowByte]
    exact Nat.and_two_pow_sub_one_eq_mod _ 8
  have hhigh : (byte.toUInt16 <<< (8 : UInt16)).toNat = byte.toNat <<< 8 := by
    have hbyte := byte.toNat_lt
    rw [UInt16.toNat_shiftLeft, UInt8.toNat_toUInt16]
    show byte.toNat <<< 8 % 2 ^ 16 = _
    rw [Nat.shiftLeft_eq]
    omega
  rw [withHighByte, UInt16.toNat_or, hhigh, hlow, Nat.or_comm,
    ← Nat.shiftLeft_add_eq_or_of_lt (lowByte value).toNat_lt, Nat.shiftLeft_eq]
  omega

@[simp] theorem lowByte_withLowByte : lowByte (withLowByte value byte) = byte := by
  have hbyte := byte.toNat_lt
  rw [← UInt8.toNat_inj, toNat_lowByte, toNat_withLowByte]
  omega

@[simp] theorem highByte_withLowByte : highByte (withLowByte value byte) = highByte value := by
  have hbyte := byte.toNat_lt
  rw [← UInt8.toNat_inj, toNat_highByte, toNat_withLowByte]
  omega

@[simp] theorem lowByte_withHighByte : lowByte (withHighByte value byte) = lowByte value := by
  have hlow := (lowByte value).toNat_lt
  rw [← UInt8.toNat_inj, toNat_lowByte (withHighByte value byte), toNat_withHighByte]
  omega

@[simp] theorem highByte_withHighByte : highByte (withHighByte value byte) = byte := by
  have hlow := (lowByte value).toNat_lt
  rw [← UInt8.toNat_inj, toNat_highByte, toNat_withHighByte]
  omega

/-- The bits of a halfword are those of its bytes. -/
theorem testBit_eq_bytes (place : Nat) :
    value.toNat.testBit place =
      if place < 8 then (lowByte value).toNat.testBit place
      else (highByte value).toNat.testBit (place - 8) := by
  have hlow := (lowByte value).toNat_lt
  rw [toNat_eq_bytes, Nat.add_comm, Nat.testBit_two_pow_mul_add _ hlow]

theorem testBit_not {place : Nat} (h : place < 16) :
    (~~~value).toNat.testBit place = !value.toNat.testBit place := by
  show (~~~value).toBitVec.toNat.testBit place = !value.toBitVec.toNat.testBit place
  rw [BitVec.testBit_toNat, BitVec.testBit_toNat, UInt16.toBitVec_not, BitVec.getLsbD_not,
    decide_eq_true h, Bool.true_and]

end Halfwords

/-! ## Alignment -/

namespace Width

theorem mod_bytes (width : Width) (a : Word) : a % width.bytes = a &&& (width.bytes - 1) := by
  apply UInt32.toNat_inj.mp
  rw [UInt32.toNat_mod, UInt32.toNat_and]
  cases width
  · exact (Nat.and_two_pow_sub_one_eq_mod _ 0).symm
  · exact (Nat.and_two_pow_sub_one_eq_mod _ 1).symm
  · exact (Nat.and_two_pow_sub_one_eq_mod _ 2).symm

theorem align_mod (width : Width) (a : Word) : width.align a % width.bytes = 0 := by
  rw [mod_bytes, align, UInt32.and_assoc, UInt32.not_and_self, UInt32.and_zero]

theorem align_of_mod {width : Width} {a : Word} (h : a % width.bytes = 0) : width.align a = a := by
  rw [mod_bytes, UInt32.and_comm] at h
  rw [align, UInt32.and_comm]
  exact not_and_of_disjoint h

theorem align_byte (a : Word) : byte.align a = a :=
  UInt32.and_neg_one

/-- The width divides the number of words, so it also divides what wraps around. -/
theorem mod_bytes_iff {width : Width} {a : Word} :
    a % width.bytes = 0 ↔ a.toNat % width.bytes.toNat = 0 := by
  rw [← UInt32.toNat_inj, UInt32.toNat_mod]; rfl

theorem add_mod {width : Width} {a b : Word} (ha : a % width.bytes = 0)
    (hb : b % width.bytes = 0) : (a + b) % width.bytes = 0 := by
  rw [mod_bytes_iff] at ha hb ⊢
  rw [UInt32.toNat_add]
  cases width
  · exact Nat.mod_one _
  · change a.toNat % 2 = 0 at ha
    change b.toNat % 2 = 0 at hb
    show (a.toNat + b.toNat) % 2 ^ 32 % 2 = 0
    omega
  · change a.toNat % 4 = 0 at ha
    change b.toNat % 4 = 0 at hb
    show (a.toNat + b.toNat) % 2 ^ 32 % 4 = 0
    omega

theorem add_bytes_mod {width : Width} {a : Word} (h : a % width.bytes = 0) :
    (a + width.bytes) % width.bytes = 0 :=
  add_mod h (by cases width <;> decide)

theorem sub_bytes_mod {width : Width} {a : Word} (h : a % width.bytes = 0) :
    (a - width.bytes) % width.bytes = 0 := by
  rw [mod_bytes_iff] at h ⊢
  rw [UInt32.toNat_sub]
  cases width
  · exact Nat.mod_one _
  · change a.toNat % 2 = 0 at h
    show (2 ^ 32 - 2 + a.toNat) % 2 ^ 32 % 2 = 0
    omega
  · change a.toNat % 4 = 0 at h
    show (2 ^ 32 - 4 + a.toNat) % 2 ^ 32 % 4 = 0
    omega

theorem toNat_align (width : Width) (a : Word) :
    (width.align a).toNat = a.toNat / width.lanes * width.lanes := by
  have hlt := a.toNat_lt
  have hfield (m k : Word) (i : Nat) (hk : k.toNat % 32 = i) (hm : m.toNat = 2 ^ (32 - i) - 1)
      (hi : i ≤ 2) : (a &&& m <<< k).toNat = a.toNat / 2 ^ i * 2 ^ i := by
    rw [and_shiftLeft, UInt32.toNat_shiftLeft, hk, toNat_field a i (32 - i) hk hm,
      Nat.shiftLeft_eq]
    interval_cases i <;> omega
  cases width
  · exact hfield 0xFFFFFFFF 0 0 rfl rfl (by decide)
  · exact hfield 0x7FFFFFFF 1 1 rfl rfl (by decide)
  · exact hfield 0x3FFFFFFF 2 2 rfl rfl (by decide)

theorem align_add {width : Width} {a b : Word} (h : b % width.bytes = 0) :
    width.align (a + b) = width.align a + b := by
  rw [mod_bytes_iff] at h
  rw [← UInt32.toNat_inj, toNat_align, UInt32.toNat_add, UInt32.toNat_add, toNat_align]
  cases width
  · show _ / 1 * 1 = (_ / 1 * 1 + _) % _
    omega
  · change b.toNat % 2 = 0 at h
    show _ / 2 * 2 = (_ / 2 * 2 + _) % _
    omega
  · change b.toNat % 4 = 0 at h
    show _ / 4 * 4 = (_ / 4 * 4 + _) % _
    omega

/-! ## Bytes of an access -/

theorem assemble_congr {width : Width} {first second : Nat → UInt8}
    (h : ∀ index < width.lanes, first index = second index) :
    width.assemble first = width.assemble second := by
  cases width with
  | byte => exact congrArg UInt8.toUInt32 (h 0 (by decide))
  | halfword =>
    unfold assemble
    rw [h 0 (by decide), h 1 (by decide)]
  | word =>
    unfold assemble
    rw [h 0 (by decide), h 1 (by decide), h 2 (by decide), h 3 (by decide)]

theorem lanes_dvd_align (width : Width) (address : Word) :
    width.lanes ∣ (width.align address).toNat :=
  Nat.dvd_of_mod_eq_zero (mod_bytes_iff.mp (width.align_mod address))

/-- What is aligned has room for all the lanes before the next multiple of the width. -/
theorem add_lane_mod {width : Width} {base index size : Nat} (hb : width.lanes ∣ base)
    (hs : width.lanes ∣ size) (hpos : 0 < size) (h : index < width.lanes) :
    (base + index) % size = base % size + index := by
  have hlt := Nat.mod_lt base hpos
  have hroom : width.lanes ≤ size - base % size :=
    Nat.le_of_dvd (by omega) (Nat.dvd_sub hs ((Nat.dvd_mod_iff hs).mpr hb))
  rw [← Nat.mod_add_mod]
  exact Nat.mod_eq_of_lt (by omega)

theorem toNat_align_add {width : Width} {address : Word} {index : Nat} (h : index < width.lanes) :
    (width.align address + UInt32.ofNat index).toNat = (width.align address).toNat + index := by
  have hindex : (UInt32.ofNat index).toNat = index :=
    UInt32.toNat_ofNat_of_lt' (Nat.lt_trans (h.trans_le width.lanes_le) (by decide))
  have hword : (width.align address).toNat < 2 ^ 32 := (width.align address).toNat_lt
  have hdvd : width.lanes ∣ 2 ^ 32 := by cases width <;> decide
  have hmod := add_lane_mod (width.lanes_dvd_align address) hdvd (by decide) h
  rw [UInt32.toNat_add, hindex, hmod, Nat.mod_eq_of_lt hword]

end Width

end Handheld
