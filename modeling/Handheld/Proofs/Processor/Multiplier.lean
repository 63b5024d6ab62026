import Mathlib.Order.Bounds.Basic
import Handheld.Processor.Cost
import Handheld.Proofs.Word

/-!
# The cycles of the multiplier

The multiplier takes a cycle for each byte that its operand needs.

1. Leading zeros bound the number that a word is (`le_leadingZeros_iff`), and whole bytes of them
   bound it by a power of 256 (`le_leadingBytes_iff`).
2. `sizes` are the numbers of bytes that hold an operand, and `signedSizes` those that hold it
   beside its sign, which are the sizes of the operand and of its complement (`sizes_union_not`).
3. `multiplierCycles_isLeast` says that the cycles are the least size.
-/

namespace Handheld.Cost

/-! ## Leading bits -/

theorem toNat_leadingZeros (value : Word) :
    (leadingZeros value).toNat = value.toBitVec.clz.toNat := rfl

/-- A word has some leading zeros just if it fits in the bits below them. -/
theorem le_leadingZeros_iff {value : Word} {count : Nat} (h : count ≤ 32) :
    count ≤ (leadingZeros value).toNat ↔ value.toNat < 2 ^ (32 - count) := by
  rw [toNat_leadingZeros]
  constructor
  · intro hcount
    have hbelow : value.toNat < 2 ^ (32 - value.toBitVec.clz.toNat) :=
      BitVec.toNat_lt_two_pow_sub_clz
    exact hbelow.trans_le (Nat.pow_le_pow_right (by decide) (by omega))
  · intro hvalue
    by_cases hzero : value = 0
    · rw [hzero]
      exact h
    · -- The bit below the leading zeros is set.
      have hne : value.toBitVec ≠ 0 := fun he => hzero (UInt32.eq_of_toBitVec_eq he)
      have habove : 2 ^ (32 - 1 - value.toBitVec.clz.toNat) ≤ value.toNat :=
        BitVec.two_pow_sub_clz_le_toNat_of_ne_zero (by decide) hne
      have hbits := (Nat.pow_lt_pow_iff_right (by decide)).mp (habove.trans_lt hvalue)
      omega

theorem toNat_leadingBytes (bits : UInt32) :
    (leadingBytes bits).toNat = min (bits.toNat / 8) 3 := by
  have hdiv : (bits / 8).toNat = bits.toNat / 8 := UInt32.toNat_div ..
  have hthree : (3 : UInt32).toNat = 3 := rfl
  unfold leadingBytes
  simp only [UInt32.lt_iff_toNat_lt, hdiv, hthree]
  split
  · rw [hthree]
    omega
  · rw [hdiv]
    omega

theorem leadingBytes_le (bits : UInt32) : (leadingBytes bits).toNat ≤ 3 := by
  rw [toNat_leadingBytes]
  exact Nat.min_le_right ..

theorem le_leadingBytes_iff {value : Word} {count : Nat} (h : count ≤ 3) :
    count ≤ (leadingBytes (leadingZeros value)).toNat ↔
      value.toNat < 2 ^ (8 * (4 - count)) := by
  have hbytes : count ≤ (leadingBytes (leadingZeros value)).toNat ↔
      8 * count ≤ (leadingZeros value).toNat := by
    rw [toNat_leadingBytes]
    omega
  have hbits : 32 - 8 * count = 8 * (4 - count) := by omega
  rw [hbytes, le_leadingZeros_iff (by omega), hbits]

/-! ## Sizes -/

/-- The numbers of bytes, up to a word, that hold an operand. -/
def sizes (operand : Word) : Set Nat :=
  {bytes ∈ Set.Icc 1 4 | operand.toNat < 2 ^ (8 * bytes)}

/-- The numbers of bytes, up to a word, that hold an operand beside its sign. -/
def signedSizes (operand : Word) : Set Nat :=
  {bytes ∈ Set.Icc 1 4 | operand.toInt32.toInt ∈ Set.Ico (-2 ^ (8 * bytes)) (2 ^ (8 * bytes))}

theorem sizes_subset {first second : Word} (h : first ≤ second) : sizes second ⊆ sizes first :=
  fun _ hbytes => ⟨hbytes.1, (UInt32.le_iff_toNat_le.mp h).trans_lt hbytes.2⟩

/-- An operand fits beside its sign if it fits as it is or is the complement of one that does. -/
theorem sizes_union_not (operand : Word) :
    sizes operand ∪ sizes (~~~operand) = signedSizes operand := by
  have hlt := operand.toNat_lt
  have hnot : (~~~operand).toNat = 2 ^ 32 - 1 - operand.toNat := UInt32.toNat_not operand
  have hint := toInt_eq operand
  ext bytes
  simp only [sizes, signedSizes, Set.mem_union, Set.mem_ofPred_eq, ← and_or_left, Set.mem_Ico]
  refine and_congr_right fun hbytes => ?_
  obtain ⟨hlow, hhigh⟩ := Set.mem_Icc.mp hbytes
  -- In less than a word the top bit tells the two cases apart; a word holds everything.
  interval_cases bytes <;> omega

/-! ## Cycles -/

theorem toNat_four_sub {saved : UInt32} (h : saved.toNat ≤ 3) :
    (4 - saved).toNat = 4 - saved.toNat :=
  UInt32.toNat_sub_of_le _ _ (UInt32.le_iff_toNat_le.mpr (h.trans (by decide)))

theorem toNat_multiplierCycles (operand : Word) :
    (multiplierCycles operand false).toNat = 4 - (leadingBytes (leadingZeros operand)).toNat :=
  toNat_four_sub (leadingBytes_le _)

theorem isLeast_sizes (operand : Word) :
    IsLeast (sizes operand) (multiplierCycles operand false).toNat := by
  have hcap := leadingBytes_le (leadingZeros operand)
  rw [toNat_multiplierCycles]
  constructor
  · have hbytes := (le_leadingBytes_iff hcap).mp le_rfl
    exact ⟨Set.mem_Icc.mpr ⟨Nat.le_sub_of_add_le' (by omega), Nat.sub_le ..⟩, hbytes⟩
  · rintro bytes ⟨hbytes, hvalue⟩
    obtain ⟨hlow, hhigh⟩ := Set.mem_Icc.mp hbytes
    have hsaved : 4 - bytes ≤ (leadingBytes (leadingZeros operand)).toNat := by
      rw [le_leadingBytes_iff (by omega), Nat.sub_sub_self hhigh]
      exact hvalue
    exact tsub_le_iff_tsub_le.mp hsaved

/-- A signed multiplication takes the better of an operand and its complement. -/
theorem multiplierCycles_signed (operand : Word) :
    (multiplierCycles operand true).toNat =
      min (multiplierCycles operand false).toNat
        (multiplierCycles (~~~operand) false).toNat := by
  have hzeros := leadingBytes_le (leadingZeros operand)
  have hones := leadingBytes_le (leadingZeros (~~~operand))
  rw [toNat_multiplierCycles, toNat_multiplierCycles]
  unfold multiplierCycles leadingOnes
  simp only [if_true, UInt32.lt_iff_toNat_lt]
  split
  · rw [toNat_four_sub hzeros]
    omega
  · rw [toNat_four_sub hones]
    omega

theorem multiplierCycles_le (operand : Word) (signed : Bool) :
    (multiplierCycles operand signed).toNat ≤ 4 := by
  have hplain : (multiplierCycles operand false).toNat ≤ 4 := by
    rw [toNat_multiplierCycles]
    exact Nat.sub_le ..
  cases signed with
  | false => exact hplain
  | true =>
    rw [multiplierCycles_signed]
    exact (Nat.min_le_left ..).trans hplain

/-- **The multiplier takes as many cycles as its operand has bytes.** Without a sign the cycles are
the least number of bytes, one to four, that holds the operand. With a sign they are the least
number that holds the operand or its complement, which is to hold it beside its sign. So a larger
operand takes no less time without a sign, a sign costs nothing, and with a sign the complement of
an operand takes as long as the operand. -/
theorem multiplierCycles_isLeast (operand : Word) :
    IsLeast (sizes operand) (multiplierCycles operand false).toNat ∧
    IsLeast (sizes operand ∪ sizes (~~~operand)) (multiplierCycles operand true).toNat ∧
    sizes operand ∪ sizes (~~~operand) = signedSizes operand ∧
    (∀ larger, operand ≤ larger →
      multiplierCycles operand false ≤ multiplierCycles larger false) ∧
    multiplierCycles operand true ≤ multiplierCycles operand false ∧
    multiplierCycles (~~~operand) true = multiplierCycles operand true := by
  have hunsigned := isLeast_sizes operand
  have hsigned : IsLeast (sizes operand ∪ sizes (~~~operand))
      (multiplierCycles operand true).toNat := by
    rw [multiplierCycles_signed]
    exact hunsigned.union (isLeast_sizes _)
  refine ⟨hunsigned, hsigned, sizes_union_not operand, fun larger hlarger => ?_, ?_, ?_⟩
  · exact UInt32.le_iff_toNat_le.mpr
      ((isLeast_sizes larger).mono hunsigned (sizes_subset hlarger))
  · exact UInt32.le_iff_toNat_le.mpr (hunsigned.mono hsigned Set.subset_union_left)
  · apply UInt32.toNat_inj.mp
    rw [multiplierCycles_signed, multiplierCycles_signed, UInt32.not_not, min_comm]

/-- The largest operand of two bytes and the next one. -/
theorem multiplierCycles_isLeast_boundary :
    (0xFFFF : Word) ≤ 0x10000 ∧
      multiplierCycles 0xFFFF false = 2 ∧ multiplierCycles 0x10000 false = 3 ∧
      multiplierCycles 0xFFFF false ≤ multiplierCycles 0x10000 false := by
  obtain ⟨-, -, -, hgrows, -⟩ := multiplierCycles_isLeast 0xFFFF
  exact ⟨by decide, by decide +kernel, by decide +kernel, hgrows 0x10000 (by decide)⟩

end Handheld.Cost
