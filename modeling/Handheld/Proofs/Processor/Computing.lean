import Handheld.Processor.Arithmetic
import Handheld.Proofs.Word

/-!
# Operations as arithmetic

An operation of data processing works on each pair of bits, or it adds or subtracts integers. The
carry flag says whether an unsigned sum is too large or an unsigned difference is not negative, and
the overflow flag whether the signed one is out of range.

1. `Operation.meaning` is the table of the operations, and `Meaning.Gives` what each entry says of
   a result and its flags.
2. `addWithCarry_isSum` and `addWithCarry_isDifference` are the adder with an operand as it stands
   and with its complement.
3. `compute_gives` says that every operation computes what it means.
-/

namespace Handheld

/-- What an operation does with two operands. -/
inductive Meaning
  /-- A function of the two bits in each place. -/
  | bitwise (f : Bool → Bool → Bool)
  /-- A sum of integers. -/
  | sum (f : Int → Int → Int)
  /-- A difference of integers. -/
  | difference (f : Int → Int → Int)

/-- What each operation means, given the carry flag before it. -/
def Operation.meaning (operation : Operation) (carry : Bool) : Meaning :=
  match operation with
  | and | tst => .bitwise fun a b => a && b
  | eor | teq => .bitwise fun a b => a ^^ b
  | orr => .bitwise fun a b => a || b
  | mov => .bitwise fun _ b => b
  | bic => .bitwise fun a b => a && !b
  | mvn => .bitwise fun _ b => !b
  | add | cmn => .sum fun a b => a + b
  | adc => .sum fun a b => a + b + carry.toNat
  | sub | cmp => .difference fun a b => a - b
  | rsb => .difference fun a b => b - a
  | sbc => .difference fun a b => a - b - (!carry).toNat
  | rsc => .difference fun a b => b - a - (!carry).toNat

/-- An integer that a signed word can stand for. -/
def SignedRange (value : Int) : Prop := -2 ^ 31 ≤ value ∧ value < 2 ^ 31

/-- A word is the sum of integers, as unsigned and as signed numbers. -/
structure IsSum (unsigned signed : Int) (result : Computed) : Prop where
  value : (result.value.toNat : Int) = unsigned % 2 ^ 32
  carry : result.flags.c = true ↔ 2 ^ 32 ≤ unsigned
  overflow : result.flags.v = true ↔ ¬ SignedRange signed

/-- A word is the difference of integers. -/
structure IsDifference (unsigned signed : Int) (result : Computed) : Prop where
  value : (result.value.toNat : Int) = unsigned % 2 ^ 32
  notBorrow : result.flags.c = true ↔ 0 ≤ unsigned
  overflow : result.flags.v = true ↔ ¬ SignedRange signed

/-- A word is a function of the bits of two others, with two flags as given. -/
structure IsBitwise (f : Bool → Bool → Bool) (a b : Word) (carry overflow : Bool)
    (result : Computed) : Prop where
  value : ∀ place < 32,
    result.value.toNat.testBit place = f (a.toNat.testBit place) (b.toNat.testBit place)
  carry : result.flags.c = carry
  overflow : result.flags.v = overflow

/-- The first two flags of a result are its sign and whether it is zero. -/
structure Signs (result : Computed) : Prop where
  negative : result.flags.n = true ↔ result.value.toInt32.toInt < 0
  zero : result.flags.z = true ↔ result.value.toNat = 0

/-- A result of an operation on two words, given the shifter's carry and the overflow flag
before. -/
def Meaning.Gives (meaning : Meaning) (a b : Word) (shifterCarry overflow : Bool)
    (result : Computed) : Prop :=
  Signs result ∧
  match meaning with
  | .bitwise f => IsBitwise f a b shifterCarry overflow result
  | .sum f => IsSum (f a.toNat b.toNat) (f a.toInt32.toInt b.toInt32.toInt) result
  | .difference f => IsDifference (f a.toNat b.toNat) (f a.toInt32.toInt b.toInt32.toInt) result

/-! ## Flags -/

theorem topBit_eq (w : Word) : (w &&& 0x80000000 != 0) = w.toBitVec.msb := by
  have hzero : w &&& 0x80000000 = 0 ↔ field w 31 1 = 0 :=
    and_eq_zero_iff (by decide) (by decide)
  rw [← bit_eq_false_iff, bit_eq_iff 31 rfl] at hzero
  rw [BitVec.msb_eq_decide, Bool.eq_iff_iff, bne_iff_ne, ne_eq, hzero, decide_eq_true_iff]
  have hlt := w.toNat_lt
  show ¬ w.toNat / 2 ^ 31 % 2 = 0 ↔ 2 ^ 31 ≤ w.toNat
  omega

theorem msb_iff (w : Word) : w.toBitVec.msb = true ↔ 2 ^ 31 ≤ w.toNat := by
  rw [BitVec.msb_eq_decide, decide_eq_true_iff]
  rfl

theorem ofResult_signs (value : Word) (carry overflow : Bool) :
    Signs ⟨value, Flags.ofResult value carry overflow⟩ := by
  have hlt := value.toNat_lt
  constructor
  · show (value &&& 0x80000000 != 0) = true ↔ value.toInt32.toInt < 0
    rw [topBit_eq, msb_iff, toInt_eq]
    omega
  · show (value == 0) = true ↔ value.toNat = 0
    rw [beq_iff_eq, ← UInt32.toNat_inj]
    rfl

/-! ## The adder -/

/-- A sum overflows where the signs of its terms agree and that of its value does not. -/
theorem overflow_iff (a b value : Word) :
    (~~~(a ^^^ b) &&& (a ^^^ value) &&& 0x80000000 != 0) = true ↔
      (2 ^ 31 ≤ a.toNat ↔ 2 ^ 31 ≤ b.toNat) ∧ ¬ (2 ^ 31 ≤ a.toNat ↔ 2 ^ 31 ≤ value.toNat) := by
  rw [topBit_eq, ← msb_iff, ← msb_iff, ← msb_iff]
  simp only [UInt32.toBitVec_and, UInt32.toBitVec_not, UInt32.toBitVec_xor, BitVec.msb_and,
    BitVec.msb_not, BitVec.msb_xor]
  cases a.toBitVec.msb <;> cases b.toBitVec.msb <;> cases value.toBitVec.msb <;> decide

theorem addWithCarry_signs (a b : Word) (carry : Bool) : Signs (addWithCarry a b carry) :=
  ofResult_signs ..

theorem addWithCarry_isSum (a b : Word) (carry : Bool) :
    IsSum (a.toNat + b.toNat + carry.toNat) (a.toInt32.toInt + b.toInt32.toInt + carry.toNat)
      (addWithCarry a b carry) := by
  have ha := a.toNat_lt
  have hb := b.toNat_lt
  have hc := carry.toNat_lt
  have hwide : (a.toUInt64 + b.toUInt64 + carry.toUInt64).toNat =
      a.toNat + b.toNat + carry.toNat := by
    have hcarry : carry.toUInt64.toNat = carry.toNat := by cases carry <;> rfl
    rw [UInt64.toNat_add, UInt64.toNat_add, UInt32.toNat_toUInt64, UInt32.toNat_toUInt64, hcarry]
    omega
  have hvalue : (addWithCarry a b carry).value.toNat =
      (a.toNat + b.toNat + carry.toNat) % 2 ^ 32 := by
    rw [← hwide]
    exact UInt64.toNat_toUInt32 _
  refine ⟨?_, ?_, ?_⟩
  · rw [hvalue]
    norm_cast
  · show decide (0xFFFFFFFF < a.toUInt64 + b.toUInt64 + carry.toUInt64) = true ↔ _
    rw [decide_eq_true_iff, UInt64.lt_iff_toNat_lt, hwide]
    show 0xFFFFFFFF < _ ↔ _
    omega
  · refine (overflow_iff a b (addWithCarry a b carry).value).trans ?_
    rw [hvalue, toInt_eq, toInt_eq, SignedRange]
    omega

/-- Adding the complement subtracts, with a borrow where no carry comes in. -/
theorem addWithCarry_isDifference (a b : Word) (carry : Bool) :
    IsDifference (a.toNat - b.toNat - (!carry).toNat)
      (a.toInt32.toInt - b.toInt32.toInt - (!carry).toNat) (addWithCarry a (~~~b) carry) := by
  obtain ⟨hvalue, hcarry, hoverflow⟩ := addWithCarry_isSum a (~~~b) carry
  have hb := b.toNat_lt
  have hnot : (~~~b).toNat = 2 ^ 32 - 1 - b.toNat := UInt32.toNat_not b
  have hborrow : carry.toNat + (!carry).toNat = 1 := by cases carry <;> rfl
  have hsigned : (~~~b).toInt32.toInt = -1 - b.toInt32.toInt := toInt_not b
  refine ⟨?_, ?_, ?_⟩
  · rw [hvalue, hnot]
    omega
  · rw [hcarry, hnot]
    omega
  · rw [hoverflow, hsigned, SignedRange, SignedRange]
    omega

theorem add_isSum (a b : Word) :
    IsSum (a.toNat + b.toNat) (a.toInt32.toInt + b.toInt32.toInt) (addWithCarry a b false) := by
  simpa using addWithCarry_isSum a b false

theorem subtract_isDifference (a b : Word) :
    IsDifference (a.toNat - b.toNat) (a.toInt32.toInt - b.toInt32.toInt) (subtract a b) := by
  simpa [subtract] using addWithCarry_isDifference a b true

theorem add_value (a b : Word) : (addWithCarry a b false).value = a + b := by
  have h := (add_isSum a b).value
  apply UInt32.toNat_inj.mp
  rw [UInt32.toNat_add]
  omega

theorem subtract_value (a b : Word) : (subtract a b).value = a - b := by
  have h := (subtract_isDifference a b).value
  have ha := a.toNat_lt
  have hb := b.toNat_lt
  apply UInt32.toNat_inj.mp
  rw [UInt32.toNat_sub]
  omega

/-! ## The table -/

/-- A logical result works on each pair of bits and passes two flags on. -/
theorem logical_gives {f : Bool → Bool → Bool} {a b value : Word}
    (h : ∀ place < 32,
      value.toBitVec.getLsbD place = f (a.toBitVec.getLsbD place) (b.toBitVec.getLsbD place))
    (shifterCarry overflow : Bool) :
    (Meaning.bitwise f).Gives a b shifterCarry overflow (logical value shifterCarry overflow) := by
  refine ⟨ofResult_signs value shifterCarry overflow, fun place hlt => ?_, rfl, rfl⟩
  have hbits (w : Word) : w.toNat.testBit place = w.toBitVec.getLsbD place :=
    BitVec.testBit_toNat w.toBitVec
  rw [hbits, hbits, hbits]
  exact h place hlt

/-- **Operations.** Every operation computes what it means, with the flags that go with it. -/
theorem Operation.compute_gives (operation : Operation) (a b : Word) (shifterCarry : Bool)
    (flags : Flags) :
    (operation.meaning flags.c).Gives a b shifterCarry flags.v
      (operation.compute a b shifterCarry flags) := by
  cases operation with
  | and | tst => exact logical_gives (fun _ _ => by simp) _ _
  | eor | teq => exact logical_gives (fun _ _ => by simp) _ _
  | orr => exact logical_gives (fun _ _ => by simp) _ _
  | mov => exact logical_gives (fun _ _ => rfl) _ _
  | bic => exact logical_gives (fun _ hlt => by simp [hlt]) _ _
  | mvn => exact logical_gives (fun _ hlt => by simp [hlt]) _ _
  | add | cmn => exact ⟨addWithCarry_signs .., add_isSum a b⟩
  | adc => exact ⟨addWithCarry_signs .., addWithCarry_isSum a b flags.c⟩
  | sub | cmp => exact ⟨addWithCarry_signs .., subtract_isDifference a b⟩
  | rsb => exact ⟨addWithCarry_signs .., subtract_isDifference b a⟩
  | sbc => exact ⟨addWithCarry_signs .., addWithCarry_isDifference a b flags.c⟩
  | rsc => exact ⟨addWithCarry_signs .., addWithCarry_isDifference b a flags.c⟩

end Handheld
