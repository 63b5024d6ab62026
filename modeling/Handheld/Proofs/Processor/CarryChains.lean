import Handheld.Proofs.Processor.Computing
import Handheld.Proofs.Processor.Status
import Handheld.Processor.Condition
import Mathlib.Data.Nat.Digits.Defs

/-!
# Arithmetic on numbers of many words

A number of many words is added word by word, from the lowest to the highest, each carry going into
the next sum. The last carry and overflow flag are those of the whole, and the conditions compare
whole numbers.

1. `Wide.unsigned` and `Wide.signed` are the numbers that words stand for. A word on top
   (`unsigned_push`, `signed_push`) counts the more the more words there are below, and complements
   of words are complements of numbers (`unsigned_not`, `signed_not`).
2. `Wide.Adds` is the invariant of a chain of sums. One word keeps the carry (`Carries.push`), and
   `Adds.extend` goes by induction from the lowest word.
3. A difference is a sum with the complement (`difference_eq`). `Wide.Compares` is what the
   conditions say of it, and `Wide.chains_compute` is all of it.
-/

namespace Handheld

/-- The words of a number, from the lowest to the highest, and the flags of the highest. -/
structure Wide where
  words : List Word
  flags : Flags
  deriving DecidableEq, Inhabited

namespace Wide

/-! ## Numbers -/

/-- The unsigned number of some words. -/
def unsigned (words : List Word) : Nat :=
  Nat.ofDigits (2 ^ 32) (words.map UInt32.toNat)

/-- The signed number of some words, in two's complement. -/
def signed (words : List Word) : Int :=
  Int.bmod (unsigned words) (2 ^ (32 * words.length))

/-- An integer that some words can stand for as a signed number. -/
def InRange (count : Nat) (value : Int) : Prop :=
  -2 ^ (32 * count - 1) ≤ value ∧ value < 2 ^ (32 * count - 1)

theorem unsigned_lt (words : List Word) : unsigned words < 2 ^ (32 * words.length) := by
  have hlt : Nat.ofDigits (2 ^ 32) (words.map UInt32.toNat) <
      (2 ^ 32) ^ (words.map UInt32.toNat).length := by
    refine Nat.ofDigits_lt_base_pow_length (by decide) fun digit hdigit => ?_
    obtain ⟨w, -, rfl⟩ := List.mem_map.mp hdigit
    exact w.toNat_lt
  rwa [List.length_map, ← Nat.pow_mul] at hlt

theorem unsigned_push (words : List Word) (w : Word) :
    unsigned (words ++ [w]) = unsigned words + 2 ^ (32 * words.length) * w.toNat := by
  rw [unsigned, List.map_append, Nat.ofDigits_append, List.length_map, Nat.pow_mul]
  simp [unsigned]

/-- A multiple is compared by its factor, whatever is below one of its steps. -/
theorem add_mul_lt_iff {low step factor bound : Int} (hlow : 0 ≤ low) (hstep : low < step) :
    low + step * factor < step * bound ↔ factor < bound := by
  constructor
  · intro h
    by_contra hle
    have hmul : step * bound ≤ step * factor :=
      Int.mul_le_mul_of_nonneg_left (by omega) (by omega)
    omega
  · intro h
    have hmul : step * (factor + 1) ≤ step * bound :=
      Int.mul_le_mul_of_nonneg_left (by omega) (by omega)
    rw [mul_add, mul_one] at hmul
    omega

theorem inRange_push {count : Nat} {low top : Int} (hlow : 0 ≤ low) (hlt : low < 2 ^ (32 * count)) :
    InRange (count + 1) (low + 2 ^ (32 * count) * top) ↔ SignedRange top := by
  have hpow : (2 : Int) ^ (32 * (count + 1) - 1) = 2 ^ (32 * count) * 2 ^ 31 := by
    rw [← pow_add]
    congr 1
  rw [InRange, SignedRange, hpow, ← mul_neg, ← not_lt, add_mul_lt_iff hlow hlt,
    add_mul_lt_iff hlow hlt, not_lt]

/-- An integer in range is a signed number, and so is any other with the same words. -/
theorem bmod_of_inRange {count : Nat} {value : Int} (h : InRange (count + 1) value) (turns : Int) :
    Int.bmod (value + 2 ^ (32 * (count + 1)) * turns) (2 ^ (32 * (count + 1))) = value := by
  have hhalf : 2 ^ (32 * (count + 1)) = 2 * 2 ^ (32 * (count + 1) - 1) := by
    rw [← Nat.pow_succ']
    congr 1
  obtain ⟨hle, hlt⟩ := h
  have hself : Int.bmod value (2 ^ (32 * (count + 1))) = value := by
    apply Int.bmod_eq_of_le_mul_two <;> push_cast [hhalf] <;> omega
  have hturns : Int.bmod (value + (2 ^ (32 * (count + 1)) : Nat) * turns)
      (2 ^ (32 * (count + 1))) = value := by
    rw [Int.add_mul_bmod_self_left, hself]
  exact_mod_cast hturns

theorem signed_push (words : List Word) (w : Word) :
    signed (words ++ [w]) = unsigned words + 2 ^ (32 * words.length) * w.toInt32.toInt := by
  have hw := w.toNat_lt
  have hlow : (unsigned words : Int) < 2 ^ (32 * words.length) := by
    exact_mod_cast unsigned_lt words
  have hrange : InRange (words.length + 1)
      (unsigned words + 2 ^ (32 * words.length) * w.toInt32.toInt) := by
    refine (inRange_push (Int.natCast_nonneg _) hlow).mpr ?_
    rw [SignedRange, toInt_eq]
    omega
  have hturns : (unsigned (words ++ [w]) : Int) =
      unsigned words + 2 ^ (32 * words.length) * w.toInt32.toInt +
        2 ^ (32 * (words.length + 1)) * (w.toNat / 2 ^ 31 : Nat) := by
    rw [unsigned_push, toInt_eq, Nat.mul_succ, pow_add]
    push_cast
    ring
  rw [signed, hturns, List.length_append, List.length_singleton]
  exact bmod_of_inRange hrange _

/-- The top bit of a number is that of its highest word. -/
theorem testBit_push (words : List Word) (w : Word) :
    (unsigned (words ++ [w])).testBit (32 * (words ++ [w]).length - 1) = true ↔
      w.toInt32.toInt < 0 := by
  have hw := w.toNat_lt
  have hplace : 32 * (words ++ [w]).length - 1 = 32 * words.length + 31 := by
    rw [List.length_append, List.length_singleton]
    omega
  rw [hplace, unsigned_push, Nat.add_comm, Nat.testBit_two_pow_mul_add _ (unsigned_lt words),
    if_neg (by omega), Nat.add_sub_cancel_left, Nat.testBit_eq_decide_div_mod_eq,
    decide_eq_true_iff, toInt_eq]
  omega

/-! ## Sums -/

/-- Put a word on top. -/
def push (done : Wide) (next : Computed) : Wide :=
  ⟨done.words ++ [next.value], next.flags⟩

/-- A number of one word. -/
def single (first : Computed) : Wide :=
  ⟨[first.value], first.flags⟩

/-- Work on further words, from low to high, with the carry of the word below each time. -/
def extend (operation : Word → Word → Bool → Computed) (done : Wide)
    (high : List (Word × Word)) : Wide :=
  high.foldl (fun done pair => done.push (operation pair.1 pair.2 done.flags.c)) done

/-- The sum of two numbers, whose words are listed in pairs. -/
def sum (low : Word × Word) (high : List (Word × Word)) : Wide :=
  (single (addWithCarry low.1 low.2 false)).extend addWithCarry high

/-- The difference of two numbers, whose words are listed in pairs. -/
def difference (low : Word × Word) (high : List (Word × Word)) : Wide :=
  (single (subtract low.1 low.2)).extend subtractWithCarry high

/-- Some words and a carry are the sum of two numbers and of a carry into it. -/
structure Carries (carry : Bool) (x y : List Word) (done : Wide) : Prop where
  left : x.length = done.words.length
  right : y.length = done.words.length
  total : unsigned x + unsigned y + carry.toNat =
    unsigned done.words + 2 ^ (32 * done.words.length) * done.flags.c.toNat

/-- Some words are the sum of two numbers and of a carry into it, and their flags say so. -/
structure Adds (carry : Bool) (x y : List Word) (done : Wide) : Prop
    extends Carries carry x y done where
  negative : done.flags.n = true ↔
    (unsigned done.words).testBit (32 * done.words.length - 1) = true
  overflow : done.flags.v = true ↔
    ¬ InRange done.words.length (signed x + signed y + carry.toNat)
  less : done.flags.n ≠ done.flags.v ↔ signed x + signed y + carry.toNat < 0

section Word

variable (a b : Word) (carry : Bool)

/-- A word and its carry are all of a sum. -/
theorem addWithCarry_total :
    a.toNat + b.toNat + carry.toNat =
      (addWithCarry a b carry).value.toNat + 2 ^ 32 * (addWithCarry a b carry).flags.c.toNat := by
  obtain ⟨hvalue, hcarry, -⟩ := addWithCarry_isSum a b carry
  have ha := a.toNat_lt
  have hb := b.toNat_lt
  have hc := carry.toNat_lt
  have hout : (addWithCarry a b carry).flags.c.toNat = 1 ↔
      2 ^ 32 ≤ a.toNat + b.toNat + carry.toNat := by
    rw [Bool.toNat_eq_one, hcarry]
    norm_cast
  have hbit := (addWithCarry a b carry).flags.c.toNat_lt
  omega

/-- The first and the last flag tell the sign of a sum of signed numbers, in range or not. -/
theorem addWithCarry_less :
    (addWithCarry a b carry).flags.n ≠ (addWithCarry a b carry).flags.v ↔
      a.toInt32.toInt + b.toInt32.toInt + carry.toNat < 0 := by
  obtain ⟨hvalue, -, hoverflow⟩ := addWithCarry_isSum a b carry
  obtain ⟨hnegative, -⟩ := addWithCarry_signs a b carry
  have ha := a.toNat_lt
  have hb := b.toNat_lt
  have hc := carry.toNat_lt
  rw [ne_eq, Bool.eq_iff_iff, hnegative, hoverflow, toInt_eq, toInt_eq, toInt_eq, SignedRange]
  omega

end Word

section Push

variable {carry : Bool} {x y : List Word} {done : Wide}

theorem length_push (done : Wide) (next : Computed) :
    (done.push next).words.length = done.words.length + 1 :=
  List.length_append

theorem unsigned_words_push (done : Wide) (next : Computed) :
    unsigned (done.push next).words =
      unsigned done.words + 2 ^ (32 * done.words.length) * next.value.toNat :=
  unsigned_push ..

/-- A signed sum is made of what is below and of the highest words. -/
theorem Carries.signed_total (h : Carries carry x y done) (a b : Word) :
    signed (x ++ [a]) + signed (y ++ [b]) + carry.toNat =
      unsigned done.words + 2 ^ (32 * done.words.length) *
        (a.toInt32.toInt + b.toInt32.toInt + done.flags.c.toNat) := by
  have htotal : (unsigned x + unsigned y + carry.toNat : Int) =
      unsigned done.words + 2 ^ (32 * done.words.length) * done.flags.c.toNat := by
    exact_mod_cast h.total
  rw [signed_push, signed_push, h.left, h.right]
  linear_combination htotal

/-- **One word.** A sum that takes the carry of the words below makes the sum one word longer. -/
theorem Carries.push (h : Carries carry x y done) (a b : Word) :
    Adds carry (x ++ [a]) (y ++ [b]) (done.push (addWithCarry a b done.flags.c)) where
  left := by rw [length_push, List.length_append, h.left, List.length_singleton]
  right := by rw [length_push, List.length_append, h.right, List.length_singleton]
  total := by
    have hword := addWithCarry_total a b done.flags.c
    rw [length_push, unsigned_words_push, unsigned_push, unsigned_push, h.left, h.right,
      Nat.mul_succ, Nat.pow_add]
    show _ = _ + _ * (addWithCarry a b done.flags.c).flags.c.toNat
    linear_combination h.total + 2 ^ (32 * done.words.length) * hword
  negative := (addWithCarry_signs a b done.flags.c).negative.trans (testBit_push ..).symm
  overflow := by
    have hstep : (unsigned done.words : Int) < 2 ^ (32 * done.words.length) := by
      exact_mod_cast unsigned_lt done.words
    rw [length_push, h.signed_total a b, inRange_push (Int.natCast_nonneg _) hstep]
    exact (addWithCarry_isSum a b done.flags.c).overflow
  less := by
    have hstep : (unsigned done.words : Int) < 2 ^ (32 * done.words.length) := by
      exact_mod_cast unsigned_lt done.words
    rw [h.signed_total a b, ← mul_zero (2 ^ (32 * done.words.length)),
      add_mul_lt_iff (Int.natCast_nonneg _) hstep]
    exact addWithCarry_less a b done.flags.c

/-- **Chains.** A sum of some words goes on to a sum of more. -/
theorem Adds.extend (h : Adds carry x y done) (high : List (Word × Word)) :
    Adds carry (x ++ high.map Prod.fst) (y ++ high.map Prod.snd)
      (done.extend addWithCarry high) := by
  induction high using List.reverseRecOn with
  | nil => simpa [Wide.extend] using h
  | append_singleton high pair ih =>
    rw [Wide.extend, List.foldl_append, List.map_append, List.map_append, ← List.append_assoc,
      ← List.append_assoc]
    exact ih.push pair.1 pair.2

theorem adds_single (carry : Bool) (a b : Word) :
    Adds carry [a] [b] (single (addWithCarry a b carry)) := by
  have hnone : Carries carry [] [] ⟨[], { (default : Flags) with c := carry }⟩ :=
    ⟨rfl, rfl, by simp [unsigned]⟩
  exact hnone.push a b

end Push

/-! ## Differences -/

/-- The complements of words are the complement of their number. -/
theorem unsigned_not (words : List Word) :
    unsigned (words.map (~~~·)) + unsigned words + 1 = 2 ^ (32 * words.length) := by
  induction words using List.reverseRecOn with
  | nil => rfl
  | append_singleton words w ih =>
    have hw : (~~~w).toNat + w.toNat + 1 = 2 ^ 32 := by
      have hlt := w.toNat_lt
      have hnot : (~~~w).toNat = 2 ^ 32 - 1 - w.toNat := UInt32.toNat_not w
      omega
    rw [List.map_append, List.map_singleton, unsigned_push, unsigned_push, List.length_append,
      List.length_map, List.length_singleton, Nat.mul_succ, Nat.pow_add]
    linear_combination ih + 2 ^ (32 * words.length) * hw

theorem signed_not {words : List Word} (h : words ≠ []) :
    signed (words.map (~~~·)) = -1 - signed words := by
  obtain ⟨low, w, rfl⟩ := (List.eq_nil_or_concat words).resolve_left h
  have hlow : (unsigned (low.map (~~~·)) + unsigned low + 1 : Int) = 2 ^ (32 * low.length) := by
    exact_mod_cast unsigned_not low
  rw [List.concat_eq_append, List.map_append, List.map_singleton, signed_push, signed_push,
    List.length_map, toInt_not]
  linear_combination hlow

/-- A difference is a sum with a complement and a carry. -/
theorem difference_eq (low : Word × Word) (high : List (Word × Word)) :
    difference low high =
      (single (addWithCarry low.1 (~~~low.2) true)).extend addWithCarry
        (high.map fun pair => (pair.1, ~~~pair.2)) := by
  rw [difference, extend, extend, List.foldl_map]
  rfl

/-! ## The whole -/

/-- Some words and their flags are the sum of two numbers. -/
structure IsSum (x y : List Word) (result : Wide) : Prop where
  length : result.words.length = x.length
  value : unsigned result.words = (unsigned x + unsigned y) % 2 ^ (32 * x.length)
  carry : result.flags.c = true ↔ 2 ^ (32 * x.length) ≤ unsigned x + unsigned y
  overflow : result.flags.v = true ↔ ¬ InRange x.length (signed x + signed y)

/-- Some words are the difference of two numbers. -/
structure IsDifference (x y : List Word) (result : Wide) : Prop where
  length : result.words.length = x.length
  value : (unsigned result.words : Int) = (unsigned x - unsigned y) % 2 ^ (32 * x.length)

/-- The conditions compare two numbers, of which some words are the difference. -/
structure Compares (x y : List Word) (result : Wide) (status : Status) : Prop where
  carrySet : status.passes 0x2 = true ↔ unsigned y ≤ unsigned x
  carryClear : status.passes 0x3 = true ↔ unsigned x < unsigned y
  minus : status.passes 0x4 = true ↔
    (unsigned result.words).testBit (32 * x.length - 1) = true
  overflow : status.passes 0x6 = true ↔ ¬ InRange x.length (signed x - signed y)
  greaterOrEqual : status.passes 0xA = true ↔ signed y ≤ signed x
  less : status.passes 0xB = true ↔ signed x < signed y

/-- The conditions that only compare numbers of one word. -/
structure ComparesWords (a b : Word) (status : Status) : Prop where
  equal : status.passes 0x0 = true ↔ a = b
  notEqual : status.passes 0x1 = true ↔ a ≠ b
  higher : status.passes 0x8 = true ↔ b < a
  lowerOrSame : status.passes 0x9 = true ↔ a ≤ b
  greater : status.passes 0xC = true ↔ b.toInt32 < a.toInt32
  lessOrEqual : status.passes 0xD = true ↔ a.toInt32 ≤ b.toInt32

theorem passes_setFlags (status : Status) (flags : Flags) (code : Word) :
    (status.setFlags flags).passes code = (Condition.ofCode code).holds flags := by
  rw [Status.passes_eq, Status.flags_setFlags]

/-- The carry of a sum tells whether the sum needs one more word. -/
theorem Adds.carry_iff {carry : Bool} {x y : List Word} {done : Wide} (h : Adds carry x y done) :
    done.flags.c = true ↔ 2 ^ (32 * x.length) ≤ unsigned x + unsigned y + carry.toNat := by
  have hlt := unsigned_lt done.words
  rw [h.total, h.left]
  cases done.flags.c with
  | false => simpa using hlt
  | true => simp

theorem Adds.isSum {x y : List Word} {done : Wide} (h : Adds false x y done) : IsSum x y done where
  length := h.left.symm
  value := by
    have htotal : unsigned x + unsigned y = _ := h.total
    rw [htotal, h.left, Nat.add_mul_mod_self_left, Nat.mod_eq_of_lt (unsigned_lt done.words)]
  carry := by simpa using h.carry_iff
  overflow := by simpa [h.left] using h.overflow

/-- A sum with a complement, with no borrow. -/
structure Subtracts (x y : List Word) (done : Wide) : Prop
    extends Adds true x (y.map (~~~·)) done where
  some_word : y ≠ []

namespace Subtracts

variable {x y : List Word} {done : Wide} (h : Subtracts x y done)
include h

theorem length_eq : y.length = x.length := by
  rw [h.left, ← h.right, List.length_map]

/-- What is taken away is what the complement lacks. -/
theorem complement : unsigned (y.map (~~~·)) + unsigned y + 1 = 2 ^ (32 * x.length) := by
  rw [unsigned_not, h.length_eq]

theorem signed_total :
    signed x + signed (y.map (~~~·)) + (true.toNat : Int) = signed x - signed y := by
  rw [signed_not h.some_word]
  show _ + ((1 : Nat) : Int) = _
  push_cast
  ring

theorem isDifference : IsDifference x y done where
  length := h.left.symm
  value := by
    have htotal : (unsigned x + unsigned (y.map (~~~·)) + 1 : Int) =
        unsigned done.words + 2 ^ (32 * x.length) * done.flags.c.toNat := by
      rw [h.left]
      exact_mod_cast h.total
    have hcomplement : (unsigned (y.map (~~~·)) + unsigned y + 1 : Int) = 2 ^ (32 * x.length) := by
      exact_mod_cast h.complement
    have hlt : (unsigned done.words : Int) < 2 ^ (32 * x.length) := by
      rw [h.left]
      exact_mod_cast unsigned_lt done.words
    have hdifference : (unsigned x - unsigned y : Int) =
        unsigned done.words + 2 ^ (32 * x.length) * (done.flags.c.toNat - 1) := by
      linear_combination htotal - hcomplement
    rw [hdifference, Int.add_mul_emod_self_left, Int.emod_eq_of_lt (Int.natCast_nonneg _) hlt]

/-- No borrow is left where nothing is taken that is not there. -/
theorem notBorrow_iff : done.flags.c = true ↔ unsigned y ≤ unsigned x := by
  have hcomplement := h.complement
  rw [h.carry_iff]
  show _ ≤ _ + _ + 1 ↔ _
  omega

/-- The signs of a difference tell which number is less, in range or not. -/
theorem less_iff : done.flags.n ≠ done.flags.v ↔ signed x < signed y := by
  rw [h.less, h.signed_total, sub_neg]

theorem compares (status : Status) : Compares x y done (status.setFlags done.flags) where
  carrySet := by
    rw [passes_setFlags]
    exact h.notBorrow_iff
  carryClear := by
    rw [passes_setFlags]
    show (!done.flags.c) = true ↔ _
    rw [Bool.not_eq_true', ← Bool.not_eq_true, h.notBorrow_iff, not_le]
  minus := by
    rw [passes_setFlags, h.left]
    exact h.negative
  overflow := by
    rw [passes_setFlags, ← h.signed_total, h.left]
    exact h.overflow
  greaterOrEqual := by
    rw [passes_setFlags, ← not_lt, ← h.less_iff, not_not]
    exact beq_iff_eq
  less := by
    rw [passes_setFlags, ← h.less_iff]
    exact bne_iff_ne

end Subtracts

theorem sum_isSum (low : Word × Word) (high : List (Word × Word)) :
    IsSum (low.1 :: high.map Prod.fst) (low.2 :: high.map Prod.snd) (sum low high) :=
  ((adds_single false low.1 low.2).extend high).isSum

theorem difference_subtracts (low : Word × Word) (high : List (Word × Word)) :
    Subtracts (low.1 :: high.map Prod.fst) (low.2 :: high.map Prod.snd) (difference low high) := by
  have hadds := (adds_single true low.1 (~~~low.2)).extend
    (high.map fun pair => (pair.1, ~~~pair.2))
  rw [← difference_eq, List.map_map, List.map_map] at hadds
  refine ⟨?_, List.cons_ne_nil _ _⟩
  rw [List.map_cons, List.map_map]
  exact hadds

/-! ## One word -/

/-- The conditions that ask for a zero compare numbers of one word. -/
theorem subtract_comparesWords (a b : Word) (status : Status) :
    ComparesWords a b (status.setFlags (subtract a b).flags) := by
  have hcarry : (subtract a b).flags.c = true ↔ b.toNat ≤ a.toNat := by
    rw [(subtract_isDifference a b).notBorrow]
    omega
  have hzero : (subtract a b).flags.z = true ↔ a.toNat = b.toNat := by
    have hvalue := (subtract_isDifference a b).value
    have ha := a.toNat_lt
    have hb := b.toNat_lt
    rw [subtract] at hvalue ⊢
    rw [(addWithCarry_signs a (~~~b) true).zero]
    omega
  have hless : (subtract a b).flags.n ≠ (subtract a b).flags.v ↔
      a.toInt32.toInt < b.toInt32.toInt := by
    have hsum := addWithCarry_less a (~~~b) true
    rw [toInt_not] at hsum
    rw [subtract, hsum]
    show _ + _ + 1 < 0 ↔ _
    omega
  have hsigns : (subtract a b).flags.n = (subtract a b).flags.v ↔
      b.toInt32.toInt ≤ a.toInt32.toInt := by
    rw [← not_lt, ← hless, not_not]
  have hsame : a.toNat = b.toNat ↔ a.toInt32.toInt = b.toInt32.toInt := by
    rw [toInt_eq, toInt_eq]
    omega
  constructor <;>
    simp only [passes_setFlags, ne_eq, ← UInt32.toNat_inj, UInt32.lt_iff_toNat_lt,
      UInt32.le_iff_toNat_le, Int32.lt_iff_toInt_lt, Int32.le_iff_toInt_le]
  · exact hzero
  · show (!(subtract a b).flags.z) = true ↔ _
    rw [Bool.not_eq_true', ← Bool.not_eq_true, hzero]
  · show ((subtract a b).flags.c && !(subtract a b).flags.z) = true ↔ _
    rw [Bool.and_eq_true, hcarry, Bool.not_eq_true', ← Bool.not_eq_true, hzero]
    omega
  · show (!(subtract a b).flags.c || (subtract a b).flags.z) = true ↔ _
    rw [Bool.or_eq_true, Bool.not_eq_true', ← Bool.not_eq_true, hcarry, hzero]
    omega
  · show (!(subtract a b).flags.z && (subtract a b).flags.n == (subtract a b).flags.v) = true ↔ _
    rw [Bool.and_eq_true, Bool.not_eq_true', ← Bool.not_eq_true, hzero, beq_iff_eq, hsigns]
    omega
  · show ((subtract a b).flags.z || (subtract a b).flags.n != (subtract a b).flags.v) = true ↔ _
    rw [Bool.or_eq_true, hzero, bne_iff_ne, hless]
    omega

/-- **Chains.** Sums and differences of numbers of any words are those of integers. -/
theorem chains_compute (low : Word × Word) (high : List (Word × Word)) (status : Status) :
    IsSum (low.1 :: high.map Prod.fst) (low.2 :: high.map Prod.snd) (sum low high) ∧
    IsDifference (low.1 :: high.map Prod.fst) (low.2 :: high.map Prod.snd)
      (difference low high) ∧
    Compares (low.1 :: high.map Prod.fst) (low.2 :: high.map Prod.snd) (difference low high)
      (status.setFlags (difference low high).flags) ∧
    (∀ a b, ComparesWords a b (status.setFlags (difference (a, b) []).flags)) ∧
    ∀ a b shifterCarry flags,
      Operation.adc.compute a b shifterCarry flags = addWithCarry a b flags.c ∧
      Operation.sbc.compute a b shifterCarry flags = subtractWithCarry a b flags.c ∧
      Operation.rsb.compute a b shifterCarry flags = subtract b a ∧
      Operation.rsc.compute a b shifterCarry flags = subtractWithCarry b a flags.c :=
  have hdifference := difference_subtracts low high
  ⟨sum_isSum low high, hdifference.isDifference, hdifference.compares status,
    fun a b => subtract_comparesWords a b status, fun _ _ _ _ => ⟨rfl, rfl, rfl, rfl⟩⟩

end Wide

end Handheld
