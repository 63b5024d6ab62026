import Mathlib.Data.Nat.Bitwise
import Handheld.Proofs.Processor.Assembly
import Handheld.Proofs.Processor.Executing

/-!
# Long multiplication

A long multiplication leaves the product of two registers in a pair of others, of unsigned or of
signed numbers, and may add it to the number that the pair held. All of it is modulo `2 ^ 64`.

1. `Arm.LongFields` are the fields of its opcodes (`decodeBody_multiplyLong`).
2. `Processor.pair` is the number in a pair of registers, which is written in halves (`pair_set`)
   and read by joining them (`toNat_join`). `multiplyLong_value` is the arithmetic in between.
3. `LongMultiplied` is what one step leaves of a processor (`multiplyLong_multiplied`).
4. `Accumulates` are runs that load operands and add their product to one pair.
   `longProducts_accumulate` says that such a run adds up all products.
-/

namespace Handheld

/-! ## Opcodes -/

namespace Arm

/-- The fields of a long multiplication. -/
structure LongFields (opcode : Word) (signed accumulate setFlags : Bool)
    (low high left right : Register) : Prop where
  group : opcode.toNat / 2 ^ 23 % 2 ^ 5 = 1
  nine : opcode.toNat / 2 ^ 4 % 2 ^ 4 = 9
  sign : opcode.toNat / 2 ^ 22 % 2 = signed.toNat
  adds : opcode.toNat / 2 ^ 21 % 2 = accumulate.toNat
  flag : opcode.toNat / 2 ^ 20 % 2 = setFlags.toNat
  high : opcode.toNat / 2 ^ 16 % 16 = high.val
  low : opcode.toNat / 2 ^ 12 % 16 = low.val
  right : opcode.toNat / 2 ^ 8 % 16 = right.val
  left : opcode.toNat / 2 ^ 0 % 16 = left.val

/-- Decoding reads the fields. -/
theorem decodeBody_multiplyLong {opcode : Word} {signed accumulate setFlags : Bool}
    {low high left right : Register}
    (h : LongFields opcode signed accumulate setFlags low high left right) :
    decodeBody opcode = .multiplyLong signed accumulate setFlags low high left right := by
  have hcode := h.group
  have hgroup : (field opcode 25 7).toNat = 0 :=
    (toNat_field opcode 25 3 rfl rfl).trans (by omega)
  have h4 : field opcode 4 0xF = 9 := field_eq 4 rfl 4 rfl h.nine
  have h24 : bit opcode 24 = false := bit_clear 24 rfl (by omega)
  have h23 : bit opcode 23 = true := bit_set 23 rfl (by omega)
  rw [decodeBody, hgroup]
  simp only
  rw [decodeRegisterGroup,
    if_neg (mt branchExchange_iff.mp (not_isBranchExchange (h4 ▸ by decide))),
    if_pos (multiply_iff.mpr h4), decodeMultiply, h24, h23, multiplyLong, bit_eq 22 rfl h.sign,
    bit_eq 21 rfl h.adds, bit_eq 20 rfl h.flag, registerField_eq 12 rfl h.low,
    registerField_eq 16 rfl h.high, registerField_eq 0 rfl h.left, registerField_eq 8 rfl h.right]
  rfl

end Arm

/-- The registers of a long multiplication whose result is defined: two different ones take it, and
the program counter is none of the four. -/
structure LongRegisters (low high left right : Register) : Prop where
  distinct : low ≠ high
  low : low ≠ Register.pc
  high : high ≠ Register.pc
  left : left ≠ Register.pc
  right : right ≠ Register.pc

/-! ## Numbers of two words -/

/-- The number that a word stands for, signed or unsigned. -/
def numberOf (signed : Bool) (w : Word) : Int :=
  if signed then w.toInt32.toInt else w.toNat

theorem toNat_join (high low : Word) :
    (high.toUInt64 <<< 32 ||| low.toUInt64).toNat = high.toNat * 2 ^ 32 + low.toNat := by
  have hhigh := high.toNat_lt
  have hlow := low.toNat_lt
  rw [UInt64.toNat_or, UInt64.toNat_shiftLeft, UInt32.toNat_toUInt64, UInt32.toNat_toUInt64]
  show high.toNat <<< 32 % 2 ^ 64 ||| low.toNat = _
  rw [Nat.shiftLeft_eq, Nat.mod_eq_of_lt (by omega), ← Nat.shiftLeft_eq,
    ← Nat.shiftLeft_add_eq_or_of_lt hlow, Nat.shiftLeft_eq]

theorem toNat_halves (value : UInt64) :
    (value >>> 32).toUInt32.toNat * 2 ^ 32 + value.toUInt32.toNat = value.toNat := by
  have hlt := value.toNat_lt
  rw [UInt64.toNat_toUInt32, UInt64.toNat_toUInt32, UInt64.toNat_shiftRight]
  show value.toNat >>> 32 % 2 ^ 32 * 2 ^ 32 + value.toNat % 2 ^ 32 = value.toNat
  rw [Nat.shiftRight_eq_div_pow]
  omega

/-- A product of words is one of the numbers they stand for. -/
theorem toNat_product (a b : Word) (signed : Bool) :
    ((product a b signed).toNat : Int) = numberOf signed a * numberOf signed b % 2 ^ 64 := by
  cases signed with
  | false =>
    show (((a.toUInt64 * b.toUInt64).toNat : Nat) : Int) = a.toNat * b.toNat % 2 ^ 64
    rw [UInt64.toNat_mul, UInt32.toNat_toUInt64, UInt32.toNat_toUInt64]
    norm_cast
  | true =>
    have hunsigned (x : Int64) : (x.toUInt64.toNat : Int) = x.toInt % 2 ^ 64 := by
      have hlt : x.toUInt64.toNat < 2 ^ 64 := x.toUInt64.toNat_lt
      have hsigned : x.toInt = Int.bmod x.toUInt64.toNat (2 ^ 64) :=
        BitVec.toInt_eq_toNat_bmod x.toBitVec
      have hmod : x.toInt % (2 ^ 64 : Nat) = x.toUInt64.toNat % (2 ^ 64 : Nat) := by
        rw [hsigned, Int.bmod_emod]
      omega
    have hmul := Int64.toInt_mul a.toInt32.toInt64 b.toInt32.toInt64
    rw [Int32.toInt_toInt64, Int32.toInt_toInt64] at hmul
    show ((a.toInt32.toInt64 * b.toInt32.toInt64).toUInt64.toNat : Int) =
      a.toInt32.toInt * b.toInt32.toInt % 2 ^ 64
    rw [hunsigned, hmul]
    exact Int.bmod_emod

/-- **The arithmetic.** -/
theorem multiplyLong_value (a b : Word) (accumulator : UInt64) (signed : Bool) (flags : Flags) :
    ((multiplyLong a b accumulator signed flags).1.toNat : Int) =
      (numberOf signed a * numberOf signed b + accumulator.toNat) % 2 ^ 64 := by
  show (((product a b signed + accumulator).toNat : Nat) : Int) = _
  have hproduct := toNat_product a b signed
  rw [UInt64.toNat_add]
  push_cast
  omega

theorem multiplyLong_negative (a b : Word) (accumulator : UInt64) (signed : Bool) (flags : Flags) :
    (multiplyLong a b accumulator signed flags).2.n =
      (multiplyLong a b accumulator signed flags).1.toNat.testBit 63 := by
  generalize hvalue : (multiplyLong a b accumulator signed flags).1 = value
  have hflag : (multiplyLong a b accumulator signed flags).2.n =
      (value &&& 0x8000000000000000 != 0) := by rw [← hvalue]; rfl
  have hand : (value &&& 0x8000000000000000).toNat = (value.toNat.testBit 63).toNat * 2 ^ 63 := by
    rw [UInt64.toNat_and]
    exact Nat.and_two_pow value.toNat 63
  rw [hflag, Bool.eq_iff_iff, bne_iff_ne, ne_eq, ← UInt64.toNat_inj, hand]
  cases value.toNat.testBit 63 <;> decide

theorem multiplyLong_zero (a b : Word) (accumulator : UInt64) (signed : Bool) (flags : Flags) :
    (multiplyLong a b accumulator signed flags).2.z = true ↔
      (multiplyLong a b accumulator signed flags).1.toNat = 0 := by
  show (_ == _) = true ↔ _
  rw [beq_iff_eq, ← UInt64.toNat_inj]
  rfl

namespace Processor

variable {β : Type} [Bus β]

/-- The number in a pair of registers. -/
def pair (p : Processor) (high low : Register) : Nat :=
  (p.get high).toNat * 2 ^ 32 + (p.get low).toNat

theorem pair_lt (p : Processor) (high low : Register) : p.pair high low < 2 ^ 64 := by
  have hhigh := (p.get high).toNat_lt
  have hlow := (p.get low).toNat_lt
  unfold pair
  omega

/-- The two halves of a number make it up again. -/
theorem pair_set (p : Processor) {high low : Register} (h : low ≠ high) (value : UInt64) :
    ((p.set low value.toUInt32).set high (value >>> 32).toUInt32).pair high low = value.toNat := by
  have hhigh : ((p.set low value.toUInt32).set high (value >>> 32).toUInt32).get high =
      (value >>> 32).toUInt32 := by rw [get_set, if_pos rfl]
  have hlow : ((p.set low value.toUInt32).set high (value >>> 32).toUInt32).get low =
      value.toUInt32 := by rw [get_set, if_neg h, get_set, if_pos rfl]
  rw [pair, hhigh, hlow]
  exact toNat_halves value

/-! ## One step -/

/-- The flags after a number of two words: its sign and whether it is zero, where flags are set. -/
structure LongFlags (setFlags : Bool) (number : Nat) (before after : Status) : Prop where
  negative : setFlags = true → (after.flags.n = true ↔ number.testBit 63 = true)
  zero : setFlags = true → (after.flags.z = true ↔ number = 0)
  carry : after.flags.c = before.flags.c
  overflow : after.flags.v = before.flags.v
  control : after.bits &&& ~~~Status.flagsMask = before.bits &&& ~~~Status.flagsMask
  kept : setFlags = false → after = before

/-- What a long multiplication leaves of a processor. -/
structure LongMultiplied (p : Processor) (signed accumulate setFlags : Bool)
    (low high left right : Register) (q : Processor) : Prop where
  value : (q.pair high low : Int) = (numberOf signed (p.get left) * numberOf signed (p.get right) +
    if accumulate then (p.pair high low : Int) else 0) % 2 ^ 64
  wrote : Wrote (fun register =>
    if register = high ∨ register = low then some (q.get register) else none) p q
  bank : q.registers.bank = p.registers.bank
  next : q.nextPc = p.nextPc + 4
  flags : LongFlags setFlags (q.pair high low) p.status q.status

omit [Bus β] in
theorem LongFlags.thumb {setFlags : Bool} {number : Nat} {before after : Status}
    (h : LongFlags setFlags number before after) : after.thumb = before.thumb := by
  have hbit : ~~~Status.flagsMask &&& Status.thumbBit = Status.thumbBit := by decide
  refine Status.has_congr ?_
  rw [← hbit, ← UInt32.and_assoc, h.control, UInt32.and_assoc]

omit [Bus β] in
theorem longFlags_setNZ {setFlags : Bool} {number : Nat} {status : Status} {flags : Flags}
    (hn : flags.n = number.testBit 63) (hz : flags.z = true ↔ number = 0) :
    LongFlags setFlags number status (if setFlags then status.setNZ flags else status) := by
  cases setFlags with
  | false => exact ⟨nofun, nofun, rfl, rfl, rfl, fun _ => rfl⟩
  | true =>
    have hflags : (status.setNZ flags).flags =
        { flags with c := status.flags.c, v := status.flags.v } := by
      rw [Status.setNZ_eq, Status.flags_setFlags]
    have hcontrol : (status.setNZ flags).bits &&& ~~~Status.flagsMask =
        status.bits &&& ~~~Status.flagsMask := by
      rw [Status.setNZ_eq, Status.setFlags_and _ _ (by decide)]
    rw [if_pos rfl]
    refine ⟨fun _ => ?_, fun _ => ?_, ?_, ?_, hcontrol, nofun⟩
    · rw [hflags, hn]
    · rw [hflags]
      exact hz
    · rw [hflags]
    · rw [hflags]

variable {p : Processor} {signed accumulate setFlags : Bool} {low high left right : Register}

omit [Bus β] in
/-- Of the two halves, the one that is written last is not the first. -/
theorem wrote_pair {moved : Processor} (hmoved : Wrote (fun _ => none) p moved)
    (hbank : moved.registers.bank = p.registers.bank) (h : low ≠ high) (first second : Word) :
    Wrote (fun register => if register = high ∨ register = low then
      some (((moved.set low first).set high second).get register) else none) p
      ((moved.set low first).set high second) := by
  have hlow : (moved.set low first).registers.bank = p.registers.bank :=
    (moved.bank_set ..).trans hbank
  refine ((hmoved.set hbank low first).set hlow high second).congr_writes fun register _ => ?_
  by_cases hhigh : register = high
  · simp [hhigh, get_set]
  · by_cases hlow : register = low
    · simp [hlow, h, get_set]
    · simp [hhigh, hlow]

/-- The registers are those before the step, also where a source is written. -/
theorem multiplyLong_multiplied (ht : p.thumb = false) (hr : LongRegisters low high left right)
    (bus : β) :
    LongMultiplied p signed accumulate setFlags low high left right
      ((p.advance bus).1.multiplyLongRegisters signed accumulate setFlags low high left
        right) := by
  have hread {register : Register} (h : register ≠ Register.pc) := get_advance p bus h
  have hnext : (p.advance bus).1.nextPc = p.nextPc + 4 := by
    rw [nextPc_advance, width_of_arm ht]
    rfl
  have hmoved := wrote_advance p bus
  have hstatus : (p.advance bus).1.status = p.status := rfl
  have hbank : (p.advance bus).1.registers.bank = p.registers.bank := rfl
  unfold multiplyLongRegisters
  rw [hread hr.low, hread hr.high, hread hr.left, hread hr.right, hstatus]
  generalize (p.advance bus).1 = moved at *
  extract_lets addend result written
  have hadded : (addend.toNat : Int) = if accumulate then (p.pair high low : Int) else 0 := by
    cases accumulate with
    | false => rfl
    | true => exact congrArg Nat.cast (toNat_join (p.get high) (p.get low))
  have hpair : written.pair high low = result.1.toNat := moved.pair_set hr.distinct result.1
  have hwrote := wrote_pair hmoved hbank hr.distinct result.1.toUInt32 (result.1 >>> 32).toUInt32
  have hpc : written.pc = moved.pc :=
    (RegisterFile.pc_set_of_ne _ _ hr.high).trans (RegisterFile.pc_set_of_ne _ _ hr.low)
  have hflags : LongFlags setFlags (written.pair high low) p.status
      (if setFlags then p.status.setNZ result.2 else p.status) := by
    rw [hpair]
    exact longFlags_setNZ (multiplyLong_negative ..) (multiplyLong_zero ..)
  have hq : (if setFlags then { written with status := written.status.setNZ result.2 }
      else written) =
      { written with status := if setFlags then p.status.setNZ result.2 else p.status } := by
    split
    · rw [← hstatus]
      rfl
    · rw [← hstatus]
      rfl
  rw [hq]
  generalize (if setFlags then p.status.setNZ result.2 else p.status) = status at hflags
  -- The status word has no part in the registers.
  exact
    { value := by
        show (written.pair high low : Int) = _
        rw [hpair, ← hadded]
        exact multiplyLong_value ..
      wrote := hwrote.congr (fun _ _ => rfl) rfl
      bank := ((bank_set ..).trans (bank_set ..)).trans hbank
      next := by
        have hthumb : status.thumb = moved.thumb := hflags.thumb.trans (congrArg _ hstatus).symm
        rw [← hnext]
        show written.pc - _ = moved.pc - _
        rw [hpc]
        exact congrArg (fun width : Width => moved.pc - width.bytes) (width_congr hthumb)
      flags := hflags }

omit [Bus β] in
theorem LongMultiplied.spend {q : Processor}
    (h : LongMultiplied p signed accumulate setFlags low high left right q) (cycles : UInt32) :
    LongMultiplied p signed accumulate setFlags low high left right (q.spend cycles) where
  value := h.value
  wrote := h.wrote.congr (fun _ _ => rfl) rfl
  bank := h.bank
  next := h.next
  flags := h.flags

theorem multiplyLong_step (ht : p.thumb = false)
    (ho : Arm.LongFields p.pipeline.decoded signed accumulate setFlags low high left right)
    (hr : LongRegisters low high left right)
    (hc : (Condition.ofCode (p.pipeline.decoded >>> 28)).holds p.status.flags = true) (bus : β) :
    LongMultiplied p signed accumulate setFlags low high left right (p.step bus).processor := by
  rw [step_of_retires (retires_arm ht hc (Arm.decodeBody_multiplyLong ho))]
  exact (multiplyLong_multiplied ht hr bus).spend _

/-! ## Runs -/

/-- Runs of long multiplications that add to the number in one pair of registers, with the operands
of each. Whatever happens before the first, between two of them and after the last leaves the number
alone, while it may load operands into any registers. -/
inductive Accumulates (β : Type) [Bus β] (signed : Bool) (low high : Register) :
    List (Word × Word) → Processor → Processor → Prop
  | done {p q : Processor} (h : q.pair high low = p.pair high low) :
    Accumulates β signed low high [] p q
  | add {p loaded q : Processor} {setFlags : Bool} {left right : Register}
    {pairs : List (Word × Word)} (hp : loaded.pair high low = p.pair high low)
    (ht : loaded.thumb = false)
    (ho : Arm.LongFields loaded.pipeline.decoded signed true setFlags low high left right)
    (hr : LongRegisters low high left right)
    (hc : (Condition.ofCode (loaded.pipeline.decoded >>> 28)).holds loaded.status.flags = true)
    (bus : β) (h : Accumulates β signed low high pairs (loaded.step bus).processor q) :
    Accumulates β signed low high ((loaded.get left, loaded.get right) :: pairs) p q

/-- The sum of the products of some pairs of numbers. -/
def dotProduct (signed : Bool) (pairs : List (Word × Word)) : Int :=
  (pairs.map fun pair => numberOf signed pair.1 * numberOf signed pair.2).sum

theorem Accumulates.total {pairs : List (Word × Word)} {q : Processor}
    (h : Accumulates β signed low high pairs p q) :
    (q.pair high low : Int) = (p.pair high low + dotProduct signed pairs) % 2 ^ 64 := by
  induction h with
  | @done p q h =>
    have hlt := p.pair_lt high low
    rw [h, dotProduct, List.map_nil, List.sum_nil]
    omega
  | @add p loaded q setFlags left right pairs hp ht ho hr hc bus _ ih =>
    have hvalue := (multiplyLong_step ht ho hr hc bus).value
    rw [if_pos rfl, hp] at hvalue
    have hsum : dotProduct signed ((loaded.get left, loaded.get right) :: pairs) =
        numberOf signed (loaded.get left) * numberOf signed (loaded.get right) +
          dotProduct signed pairs := List.sum_cons
    rw [ih, hvalue, hsum]
    omega

/-- **Long multiplication.** A step over any long multiplication whose condition holds and whose
result is defined leaves the product of its two numbers, and perhaps the number in the pair, modulo
`2 ^ 64`, all as they were before the step. Where flags are set, they are the sign of that number
and whether it is zero, and nothing else changes but that the program goes on. So a run of them that
adds to one pair adds up all its products. -/
theorem longProducts_accumulate :
    (∀ (p : Processor) (bus : β) (signed accumulate setFlags : Bool)
      (low high left right : Register), p.thumb = false →
      Arm.LongFields p.pipeline.decoded signed accumulate setFlags low high left right →
      LongRegisters low high left right →
      (Condition.ofCode (p.pipeline.decoded >>> 28)).holds p.status.flags = true →
      LongMultiplied p signed accumulate setFlags low high left right (p.step bus).processor) ∧
    ∀ (signed : Bool) (low high : Register) (pairs : List (Word × Word)) (p q : Processor),
      Accumulates β signed low high pairs p q →
      (q.pair high low : Int) = (p.pair high low + dotProduct signed pairs) % 2 ^ 64 :=
  ⟨fun _ bus _ _ _ _ _ _ _ ht ho hr hc => multiplyLong_step ht ho hr hc bus,
    fun _ _ _ _ _ _ h => h.total⟩

/-- A program that loads 3 and -5 and adds their product to a pair of registers, then loads -10 and
adds its product with -5. -/
def dotProgram (address : Word) (_ : Width) : Word :=
  if address = 0x00 then 0xE3A02003
  else if address = 0x04 then 0xE3E03004
  else if address = 0x08 then 0xE0E10392
  else if address = 0x0C then 0xE3E02009
  else 0xE0F10293

/-- The states of this program from its start on. -/
def dotRun (n : Nat) : Processor :=
  (fun p => (p.step (⟨⟩ : Listing dotProgram)).processor)^[n]
    (powerOn.jump (⟨⟩ : Listing dotProgram) 0).processor

/-- About to multiply the largest word by itself, into the registers it is in. -/
def aboutToSquare : Processor :=
  { (powerOn.set (Register.ofNat 0) 0xFFFFFFFF).set (Register.ofNat 1) 0xFFFFFFFF with
    pipeline := ⟨0, 0xE0910091, 0⟩ }

/-- A product that overwrites its operands, and a run whose sum is negative on the way. -/
theorem longProducts_accumulate_dot :
    let squared := (aboutToSquare.step (⟨⟩ : Listing dotProgram)).processor
    squared.pair 1 0 = 0xFFFFFFFE00000001 ∧ squared.status.flags.n = true ∧
      Accumulates (Listing dotProgram) true 0 1 [(3, -5), (-5, -10)] (dotRun 0) (dotRun 5) ∧
      (dotRun 0).pair 1 0 = 0 ∧ (dotRun 5).pair 1 0 = 35 := by
  intro squared
  obtain ⟨hstep, hrun⟩ := longProducts_accumulate (β := Listing dotProgram)
  have hsquared : LongMultiplied aboutToSquare false false true 0 1 1 0 squared :=
    hstep aboutToSquare ⟨⟩ false false true 0 1 1 0 (by decide +kernel)
      ⟨by decide, by decide, by decide, by decide, by decide, by decide, by decide, by decide,
        by decide⟩
      ⟨by decide, by decide, by decide, by decide, by decide⟩ (by decide +kernel)
  have hpair : squared.pair 1 0 = 0xFFFFFFFE00000001 := by
    have hnumbers : (numberOf false (aboutToSquare.get 1) * numberOf false (aboutToSquare.get 0) +
        if false then (aboutToSquare.pair 1 0 : Int) else 0) % 2 ^ 64 = 0xFFFFFFFE00000001 := by
      decide +kernel
    have hvalue := hsquared.value.trans hnumbers
    omega
  have hnegative : squared.status.flags.n = true :=
    (hsquared.flags.negative rfl).mpr (hpair ▸ by decide)
  have hopcode : (dotRun 2).pipeline.decoded = 0xE0E10392 ∧
      (dotRun 4).pipeline.decoded = 0xE0F10293 := by decide +kernel
  have hfields : Arm.LongFields (dotRun 2).pipeline.decoded true true false 0 1 2 3 ∧
      Arm.LongFields (dotRun 4).pipeline.decoded true true true 0 1 3 2 := by
    rw [hopcode.1, hopcode.2]
    constructor <;> constructor <;> decide
  have hregisters : LongRegisters 0 1 2 3 ∧ LongRegisters 0 1 3 2 := by
    constructor <;> constructor <;> decide
  have hoperands : ((dotRun 2).get 2, (dotRun 2).get 3) = (3, -5) ∧
      ((dotRun 4).get 3, (dotRun 4).get 2) = (-5, -10) := by decide +kernel
  have hsecond : Accumulates (Listing dotProgram) true 0 1 [(-5, -10)] (dotRun 3) (dotRun 5) := by
    rw [← hoperands.2]
    exact .add (by decide +kernel) (by decide +kernel) hfields.2 hregisters.2 (by decide +kernel)
      ⟨⟩ (.done rfl)
  have hsum : Accumulates (Listing dotProgram) true 0 1 [(3, -5), (-5, -10)] (dotRun 0)
      (dotRun 5) := by
    rw [← hoperands.1]
    exact .add (by decide +kernel) (by decide +kernel) hfields.1 hregisters.1 (by decide +kernel)
      ⟨⟩ hsecond
  have hzero : (dotRun 0).pair 1 0 = 0 := by decide +kernel
  have hdot : dotProduct true [(3, -5), (-5, -10)] = 35 := by decide +kernel
  have htotal := hrun true 0 1 _ _ _ hsum
  rw [hzero, hdot] at htotal
  exact ⟨hpair, hnegative, hsum, hzero, by omega⟩

end Processor

end Handheld
