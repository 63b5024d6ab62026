import Handheld.Proofs.Processor.Opcodes
import Handheld.Proofs.Processor.Recorded
import Handheld.Proofs.Processor.Traps

/-!
# Undefined opcodes

Which opcodes mean nothing is decided by tests that overlap, and their order counts. Here the
undefined opcodes of both instruction sets are listed by their bits.

1. `Arm.Undefined` and `Thumb.Undefined` are the lists, one case for each part of the opcode space.
2. `Arm.decodeBody_eq_undefined_iff` and `Thumb.decode_eq_undefined_iff` say that just these are
   decoded to the undefined instruction, by one lemma for each group of opcodes.
3. `undefined_exactly` says what a step does on an undefined opcode, and that no other step touches
   the bank of undefined mode from outside.
-/

namespace Handheld

/-! ## 32-bit opcodes -/

namespace Arm

/-- The 32-bit opcodes that mean nothing, whatever their condition. -/
inductive Undefined (opcode : Word) : Prop
  /-- A transfer with a register offset that is shifted by a register. -/
  | shiftedTransfer (hgroup : field opcode 25 7 = 3) (h4 : bit opcode 4 = true)
  /-- A transfer between a coprocessor and memory. -/
  | coprocessorTransfer (hgroup : field opcode 25 7 = 6)
  /-- A coprocessor operation, or a register transfer with a coprocessor other than 14. -/
  | coprocessor (hgroup : field opcode 24 0xF = 0xE)
    (h : bit opcode 4 = false ∨ field opcode 8 0xF ≠ 14)
  /-- A test of a constant that sets no flags and is no write of a status word. -/
  | constantTest (hgroup : field opcode 25 7 = 1) (h24 : bit opcode 24 = true)
    (h23 : bit opcode 23 = false) (h21 : bit opcode 21 = false) (h20 : bit opcode 20 = false)
  /-- A swap with a bit set that has to be clear. -/
  | swap (hgroup : field opcode 25 7 = 0) (h4 : field opcode 4 0xF = 9) (h24 : bit opcode 24 = true)
    (h : bit opcode 23 = true ∨ bit opcode 21 = true ∨ bit opcode 20 = true ∨
      field opcode 8 0xF ≠ 0)
  /-- A multiplication that is neither short nor long. -/
  | multiply (hgroup : field opcode 25 7 = 0) (h4 : field opcode 4 0xF = 9)
    (h24 : bit opcode 24 = false) (h23 : bit opcode 23 = false) (h22 : bit opcode 22 = true)
  /-- A transfer of a halfword or signed value with a register offset and bits that have to be
  clear. -/
  | halfwordTransfer (hgroup : field opcode 25 7 = 0)
    (h4 : field opcode 4 0xF = 0xB ∨ field opcode 4 0xF = 0xD ∨ field opcode 4 0xF = 0xF)
    (h22 : bit opcode 22 = false) (h8 : field opcode 8 0xF ≠ 0)
  /-- A test of a register that sets no flags, and is neither a status transfer nor a branch. -/
  | registerTest (hgroup : field opcode 25 7 = 0) (h4 : ¬ IsMultiplyOrTransfer opcode)
    (h24 : bit opcode 24 = true) (h23 : bit opcode 23 = false) (h20 : bit opcode 20 = false)
    (h : field opcode 4 0xFF ≠ 0) (hbranch : ¬ IsBranchExchange opcode)

/-! ### Tests of bits in their places -/

theorem swapBits_iff {opcode : Word} :
    opcode &&& 0x00B00F00 = 0 ↔
      bit opcode 23 = false ∧ bit opcode 21 = false ∧ bit opcode 20 = false ∧
        field opcode 8 0xF = 0 := by
  have h23 : opcode &&& 0x00800000 = 0 ↔ field opcode 23 1 = 0 :=
    and_eq_zero_iff (by decide) (by decide)
  have h21 : opcode &&& 0x00200000 = 0 ↔ field opcode 21 1 = 0 :=
    and_eq_zero_iff (by decide) (by decide)
  have h20 : opcode &&& 0x00100000 = 0 ↔ field opcode 20 1 = 0 :=
    and_eq_zero_iff (by decide) (by decide)
  have hmask : (0x00B00F00 : Word) = 0x00800000 ||| 0x00200000 ||| 0x00100000 ||| 0x00000F00 := by
    decide
  rw [bit_eq_false_iff, bit_eq_false_iff, bit_eq_false_iff, ← h23, ← h21, ← h20, ← and_bits8_iff, hmask,
    UInt32.and_comm, or_and, or_and, or_and, UInt32.or_eq_zero_iff, UInt32.or_eq_zero_iff,
    UInt32.or_eq_zero_iff, UInt32.and_comm opcode, UInt32.and_comm opcode, UInt32.and_comm opcode,
    UInt32.and_comm opcode, and_assoc, and_assoc]

theorem coprocessor_iff {opcode : Word} :
    field opcode 24 0xF = 0xE ↔ field opcode 25 7 = 7 ∧ bit opcode 24 = false := by
  rw [field_eq_iff 24 rfl 4 rfl, field_eq_iff 25 rfl 3 rfl, bit_eq_iff 24 rfl]
  show _ = 14 ↔ _ = 7 ∧ _ = 0
  omega

/-! ### Groups -/

theorem decodeMultiply_eq_undefined_iff {opcode : Word} :
    decodeMultiply opcode = .undefined ↔
      bit opcode 24 = true ∧ opcode &&& 0x00B00F00 ≠ 0 ∨
        bit opcode 24 = false ∧ bit opcode 23 = false ∧ bit opcode 22 = true := by
  unfold decodeMultiply
  split_ifs <;> simp_all [Arm.swap, multiplyLong, Arm.multiply]

theorem statusTransfer_ne_undefined (opcode : Word) (source : Operand) :
    statusTransfer opcode source ≠ .undefined := by
  unfold statusTransfer
  split <;> nofun

theorem decodeRegisterGroup_eq_undefined_iff {opcode : Word} :
    decodeRegisterGroup opcode = .undefined ↔
      ¬ IsBranchExchange opcode ∧
        (field opcode 4 0xF = 9 ∧ decodeMultiply opcode = .undefined ∨
          (field opcode 4 0xF = 0xB ∨ field opcode 4 0xF = 0xD ∨ field opcode 4 0xF = 0xF) ∧
            bit opcode 22 = false ∧ field opcode 8 0xF ≠ 0 ∨
          ¬ IsMultiplyOrTransfer opcode ∧ isStatusTransfer opcode = true ∧
            field opcode 4 0xFF ≠ 0) := by
  have h4 : opcode &&& 0xFF0 = 0 ↔ field opcode 4 0xFF = 0 :=
    and_eq_zero_iff (by decide) (by decide)
  unfold decodeRegisterGroup IsMultiplyOrTransfer
  by_cases hbranch : IsBranchExchange opcode
  · rw [if_pos (branchExchange_iff.mpr hbranch)]
    exact iff_of_false nofun fun h => h.1 hbranch
  rw [if_neg (mt branchExchange_iff.mp hbranch)]
  by_cases h9 : field opcode 4 0xF = 9
  · rw [if_pos (multiply_iff.mpr h9)]
    simp [h9, hbranch]
  rw [if_neg (mt multiply_iff.mp h9)]
  by_cases htransfer :
      field opcode 4 0xF = 0xB ∨ field opcode 4 0xF = 0xD ∨ field opcode 4 0xF = 0xF
  · rw [if_pos ((halfword_iff h9).mpr htransfer)]
    simp only [beq_iff_eq, Bool.or_eq_true, and_bits8_iff]
    split_ifs with h22
    · exact iff_of_false nofun (by grind)
    · exact iff_of_true rfl (by grind)
  · rw [if_neg (mt (halfword_iff h9).mp htransfer)]
    simp only [h4]
    split_ifs with hstatus hzero
    · exact iff_of_false (statusTransfer_ne_undefined _ _) (by grind)
    · exact iff_of_true rfl (by grind)
    · exact iff_of_false nofun (by grind)

theorem decodeConstantGroup_eq_undefined_iff {opcode : Word} :
    decodeConstantGroup opcode = .undefined ↔
      isStatusTransfer opcode = true ∧ bit opcode 21 = false := by
  unfold decodeConstantGroup
  split_ifs with hstatus h21
  · exact iff_of_false (statusTransfer_ne_undefined _ _) (by simp [h21])
  · exact iff_of_true rfl (by simp_all)
  · exact iff_of_false nofun (by simp [hstatus])

theorem decodeCoprocessorGroup_eq_undefined_iff {opcode : Word} :
    decodeCoprocessorGroup opcode = .undefined ↔
      bit opcode 24 = false ∧ (bit opcode 4 = false ∨ field opcode 8 0xF ≠ 14) := by
  unfold decodeCoprocessorGroup
  simp only [beq_iff_eq, Bool.and_eq_true]
  split_ifs <;> grind

/-- What the groups leave undefined. -/
theorem decodeBody_undefined_cases {opcode : Word} :
    decodeBody opcode = .undefined ↔
      field opcode 25 7 = 0 ∧ decodeRegisterGroup opcode = .undefined ∨
      field opcode 25 7 = 1 ∧ decodeConstantGroup opcode = .undefined ∨
      field opcode 25 7 = 3 ∧ bit opcode 4 = true ∨
      field opcode 25 7 = 6 ∨
      field opcode 25 7 = 7 ∧ decodeCoprocessorGroup opcode = .undefined := by
  have hlt : (field opcode 25 7).toNat < 8 := by
    rw [toNat_field opcode 25 3 rfl rfl]
    exact Nat.mod_lt _ (by decide)
  unfold decodeBody
  simp only [← UInt32.toNat_inj]
  generalize (field opcode 25 7).toNat = group at hlt ⊢
  interval_cases group
  · simp
  · simp
  · simp [wordTransfer]
  · simp [wordTransfer]
  · simp
  · simp
  · simp
  · simp

/-- **The undefined opcodes.** Decoding finds the undefined instruction in just these. -/
theorem decodeBody_eq_undefined_iff {opcode : Word} :
    decodeBody opcode = .undefined ↔ Undefined opcode := by
  rw [decodeBody_undefined_cases, decodeRegisterGroup_eq_undefined_iff,
    decodeConstantGroup_eq_undefined_iff, decodeCoprocessorGroup_eq_undefined_iff,
    decodeMultiply_eq_undefined_iff, isStatusTransfer_iff, ne_eq, swapBits_iff]
  constructor
  · rintro (⟨hgroup, hbranch, ⟨h4, ⟨h24, h⟩ | ⟨h24, h23, h22⟩⟩ | ⟨h4, h22, h8⟩ |
        ⟨h4, ⟨h24, h23, h20⟩, h⟩⟩ | ⟨hgroup, ⟨h24, h23, h20⟩, h21⟩ | ⟨hgroup, h4⟩ | hgroup |
        ⟨hgroup, h24, h⟩)
    · exact .swap hgroup h4 h24 (by simpa [← Bool.not_eq_false, imp_iff_not_or] using h)
    · exact .multiply hgroup h4 h24 h23 h22
    · exact .halfwordTransfer hgroup h4 h22 h8
    · exact .registerTest hgroup h4 h24 h23 h20 h hbranch
    · exact .constantTest hgroup h24 h23 h21 h20
    · exact .shiftedTransfer hgroup h4
    · exact .coprocessorTransfer hgroup
    · exact .coprocessor (coprocessor_iff.mpr ⟨hgroup, h24⟩) h
  · intro h
    cases h with
    | shiftedTransfer hgroup h4 => exact .inr (.inr (.inl ⟨hgroup, h4⟩))
    | coprocessorTransfer hgroup => exact .inr (.inr (.inr (.inl hgroup)))
    | coprocessor hgroup h =>
      obtain ⟨hgroup, h24⟩ := coprocessor_iff.mp hgroup
      exact .inr (.inr (.inr (.inr ⟨hgroup, h24, h⟩)))
    | constantTest hgroup h24 h23 h21 h20 => exact .inr (.inl ⟨hgroup, ⟨h24, h23, h20⟩, h21⟩)
    | swap hgroup h4 h24 h =>
      refine .inl ⟨hgroup, not_isBranchExchange (h4 ▸ by decide), .inl ⟨h4, .inl ⟨h24, ?_⟩⟩⟩
      simpa [← Bool.not_eq_false, imp_iff_not_or] using h
    | multiply hgroup h4 h24 h23 h22 =>
      exact .inl ⟨hgroup, not_isBranchExchange (h4 ▸ by decide),
        .inl ⟨h4, .inr ⟨h24, h23, h22⟩⟩⟩
    | halfwordTransfer hgroup h4 h22 h8 =>
      have hbranch : ¬ IsBranchExchange opcode :=
        not_isBranchExchange (by rcases h4 with h | h | h <;> rw [h] <;> decide)
      exact .inl ⟨hgroup, hbranch, .inr (.inl ⟨h4, h22, h8⟩)⟩
    | registerTest hgroup h4 h24 h23 h20 h hbranch =>
      exact .inl ⟨hgroup, hbranch, .inr (.inr ⟨h4, ⟨h24, h23, h20⟩, h⟩)⟩

end Arm

/-! ## 16-bit opcodes -/

namespace Thumb

/-- The 16-bit opcodes that mean nothing. -/
inductive Undefined (opcode : Word) : Prop
  /-- The conditional branch that would hold always. -/
  | branch (h : field opcode 8 0xFF = 0xDE)
  /-- The second half of a long branch into the other instruction set. -/
  | longBranch (h : field opcode 11 0x1F = 0x1D)
  /-- A stack operation that is neither a push nor a pop. -/
  | stack (hgroup : field opcode 12 0xF = 0xB) (h10 : bit opcode 10 = true)
    (h9 : bit opcode 9 = true)
  /-- A change of the stack pointer with a bit set that has to be clear. -/
  | stackPointer (hgroup : field opcode 12 0xF = 0xB) (h10 : bit opcode 10 = false)
    (h8 : field opcode 8 0xF ≠ 0)

/-! ### Groups -/

theorem decodeShiftGroup_ne_undefined (opcode : Word) : decodeShiftGroup opcode ≠ .undefined := by
  unfold decodeShiftGroup
  split_ifs <;> nofun

theorem decodeConstantGroup_ne_undefined (opcode : Word) :
    decodeConstantGroup opcode ≠ .undefined := by
  unfold decodeConstantGroup
  split <;> nofun

theorem decodeRegisterGroup_ne_undefined (opcode : Word) :
    decodeRegisterGroup opcode ≠ .undefined := by
  unfold decodeRegisterGroup decodeHighRegister decodeRegisterOperation
  split_ifs
  · nofun
  · nofun
  · split <;> nofun
  · split <;> nofun

theorem decodeHalfwordGroup_ne_undefined (opcode : Word) :
    decodeHalfwordGroup opcode ≠ .undefined := by
  unfold decodeHalfwordGroup
  split_ifs <;> nofun

theorem decodeMiscellaneous_eq_undefined_iff {opcode : Word} :
    decodeMiscellaneous opcode = .undefined ↔
      bit opcode 12 = true ∧
        (bit opcode 10 = true ∧ bit opcode 9 = true ∨
          bit opcode 10 = false ∧ field opcode 8 0xF ≠ 0) := by
  unfold decodeMiscellaneous
  split_ifs <;> simp_all [pushOrPop, and_bits8_iff]

theorem decodeBranchGroup_eq_undefined_iff {opcode : Word} :
    (decodeBranchGroup opcode).2 = .undefined ↔
      bit opcode 12 = true ∧ field opcode 8 0xF = 0xE := by
  unfold decodeBranchGroup
  by_cases h12 : bit opcode 12 = true
  · rw [if_pos h12, ← UInt32.toNat_inj]
    split <;> simp_all
  · rw [if_neg h12]
    exact iff_of_false nofun fun h => h12 h.1

theorem decodeLongBranch_eq_undefined_iff {opcode : Word} :
    decodeLongBranch opcode = .undefined ↔ bit opcode 12 = false ∧ bit opcode 11 = true := by
  unfold decodeLongBranch
  split_ifs <;> simp_all

/-- What the groups leave undefined. -/
theorem decode_undefined_cases {opcode : Word} :
    (decode opcode).2 = .undefined ↔
      field opcode 13 7 = 5 ∧ decodeMiscellaneous opcode = .undefined ∨
      field opcode 13 7 = 6 ∧ (decodeBranchGroup opcode).2 = .undefined ∨
      field opcode 13 7 = 7 ∧ decodeLongBranch opcode = .undefined := by
  have hlt : (field opcode 13 7).toNat < 8 := by
    rw [toNat_field opcode 13 3 rfl rfl]
    exact Nat.mod_lt _ (by decide)
  unfold decode
  simp only [← UInt32.toNat_inj]
  generalize (field opcode 13 7).toNat = group at hlt ⊢
  interval_cases group
  · simpa using decodeShiftGroup_ne_undefined opcode
  · simpa using decodeConstantGroup_ne_undefined opcode
  · simpa using decodeRegisterGroup_ne_undefined opcode
  · simp [decodeConstantOffset, transferAt]
  · simpa using decodeHalfwordGroup_ne_undefined opcode
  · simp
  · simp
  · simp

/-! ### Tests of more than one group -/

theorem miscellaneous_iff {opcode : Word} :
    field opcode 12 0xF = 0xB ↔ field opcode 13 7 = 5 ∧ bit opcode 12 = true := by
  rw [field_eq_iff 12 rfl 4 rfl, field_eq_iff 13 rfl 3 rfl, bit_eq_iff 12 rfl]
  show _ = 11 ↔ _ = 5 ∧ _ = 1
  omega

theorem branch_iff {opcode : Word} :
    field opcode 8 0xFF = 0xDE ↔
      field opcode 13 7 = 6 ∧ bit opcode 12 = true ∧ field opcode 8 0xF = 0xE := by
  rw [field_eq_iff 8 rfl 8 rfl, field_eq_iff 13 rfl 3 rfl, bit_eq_iff 12 rfl,
    field_eq_iff 8 rfl 4 rfl]
  show _ = 222 ↔ _ = 6 ∧ _ = 1 ∧ _ = 14
  omega

theorem longBranch_iff {opcode : Word} :
    field opcode 11 0x1F = 0x1D ↔
      field opcode 13 7 = 7 ∧ bit opcode 12 = false ∧ bit opcode 11 = true := by
  rw [field_eq_iff 11 rfl 5 rfl, field_eq_iff 13 rfl 3 rfl, bit_eq_iff 12 rfl, bit_eq_iff 11 rfl]
  show _ = 29 ↔ _ = 7 ∧ _ = 0 ∧ _ = 1
  omega

/-- **The undefined opcodes.** Decoding finds the undefined instruction in just these. -/
theorem decode_eq_undefined_iff {opcode : Word} :
    (decode opcode).2 = .undefined ↔ Undefined opcode := by
  rw [decode_undefined_cases, decodeMiscellaneous_eq_undefined_iff,
    decodeBranchGroup_eq_undefined_iff, decodeLongBranch_eq_undefined_iff, ← branch_iff,
    ← longBranch_iff, ← and_assoc, ← miscellaneous_iff]
  constructor
  · rintro (⟨hgroup, ⟨h10, h9⟩ | ⟨h10, h8⟩⟩ | h | h)
    · exact .stack hgroup h10 h9
    · exact .stackPointer hgroup h10 h8
    · exact .branch h
    · exact .longBranch h
  · intro h
    cases h with
    | branch h => exact .inr (.inl h)
    | longBranch h => exact .inr (.inr h)
    | stack hgroup h10 h9 => exact .inl ⟨hgroup, .inl ⟨h10, h9⟩⟩
    | stackPointer hgroup h10 h8 => exact .inl ⟨hgroup, .inr ⟨h10, h8⟩⟩

/-- What is undefined has no condition to fail. -/
theorem condition_of_undefined {opcode : Word} (h : (decode opcode).2 = .undefined) :
    (decode opcode).1 = .always := by
  unfold decode at h ⊢
  split at h <;> try rfl
  unfold decodeBranchGroup at h ⊢
  split_ifs at h ⊢ with h12
  split at h <;> first | rfl | cases h

end Thumb

/-! ## The trap -/

/-- No bank owns the stack pointer or the link register of another one. -/
theorem Bank.not_owns_of_ne {bank other : Bank} (h : other ≠ bank) {number : Nat}
    (hl : 13 ≤ number) (hu : number < 15) : ¬ bank.Owns (other.physical number) := by
  rintro ⟨named, hl', hu', he⟩
  revert h he
  interval_cases number <;> interval_cases named <;> cases bank <;> cases other <;> decide

namespace Processor

variable {β : Type} [Bus β]

/-- The opcode that the next step executes means nothing, and its condition, if it has one,
holds. -/
def MeetsUndefined (p : Processor) : Prop :=
  if p.thumb then Thumb.Undefined p.pipeline.decoded
  else (Condition.ofCode (p.pipeline.decoded >>> 28)).holds p.status.flags = true ∧
    Arm.Undefined p.pipeline.decoded

theorem retires_undefined_iff {p : Processor} {bus : β} :
    p.Retires bus .undefined ↔ p.MeetsUndefined := by
  have hs : (p.advance bus).1.status = p.status := rfl
  unfold Retires MeetsUndefined
  rw [current_advance, hs]
  split
  · rw [← Thumb.decode_eq_undefined_iff]
    refine and_iff_left_of_imp fun h => ?_
    rw [Thumb.condition_of_undefined h]
    rfl
  · rw [← Arm.decodeBody_eq_undefined_iff]
    exact and_comm

/-- The registers 13 and 14 and the saved status word of a bank are as they were. -/
structure Spared (bank : Bank) (p q : Processor) : Prop where
  general : ∀ number, 13 ≤ number → number < 15 →
    q.registers.read bank number = p.registers.read bank number
  saved : q.registers.saved.get bank.index = p.registers.saved.get bank.index

theorem Frame.spared {start other : Bank} {user : Prop} {p q : Processor}
    (h : Frame start user p q) (hs : other ≠ start) (hu : other ≠ .user) : Spared other p q := by
  refine ⟨fun number hl hg => ?_, h.saved other hs⟩
  exact RegisterFile.read_congr (h.general other _ ⟨number, by omega, hg, rfl⟩
    (Bank.not_owns_of_ne hs hl hg) fun _ => Bank.not_owns_of_ne hu hl hg)

theorem Trapped.spared {exception : Exception} {bank : Bank} {p q : Processor}
    (h : Trapped exception p q) (hb : bank ≠ Bank.ofMode exception.entry.mode) :
    Spared bank p q := by
  refine ⟨fun number hl hu => ?_, h.saved bank hb⟩
  refine RegisterFile.read_congr (h.general _ (fun hpc => ?_) fun hlr => ?_)
  · have hr := Bank.owned_range ⟨number, by omega, hu, hpc⟩
    exact absurd hr.2 (by decide)
  · exact Bank.not_owns_of_ne hb hl hu ⟨14, by decide, by decide, hlr.symm⟩

/-- A step that does not trap on an undefined opcode leaves the bank of undefined mode, unless it
is in view. -/
theorem step_spared {p : Processor} {bus : β} (h : ¬ p.Retires bus .undefined)
    (hb : p.registers.bank ≠ .undefined) : Spared .undefined p (p.step bus).processor := by
  by_cases ht : ∃ i exception, p.Retires bus i ∧ i.trap? = some exception
  · obtain ⟨i, exception, hi, ht⟩ := ht
    refine (step_trapped hi ht).spared ?_
    cases i with
    | softwareInterrupt => cases ht; decide
    | undefined => exact absurd hi h
    | _ => cases ht
  · refine (step_frame p bus fun i hi => ?_).spared hb.symm (by decide)
    rw [Option.eq_none_iff_forall_ne_some]
    exact fun exception he => ht ⟨i, exception, hi, he⟩

/-- **The undefined trap.** In a reachable state, on every bus, a step over an undefined opcode
traps: it makes no access to data and leaves the handler of undefined opcodes about to run, with
the way back saved and all else as it was. A step over any other opcode does not trap like this,
and leaves the bank of undefined mode, unless that mode is on. -/
theorem undefined_exactly {p : Processor} (h : Reachable p) :
    (p.MeetsUndefined → ∀ (β : Type) [Bus β] (bus : β),
      Trapped .undefined p (p.step bus).processor ∧
        ∀ accesses, (p.step (⟨bus, accesses⟩ : Recorded β)).bus.accesses = accesses) ∧
    (¬ p.MeetsUndefined → ∀ (β : Type) [Bus β] (bus : β), ¬ p.Retires bus .undefined ∧
      (p.mode ≠ .undefined → Spared .undefined p (p.step bus).processor)) := by
  constructor
  · intro hu β _ bus
    refine ⟨step_trapped (retires_undefined_iff.mpr hu) rfl, fun accesses => ?_⟩
    have hi : p.Retires (⟨bus, accesses⟩ : Recorded β) .undefined := retires_undefined_iff.mpr hu
    rw [trap_step hi rfl]
    exact accesses_enterException ..
  · intro hu β _ bus
    have hi : ¬ p.Retires bus .undefined := mt retires_undefined_iff.mp hu
    obtain ⟨mode, hm⟩ := h.agrees
    refine ⟨hi, fun hmode => step_spared hi ?_⟩
    rw [mode_of_inMode hm] at hmode
    rw [hm.bank]
    revert hmode
    cases mode <;> decide

/-- A program that does nothing at first, by `MOV r0, r0`, and then nothing defined. -/
def astray (address : Word) (_ : Width) : Word :=
  if address = 0 then 0xE1A00000 else 0xE7F000F0

/-- The processor about to run it. -/
def astrayStart : Processor := (powerOn.jump (⟨⟩ : Listing astray) 0).processor

/-- The processor after the first instruction. -/
def astrayNext : Processor := (astrayStart.step (⟨⟩ : Listing astray)).processor

/-- The first instruction spares the bank of undefined mode, and the second one traps. -/
theorem undefined_exactly_astray :
    Reachable astrayStart ∧ ¬ astrayStart.MeetsUndefined ∧ astrayStart.mode ≠ .undefined ∧
      Spared .undefined astrayStart astrayNext ∧
      Reachable astrayNext ∧ astrayNext.MeetsUndefined ∧
      Trapped .undefined astrayNext (astrayNext.step (⟨⟩ : Listing astray)).processor ∧
      (astrayNext.step (⟨⟨⟩, []⟩ : Recorded (Listing astray))).bus.accesses = [] := by
  have hstart : Reachable astrayStart := Reachable.powerOn.jump _ 0
  have hnext : Reachable astrayNext := hstart.step _
  have hmode : astrayStart.mode ≠ .undefined := by decide +kernel
  have hdefined : ¬ astrayStart.MeetsUndefined := by
    have hmove : (astrayStart.advance (⟨⟩ : Listing astray)).1.current.2 =
        .process .mov false Register.r0 Register.r0 (.register Register.r0) := by decide +kernel
    intro hu
    have hi : astrayStart.Retires (⟨⟩ : Listing astray) .undefined := retires_undefined_iff.mpr hu
    cases hmove.symm.trans hi.1
  have hundefined : astrayNext.MeetsUndefined := by
    have ht : astrayNext.thumb = false := by decide +kernel
    have hopcode : astrayNext.pipeline.decoded = 0xE7F000F0 := by decide +kernel
    rw [MeetsUndefined, ht, hopcode]
    exact ⟨by decide +kernel, .shiftedTransfer (by decide) (by decide)⟩
  obtain ⟨htrapped, hnone⟩ := (undefined_exactly hnext).1 hundefined _ (⟨⟩ : Listing astray)
  exact ⟨hstart, hdefined, hmode, ((undefined_exactly hstart).2 hdefined _ _).2 hmode, hnext,
    hundefined, htrapped, hnone []⟩

end Processor

end Handheld
