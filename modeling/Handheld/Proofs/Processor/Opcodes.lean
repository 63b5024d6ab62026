import Handheld.Proofs.Processor.Decode.Arm
import Handheld.Proofs.Word

/-!
# Tests on 32-bit opcodes

The most crowded group of opcodes is told apart by masks that overlap. Here each test is one on the
fields of an opcode.

1. `IsBranchExchange` and `IsMultiplyOrTransfer` are patterns of opcodes.
2. What decoding tests by a mask is one of them (`branchExchange_iff`, `multiply_iff`,
   `halfword_iff`).
-/

namespace Handheld.Arm

/-- The pattern of a branch to a register: all of bits 4 to 27 are fixed. -/
def IsBranchExchange (opcode : Word) : Prop :=
  field opcode 4 0xFFFFFF = 0x12FFF1

/-- Bits 4 to 7 of the multiplications and swaps, and of the transfers of halfwords and signed
values. -/
def IsMultiplyOrTransfer (opcode : Word) : Prop :=
  field opcode 4 0xF = 0x9 ∨ field opcode 4 0xF = 0xB ∨ field opcode 4 0xF = 0xD ∨
    field opcode 4 0xF = 0xF

theorem branchExchange_iff {opcode : Word} :
    opcode &&& 0x0FFFFFF0 = 0x012FFF10 ↔ IsBranchExchange opcode :=
  and_eq_iff (by decide) (by decide) (by decide) (by decide)

theorem multiply_iff {opcode : Word} : opcode &&& 0xF0 = 0x90 ↔ field opcode 4 0xF = 9 :=
  and_eq_iff (by decide) (by decide) (by decide) (by decide)

/-- Of the opcodes with bits 4 and 7 set, the multiplications have bits 5 and 6 clear. -/
theorem halfword_iff {opcode : Word} (h9 : field opcode 4 0xF ≠ 9) :
    opcode &&& 0x90 = 0x90 ↔
      field opcode 4 0xF = 0xB ∨ field opcode 4 0xF = 0xD ∨ field opcode 4 0xF = 0xF := by
  have h : opcode &&& 0x90 = 0x90 ↔ field opcode 4 0xF &&& 9 = 9 := by
    rw [field, UInt32.and_assoc]
    exact and_eq_iff (by decide) (by decide) (by decide) (by decide)
  have hlt : (field opcode 4 0xF).toNat < 16 := by
    rw [toNat_field opcode 4 4 rfl rfl]
    exact Nat.mod_lt _ (by decide)
  rw [h]
  generalize field opcode 4 0xF = nibble at h9 hlt ⊢
  obtain ⟨n, hn⟩ : ∃ n : Fin 16, nibble = UInt32.ofNat n.val :=
    ⟨⟨_, hlt⟩, (UInt32.ofNat_toNat).symm⟩
  subst hn
  revert h9
  clear hlt h
  revert n
  decide

/-- A branch to a register is told from a multiplication or transfer by bits 4 to 7. -/
theorem not_isBranchExchange {opcode : Word} (h4 : field opcode 4 0xF ≠ 1) :
    ¬ IsBranchExchange opcode := by
  intro hbranch
  apply h4
  rw [IsBranchExchange, field_eq_iff 4 rfl 24 rfl] at hbranch
  rw [field_eq_iff 4 rfl 4 rfl]
  have hbranch : opcode.toNat / 2 ^ 4 % 2 ^ 24 = 0x12FFF1 := hbranch
  show _ = 1
  omega

theorem isStatusTransfer_iff {opcode : Word} :
    isStatusTransfer opcode = true ↔
      bit opcode 24 = true ∧ bit opcode 23 = false ∧ bit opcode 20 = false := by
  simp [isStatusTransfer, and_assoc]

theorem isStatusTransfer_iff_toNat {opcode : Word} :
    isStatusTransfer opcode = true ↔
      opcode.toNat / 2 ^ 24 % 2 = 1 ∧ opcode.toNat / 2 ^ 23 % 2 = 0 ∧
        opcode.toNat / 2 ^ 20 % 2 = 0 := by
  rw [isStatusTransfer_iff, bit_eq_iff 24 rfl, bit_eq_iff 23 rfl, bit_eq_iff 20 rfl]
  rfl

end Handheld.Arm
