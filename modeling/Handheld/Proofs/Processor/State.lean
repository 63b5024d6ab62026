import Handheld.Proofs.Processor.Places
import Handheld.Proofs.Processor.Status
import Handheld.Processor.Pipeline

/-!
# Frames of the processor's state

What each change of the register file and of the status word leaves as it was.

1. A register is written in one place of the file: `general_write_of_ne` and `general_setPc_of_ne`
   are the frames of that, and `pc_set_of_ne` the one that the program counter lies in.
2. A change of the status word may bring another bank into view, but moves no storage
   (`general_writeStatus`, `saved_writeStatus`).
-/

namespace Handheld

/-! ## The register file -/

theorem Register.lr_ne_pc : Register.lr ≠ Register.pc := by decide

namespace Bank

/-- Only the program counter is in the program counter's place. -/
theorem physical_ne_pc (bank : Bank) {register : Register} (h : register ≠ Register.pc) :
    bank.physical register.val ≠ 30 := by
  revert register
  cases bank <;> decide

theorem physical_injective (bank : Bank) {register other : Register}
    (h : bank.physical register.val = bank.physical other.val) : register = other := by
  revert register other
  cases bank <;> decide

theorem index_ne {a b : Bank} (h : a ≠ b) : a.index.val ≠ b.index.val := by
  revert h
  cases a <;> cases b <;> decide

end Bank

namespace RegisterFile

variable (file : RegisterFile) (value : Word)

theorem pc_setPc : (file.setPc value).pc = value :=
  rfl

/-- A write through a bank is seen in the place that the bank names, and in no other. -/
theorem general_write_of_ne (bank : Bank) (number : Nat) {place : Fin 31}
    (h : bank.physical number ≠ place) :
    (file.write bank number value).general.get place = file.general.get place := by
  rw [general_write]
  exact Vector.getElem_set_ne (Fin.isLt _) place.isLt fun he => h (Fin.ext he)

theorem general_setPc_of_ne {place : Fin 31} (h : place ≠ 30) :
    (file.setPc value).general.get place = file.general.get place := by
  rw [general_setPc]
  exact Vector.getElem_set_ne (by decide) place.isLt fun he => h (Fin.ext he.symm)

/-- The program counter is the register in the last place. -/
theorem pc_eq_general : file.pc = file.general.get 30 := by
  show file.placed 30 = file.general[30]
  rw [getElem_general]

theorem pc_write_of_ne (bank : Bank) {register : Register} (h : register ≠ Register.pc) :
    (file.write bank register.val value).pc = file.pc := by
  rw [pc_eq_general, pc_eq_general,
    general_write_of_ne _ _ _ _ (Bank.physical_ne_pc bank h)]

theorem pc_set_of_ne {register : Register} (h : register ≠ Register.pc) :
    (file.set register.val value).pc = file.pc :=
  file.pc_write_of_ne value file.bank h

theorem pc_setUser_of_ne {register : Register} (h : register ≠ Register.pc) :
    (file.setUser register.val value).pc = file.pc :=
  file.pc_write_of_ne value .user h

/-- A register other than the program counter may as well be written before it. -/
theorem set_setPc {register : Register} (h : register ≠ Register.pc) (pc : Word) :
    (file.setPc pc).set register.val value = (file.set register.val value).setPc pc := by
  have hne : 30 ≠ (file.bank.physical register.val).val :=
    fun he => Bank.physical_ne_pc _ h (Fin.ext he.symm)
  unfold set
  refine ext_general ?_ ?_ ?_
  · rw [general_write, general_setPc, general_setPc, general_write]
    exact Vector.set_comm _ _ hne
  · exact (saved_write ..).trans (saved_write file file.bank register.val value).symm
  · exact (bank_write ..).trans (bank_write file file.bank register.val value).symm

theorem saved_setSavedStatus_of_ne {bank : Bank} (h : bank ≠ file.bank) :
    (file.setSavedStatus value).saved.get bank.index = file.saved.get bank.index :=
  Vector.getElem_set_ne (Fin.isLt _) (Fin.isLt _) (Bank.index_ne h).symm

end RegisterFile

/-! ## Registers in view -/

namespace Processor

theorem get_eq_general (p : Processor) (register : Register) :
    p.get register = p.registers.general.get (p.registers.bank.physical register.val) :=
  p.registers.read_eq_general p.registers.bank register.val

theorem get_setPc (p : Processor) {register : Register} (h : register ≠ Register.pc)
    (value : Word) : (p.setPc value).get register = p.get register := by
  rw [get_eq_general, get_eq_general]
  exact p.registers.general_setPc_of_ne value (Bank.physical_ne_pc _ h)

theorem bank_set (p : Processor) (register : Register) (value : Word) :
    (p.set register value).registers.bank = p.registers.bank :=
  RegisterFile.bank_write ..

theorem saved_set (p : Processor) (register : Register) (value : Word) :
    (p.set register value).registers.saved = p.registers.saved :=
  RegisterFile.saved_write ..

theorem bank_setUser (p : Processor) (register : Register) (value : Word) :
    (p.setUser register value).registers.bank = p.registers.bank :=
  RegisterFile.bank_write ..

theorem saved_setUser (p : Processor) (register : Register) (value : Word) :
    (p.setUser register value).registers.saved = p.registers.saved :=
  RegisterFile.saved_write ..

theorem get_set (p : Processor) (register wanted : Register) (value : Word) :
    (p.set register value).get wanted = if wanted = register then value else p.get wanted := by
  have h := RegisterFile.read_write p.registers p.registers.bank p.registers.bank register.val
    wanted.val value
  unfold get RegisterFile.get
  rw [bank_set]
  refine h.trans ?_
  by_cases he : wanted = register
  · rw [if_pos he, if_pos (by rw [he])]
  · rw [if_neg he, if_neg (mt (Bank.physical_injective _) he)]

theorem set_set (p : Processor) (register : Register) (first second : Word) :
    (p.set register first).set register second = p.set register second := by
  have hfile : (p.registers.set register.val first).set register.val second =
      p.registers.set register.val second := by
    refine RegisterFile.ext_general ?_ ?_ ?_ <;> unfold RegisterFile.set
    · simp only [RegisterFile.bank_write, RegisterFile.general_write, Vector.set_set]
    · simp only [RegisterFile.saved_write]
    · simp only [RegisterFile.bank_write]
  exact congrArg (fun file => (⟨file, p.status, p.pipeline, p.fetchTiming, p.locked, p.cycles⟩ :
    Processor)) hfile

theorem pc_set (p : Processor) {register : Register} (h : register = Register.pc) (value : Word) :
    (p.set register value).pc = value := by
  subst h
  rfl

end Processor

/-! ## Changes of the status word -/

namespace Processor

variable (p : Processor) (value : Word)

theorem cycles_writeStatus : (p.writeStatus value).cycles = p.cycles := by
  unfold writeStatus
  split <;> rfl

theorem cycles_restoreStatus : p.restoreStatus.cycles = p.cycles := by
  unfold restoreStatus
  split
  · exact cycles_writeStatus ..
  · rfl

/-- A change of the status word leaves every register and every saved status word. -/
theorem general_writeStatus : (p.writeStatus value).registers.general = p.registers.general := by
  unfold writeStatus
  split <;> rfl

theorem saved_writeStatus : (p.writeStatus value).registers.saved = p.registers.saved := by
  unfold writeStatus
  split <;> rfl

theorem general_restoreStatus : p.restoreStatus.registers.general = p.registers.general := by
  unfold restoreStatus
  split
  · exact general_writeStatus ..
  · rfl

theorem saved_restoreStatus : p.restoreStatus.registers.saved = p.registers.saved := by
  unfold restoreStatus
  split
  · exact saved_writeStatus ..
  · rfl

/-- It leaves the program counter and the pipeline, too. -/
theorem pc_writeStatus : (p.writeStatus value).pc = p.pc := by
  unfold writeStatus
  split <;> rfl

theorem pipeline_writeStatus : (p.writeStatus value).pipeline = p.pipeline := by
  unfold writeStatus
  split <;> rfl

end Processor

end Handheld
