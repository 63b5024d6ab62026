import Handheld.Processor.Status

/-!
# Registers

Sixteen registers are visible at a time. Registers 0 to 7 and the program counter are shared by
every bank, 8 to 12 by every bank but that of the fast interrupt, and each bank has its own 13
and 14 and its own saved status word. The slot of user mode among the saved words belongs to no
mode.

1. `read` and `write` go through a given bank, each by its own table of the numbers.
2. `get` and `set` go through the active bank, `getUser` and `setUser` through that of user mode.
3. The stack pointers and the saved status words can also be reached directly.
-/

namespace Handheld

/-! ## Banks -/

/-- The number of a visible register. -/
abbrev Register := Fin 16

namespace Register

/-- The register of a number, taken modulo sixteen. -/
def ofNat (number : Nat) : Register := ⟨number % 16, Nat.mod_lt _ (by decide)⟩

def r0 : Register := ofNat 0
def sp : Register := ofNat 13
def lr : Register := ofNat 14
def pc : Register := ofNat 15

end Register

/-- The register named by the four bits of an opcode from a bit on. -/
def registerField (opcode position : Word) : Register :=
  Register.ofNat (opcode >>> position).toNat

/-- The register named by the three bits of an opcode from a bit on. -/
def lowRegisterField (opcode position : Word) : Register :=
  Register.ofNat (field opcode position 7).toNat

/-- A bank of registers; user and system mode share one. -/
inductive Bank
  | user
  | fiq
  | irq
  | supervisor
  | abort
  | undefined
  deriving DecidableEq, Inhabited

namespace Bank

def count : Nat := 6

/-- The place of a bank among the banks. -/
def index : Bank → Fin 6
  | user => 0
  | fiq => 1
  | irq => 2
  | supervisor => 3
  | abort => 4
  | undefined => 5

/-- The banks in order. -/
def all : List Bank := [user, fiq, irq, supervisor, abort, undefined]

/-- The bank that a mode works in. -/
def ofMode : Mode → Bank
  | .user => user
  | .fiq => fiq
  | .irq => irq
  | .supervisor => supervisor
  | .abort => abort
  | .undefined => undefined
  | .system => user

end Bank

/-! ## The register file -/

/-- Every register of every bank, and the bank in view. -/
structure RegisterFile where
  /-- Registers 0 to 7. -/
  low : Vector Word 8
  /-- Registers 8 to 12 of every bank but that of the fast interrupt. -/
  highUser : Vector Word 5
  /-- Registers 8 to 12 of the bank of the fast interrupt. -/
  highFiq : Vector Word 5
  /-- Registers 13 and 14 of each bank. -/
  spLr : Vector (Vector Word 2) 6
  /-- The saved status word of each bank. -/
  saved : Vector Word 6
  /-- Register 15. -/
  pc : Word
  bank : Bank
  deriving DecidableEq

namespace RegisterFile

/-- A file of zeros with the user bank in view. -/
def zero : RegisterFile where
  low := .replicate 8 0
  highUser := .replicate 5 0
  highFiq := .replicate 5 0
  spLr := .replicate 6 (.replicate 2 0)
  saved := .replicate 6 0
  pc := 0
  bank := .user

instance : Inhabited RegisterFile := ⟨zero⟩

/-- The register a number names from a bank; every number from 15 on names the program counter. -/
def read (file : RegisterFile) (bank : Bank) (number : Nat) : Word :=
  if h : number < 8 then file.low[number]
  else if h : number < 13 then
    if bank = .fiq then file.highFiq[number - 8] else file.highUser[number - 8]
  else if h : number < 15 then file.spLr[bank.index][number - 13]
  else file.pc

/-- Write the register a number names from a bank. -/
def write (file : RegisterFile) (bank : Bank) (number : Nat) (value : Word) : RegisterFile :=
  if h : number < 8 then { file with low := file.low.set number value }
  else if h : number < 13 then
    if bank = .fiq then { file with highFiq := file.highFiq.set (number - 8) value }
    else { file with highUser := file.highUser.set (number - 8) value }
  else if h : number < 15 then
    { file with
      spLr := file.spLr.set bank.index (file.spLr[bank.index].set (number - 13) value) }
  else { file with pc := value }

/-- Bring another bank into view. -/
def switchBank (file : RegisterFile) (bank : Bank) : RegisterFile :=
  { file with bank }

/-- A register as the active bank shows it. -/
def get (file : RegisterFile) (number : Nat) : Word :=
  file.read file.bank number

/-- Write a register through the active bank. -/
def set (file : RegisterFile) (number : Nat) (value : Word) : RegisterFile :=
  file.write file.bank number value

/-- A register as user mode sees it. -/
def getUser (file : RegisterFile) (number : Nat) : Word :=
  file.read .user number

/-- Write a register as user mode sees it. -/
def setUser (file : RegisterFile) (number : Nat) (value : Word) : RegisterFile :=
  file.write .user number value

def setPc (file : RegisterFile) (value : Word) : RegisterFile :=
  { file with pc := value }

/-- The saved status word of the active bank. -/
def savedStatus (file : RegisterFile) : Word :=
  file.saved[file.bank.index]

/-- Write the saved status word of the active bank. -/
def setSavedStatus (file : RegisterFile) (value : Word) : RegisterFile :=
  { file with saved := file.saved.set file.bank.index value }

/-- The stack pointer of a bank, active or not. -/
def bankedSp (file : RegisterFile) (bank : Bank) : Word :=
  file.spLr[bank.index][0]

/-- Write the stack pointer of a bank, active or not. -/
def setBankedSp (file : RegisterFile) (bank : Bank) (value : Word) : RegisterFile :=
  { file with spLr := file.spLr.set bank.index (file.spLr[bank.index].set 0 value) }

/-- Whether the active bank has a saved status word of its own. -/
def hasSavedStatus (file : RegisterFile) : Bool :=
  file.bank != .user

/-- Clear every register of every bank and keep the bank in view. -/
def clear (file : RegisterFile) : RegisterFile :=
  { zero with bank := file.bank }

/-- The sixteen registers in view. -/
def visible (file : RegisterFile) : List Word :=
  (List.range 16).map file.get

end RegisterFile

end Handheld
