import Mathlib.Tactic
import Handheld.Processor.Registers

/-!
# The places of the registers

The arrays behind the register file hold 31 registers between them. Most of what is said of a
register does not depend on the array it lies in, so the registers are numbered through.

1. `Bank.physical` is the place of the register that a number names from a bank, and
   `RegisterFile.general` lists the registers by their places.
2. `read_eq_general` and `general_write` say that the two tables of the file agree on the places, so
   that `read_write` holds: a write is seen through every name of the register it wrote, and through
   no other.
3. `ext_general` says that the places, the saved status words and the bank in view are all there is.
-/

namespace Handheld

/-! ## Places -/

namespace Bank

/-- The place of the register that a number names from a bank; the program counter has the last. -/
def physical (bank : Bank) (number : Nat) : Fin 31 :=
  if number < 8 then Fin.ofNat 31 number
  else if number < 13 then
    if bank = fiq then Fin.ofNat 31 (number + 5) else Fin.ofNat 31 number
  else if number < 15 then Fin.ofNat 31 (18 + 2 * bank.index.val + (number - 13))
  else 30

theorem val_physical (bank : Bank) (number : Nat) :
    (bank.physical number).val =
      if number < 8 then number
      else if number < 13 then if bank = fiq then number + 5 else number
      else if number < 15 then 18 + 2 * bank.index.val + (number - 13)
      else 30 := by
  have := bank.index.isLt
  unfold physical
  split_ifs <;> first | rfl | exact Nat.mod_eq_of_lt (by omega)

end Bank

/-- Registers 8 to 12 fill an array of five. -/
theorem Register.high_lt {number : Nat} (hlow : ¬ number < 8) (hhigh : number < 13) :
    number - 8 < 5 := by
  omega

namespace RegisterFile

/-- The register in a place; from the last place on, the program counter. -/
def placed (file : RegisterFile) (place : Nat) : Word :=
  if h8 : place < 8 then file.low[place]
  else if h13 : place < 13 then file.highUser.get ⟨place - 8, Register.high_lt h8 h13⟩
  else if h : place < 18 then file.highFiq[place - 13]
  else if h : place < 30 then file.spLr[(place - 18) / 2][(place - 18) % 2]
  else file.pc

/-- The registers of all banks, by their places. -/
def general (file : RegisterFile) : Vector Word 31 :=
  .ofFn fun place => file.placed place

theorem getElem_general (file : RegisterFile) {place : Nat} (h : place < 31) :
    file.general[place] = file.placed place :=
  Vector.getElem_ofFn h

theorem placed_low (file : RegisterFile) {number : Nat} (h : number < 8) :
    file.placed number = file.low[number] :=
  dif_pos h

theorem placed_highUser (file : RegisterFile) {number : Nat} (h : number < 5) :
    file.placed (8 + number) = file.highUser[number] := by
  have hsub : 8 + number - 8 = number := by omega
  unfold placed
  rw [dif_neg (by omega), dif_pos (by omega)]
  simp only [hsub]
  rfl

theorem placed_highFiq (file : RegisterFile) {number : Nat} (h : number < 5) :
    file.placed (13 + number) = file.highFiq[number] := by
  have hsub : 13 + number - 13 = number := by omega
  unfold placed
  rw [dif_neg (by omega), dif_neg (by omega), dif_pos (by omega)]
  simp only [hsub]

theorem placed_row (file : RegisterFile) {row column : Nat} (hr : row < 6) (hc : column < 2) :
    file.placed (18 + 2 * row + column) = file.spLr[row][column] := by
  have hrow : (18 + 2 * row + column - 18) / 2 = row := by omega
  have hcolumn : (18 + 2 * row + column - 18) % 2 = column := by omega
  unfold placed
  rw [dif_neg (by omega), dif_neg (by omega), dif_neg (by omega), dif_pos (by omega)]
  simp only [hrow, hcolumn]

/-! ## Reading -/

/-- A read goes to the place that the number names. -/
theorem read_eq_general (file : RegisterFile) (bank : Bank) (number : Nat) :
    file.read bank number = file.general[bank.physical number] := by
  rw [Fin.getElem_fin, getElem_general, Bank.val_physical]
  unfold read
  split_ifs with h8 h13 hb h15
  · exact (file.placed_low h8).symm
  · rw [← file.placed_highFiq (show number - 8 < 5 by omega)]
    exact congrArg file.placed (by omega)
  · rw [← file.placed_highUser (show number - 8 < 5 by omega)]
    exact congrArg file.placed (by omega)
  · exact (file.placed_row bank.index.isLt (by omega)).symm
  · rfl

theorem read_congr {a b : RegisterFile} {bank : Bank} {number : Nat}
    (h : a.general.get (bank.physical number) = b.general.get (bank.physical number)) :
    a.read bank number = b.read bank number :=
  (a.read_eq_general bank number).trans (h.trans (b.read_eq_general bank number).symm)

/-! ## Writing -/

section

variable (file : RegisterFile) (place : Nat) (value : Word)

theorem placed_set_low {number : Nat} (h : number < 8) :
    ({ file with low := file.low.set number value }).placed place =
      if number = place then value else file.placed place := by
  unfold placed
  by_cases hp : place < 8
  · simp only [dif_pos hp, Vector.getElem_set]
  · simp only [dif_neg hp]
    rw [if_neg (by omega)]

theorem placed_set_highUser {number : Nat} (h : number < 5) :
    ({ file with highUser := file.highUser.set number value }).placed place =
      if number + 8 = place then value else file.placed place := by
  unfold placed
  by_cases hp : 8 ≤ place ∧ place < 13
  · simp only [dif_neg (show ¬ place < 8 by omega), dif_pos hp.2]
    exact (Vector.getElem_set ..).trans (if_congr (by omega) rfl rfl)
  · rw [if_neg (by omega)]
    split_ifs <;> first | rfl | omega

theorem placed_set_highFiq {number : Nat} (h : number < 5) :
    ({ file with highFiq := file.highFiq.set number value }).placed place =
      if number + 13 = place then value else file.placed place := by
  unfold placed
  by_cases hp : 13 ≤ place ∧ place < 18
  · simp only [dif_neg (show ¬ place < 8 by omega), dif_neg (show ¬ place < 13 by omega),
      dif_pos hp.2, Vector.getElem_set]
    exact if_congr (by omega) rfl rfl
  · rw [if_neg (by omega)]
    split_ifs <;> first | rfl | omega

/-- A word of a table is changed where both the row and the column are those written. -/
theorem getElem_set_row {m n : Nat} (table : Vector (Vector Word n) m) {row column : Nat}
    (hr : row < m) (hc : column < n) {row' column' : Nat} (hr' : row' < m) (hc' : column' < n) :
    (table.set row (table[row].set column value))[row'][column'] =
      if row = row' ∧ column = column' then value else table[row'][column'] := by
  by_cases h : row = row'
  · subst h
    rw [Vector.getElem_set_self, Vector.getElem_set]
    exact if_congr (by simp) rfl rfl
  · rw [Vector.getElem_set_ne _ _ h, if_neg fun hand => h hand.1]

theorem placed_set_spLr (bank : Bank) {number : Nat} (h : number < 2) (hp : place < 31) :
    ({ file with
      spLr := file.spLr.set bank.index (file.spLr[bank.index].set number value) }).placed place =
      if 18 + 2 * bank.index.val + number = place then value else file.placed place := by
  have := bank.index.isLt
  unfold placed
  by_cases hb : 18 ≤ place ∧ place < 30
  · simp only [dif_neg (show ¬ place < 8 by omega), dif_neg (show ¬ place < 13 by omega),
      dif_neg (show ¬ place < 18 by omega), dif_pos hb.2]
    exact (getElem_set_row ..).trans (if_congr (by omega) rfl rfl)
  · rw [if_neg (by omega)]
    split_ifs <;> first | rfl | omega

theorem placed_setPc (hp : place < 31) :
    (file.setPc value).placed place = if 30 = place then value else file.placed place := by
  unfold placed setPc
  split_ifs <;> first | rfl | omega

end

theorem general_setPc (file : RegisterFile) (value : Word) :
    (file.setPc value).general = file.general.set 30 value := by
  refine Vector.ext fun place hp => ?_
  rw [Vector.getElem_set, getElem_general, getElem_general]
  exact placed_setPc _ _ _ hp

/-- A write changes the place that the number names. -/
theorem general_write (file : RegisterFile) (bank : Bank) (number : Nat) (value : Word) :
    (file.write bank number value).general = file.general.set (bank.physical number) value := by
  refine Vector.ext fun place hp => ?_
  rw [Vector.getElem_set, getElem_general, getElem_general]
  simp only [Bank.val_physical]
  unfold write
  by_cases h8 : number < 8
  · simp only [dif_pos h8, if_pos h8]
    exact placed_set_low _ _ _ h8
  by_cases h13 : number < 13
  · simp only [dif_neg h8, if_neg h8, dif_pos h13, if_pos h13]
    by_cases hb : bank = .fiq
    · simp only [if_pos hb, placed_set_highFiq]
      exact if_congr (by omega) rfl rfl
    · simp only [if_neg hb, placed_set_highUser]
      exact if_congr (by omega) rfl rfl
  by_cases h15 : number < 15
  · simp only [dif_neg h8, if_neg h8, dif_neg h13, if_neg h13, dif_pos h15, if_pos h15]
    exact placed_set_spLr _ _ _ _ _ hp
  · simp only [dif_neg h8, if_neg h8, dif_neg h13, if_neg h13, dif_neg h15, if_neg h15]
    exact placed_setPc _ _ _ hp

/-- A write leaves the saved status words and the bank in view. -/
@[simp] theorem saved_write (file : RegisterFile) (bank : Bank) (number : Nat) (value : Word) :
    (file.write bank number value).saved = file.saved := by
  unfold write
  split_ifs <;> rfl

@[simp] theorem bank_write (file : RegisterFile) (bank : Bank) (number : Nat) (value : Word) :
    (file.write bank number value).bank = file.bank := by
  unfold write
  split_ifs <;> rfl

@[simp] theorem savedStatus_write (file : RegisterFile) (bank : Bank) (number : Nat)
    (value : Word) : (file.write bank number value).savedStatus = file.savedStatus := by
  unfold savedStatus
  simp only [saved_write, bank_write]

/-- The saved status words have no part in a write. -/
theorem write_with_saved (file : RegisterFile) (words : Vector Word 6) (bank : Bank)
    (number : Nat) (value : Word) :
    ({ file with saved := words }).write bank number value =
      { file.write bank number value with saved := words } := by
  unfold write
  split_ifs <;> rfl

/-- A write is seen through every name of the register it wrote, and through no other. -/
theorem read_write (file : RegisterFile) (bank other : Bank) (number wanted : Nat)
    (value : Word) :
    (file.write bank number value).read other wanted =
      if other.physical wanted = bank.physical number then value
      else file.read other wanted := by
  simp only [read_eq_general, general_write, Fin.getElem_fin, Vector.getElem_set, Fin.ext_iff,
    eq_comm]

/-! ## Extensionality -/

/-- A file is its registers, its saved status words and the bank in view. -/
theorem ext_general {a b : RegisterFile} (hg : a.general = b.general) (hs : a.saved = b.saved)
    (hb : a.bank = b.bank) : a = b := by
  have hplaced (place : Nat) (h : place < 31) : a.placed place = b.placed place := by
    rw [← getElem_general a h, ← getElem_general b h]
    simp only [hg]
  have hlow : a.low = b.low := by
    refine Vector.ext fun number hn => ?_
    rw [← placed_low a hn, ← placed_low b hn]
    exact hplaced _ (by omega)
  have huser : a.highUser = b.highUser := by
    refine Vector.ext fun number hn => ?_
    rw [← placed_highUser a hn, ← placed_highUser b hn]
    exact hplaced _ (by omega)
  have hfiq : a.highFiq = b.highFiq := by
    refine Vector.ext fun number hn => ?_
    rw [← placed_highFiq a hn, ← placed_highFiq b hn]
    exact hplaced _ (by omega)
  have hrow : a.spLr = b.spLr := by
    refine Vector.ext fun row hr => Vector.ext fun column hc => ?_
    rw [← placed_row a hr hc, ← placed_row b hr hc]
    exact hplaced _ (by omega)
  have hpc : a.pc = b.pc := hplaced 30 (by omega)
  cases a
  cases b
  simp_all

end RegisterFile

end Handheld
