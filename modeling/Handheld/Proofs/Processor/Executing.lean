import Handheld.Proofs.Processor.Coherence
import Handheld.Proofs.Processor.Rewriting
import Handheld.Proofs.Processor.Shifting

/-!
# Executing one opcode

What an opcode at an address sees of the registers, and what it leaves of them.

1. `seen` is a register as the next opcode sees it: the program counter reads ahead of the address.
   `Operand.result` is what a second operand is worth there, in integers (`evaluate_advance`).
2. `Wrote` says which registers of the bank in view were written, whatever bank is in view
   afterwards, and that all other storage is as it was.
3. `Refilled` is a pipeline that was restarted at an address (`refill_refilled`).
-/

namespace Handheld

/-! ## Operands -/

namespace Operand

/-- How far beyond the address of its instruction the program counter reads: two instructions, or
three where a register is shifted by another. -/
def ahead : Operand → Word
  | .shiftedBy .. => 12
  | _ => 8

/-- What an operand is worth where registers read as they do. Of a register that a shift takes its
amount from, only the low byte counts. -/
def result (operand : Operand) (read : Register → Word) (carry : Bool) : Shifted :=
  match operand with
  | .rotated constant amount => Shift.ror.result constant amount.toNat carry
  | .shifted register shift amount => shift.fieldResult (read register) amount.toNat carry
  | .shiftedBy register shift amount =>
    shift.result (read register) ((read amount).toNat % 2 ^ 8) carry

end Operand

namespace Processor

variable {β : Type} [Bus β]

/-- A register as the instruction about to execute sees it: the program counter reads some distance
beyond the address of that instruction. -/
def seen (p : Processor) (distance : Word) (register : Register) : Word :=
  if register = Register.pc then p.nextPc + distance else p.get register

theorem getAhead_advance {p : Processor} (ht : p.thumb = false) (bus : β) (register : Register)
    (distance : Word) :
    (p.advance bus).1.getAhead register distance = p.seen (8 + distance) register := by
  unfold getAhead seen
  split
  · have hpc : (p.advance bus).1.pc = p.nextPc + 8 := by
      have hn : p.nextPc = p.pc - p.width.bytes := rfl
      rw [pc_advance, hn, width_of_arm ht]
      show p.pc + 4 = p.pc - 4 + 8
      grind
    show (p.advance bus).1.pc + distance = _
    rw [hpc, UInt32.add_assoc]
  · exact get_advance p bus ‹_›

theorem get_advance_eq {p : Processor} (ht : p.thumb = false) (bus : β) (register : Register) :
    (p.advance bus).1.get register = p.seen 8 register := by
  rw [← getAhead_zero, getAhead_advance ht]
  rfl

theorem width_advance {p : Processor} (ht : p.thumb = false) (bus : β) :
    (p.advance bus).1.width = .word :=
  width_of_arm ht

/-- An operand is worth what its registers make of it, as integers. -/
theorem evaluate_advance {p : Processor} (ht : p.thumb = false) (bus : β) (operand : Operand) :
    operand.evaluate (p.advance bus).1 = operand.result (p.seen operand.ahead) p.status.carry := by
  unfold Operand.evaluate Operand.result
  cases operand with
  | rotated constant amount => exact Shift.byAmount_eq _ .ror constant amount
  | shifted register shift amount =>
    simp only
    rw [get_advance_eq ht]
    exact Shift.byImmediate_eq ..
  | shiftedBy register shift amount =>
    have hbyte (w : Word) : (w &&& 0xFF).toNat = w.toNat % 2 ^ 8 := by
      rw [UInt32.toNat_and]
      exact Nat.and_two_pow_sub_one_eq_mod _ 8
    simp only
    rw [width_advance ht, getAhead_advance ht, getAhead_advance ht, Shift.byAmount_eq, hbyte]
    rfl

/-! ## Registers written -/

/-- Of the registers that the bank of `p` shows, those of a partial map have been written. All other
storage but the program counter is as it was. -/
structure Wrote (writes : Register → Option Word) (p q : Processor) : Prop where
  read : ∀ register, register ≠ Register.pc →
    q.registers.read p.registers.bank register.val = (writes register).getD (p.get register)
  general : ∀ place : Fin 31, place ≠ 30 →
    (∀ register, writes register ≠ none → p.registers.bank.physical register.val ≠ place) →
      q.registers.general.get place = p.registers.general.get place
  saved : q.registers.saved = p.registers.saved

theorem wrote_advance (p : Processor) (bus : β) : Wrote (fun _ => none) p (p.advance bus).1 where
  read _ hr := get_advance p bus hr
  general _ hp _ := RegisterFile.general_setPc_of_ne _ _ hp
  saved := rfl

namespace Wrote

variable {writes : Register → Option Word} {p q r : Processor}

/-- Only the storage apart from the program counter counts. -/
theorem congr (h : Wrote writes p q)
    (hg : ∀ place : Fin 31, place ≠ 30 →
      r.registers.general.get place = q.registers.general.get place)
    (hs : r.registers.saved = q.registers.saved) : Wrote writes p r where
  read register hr :=
    (RegisterFile.read_congr (hg _ (Bank.physical_ne_pc _ hr))).trans (h.read register hr)
  general place hp hw := (hg place hp).trans (h.general place hp hw)
  saved := hs.trans h.saved

/-- The program counter is left out. -/
theorem congr_writes {other : Register → Option Word} (h : Wrote writes p q)
    (hw : ∀ register, register ≠ Register.pc → other register = writes register) :
    Wrote other p q where
  read register hr := by
    rw [hw register hr]
    exact h.read register hr
  general place hp hplace := by
    refine h.general place hp fun register hn => ?_
    by_cases hr : register = Register.pc
    · rw [hr]
      exact hp.symm
    · exact hplace register (hw register hr ▸ hn)
  saved := h.saved

/-- Registers that are written afterwards win. -/
theorem rewritten {later : Register → Option Word} (h : Wrote writes p q)
    (hb : q.registers.bank = p.registers.bank) (h' : Rewritten later q r) :
    Wrote (fun register => (later register).or (writes register)) p r where
  read register hr := by
    have hread : r.registers.read p.registers.bank register.val =
        (later register).getD (q.get register) := by
      rw [← h'.get, ← hb, ← h'.bank]
      rfl
    rw [hread]
    cases later register with
    | some value => rfl
    | none =>
      rw [Option.none_or, ← h.read register hr, ← hb]
      rfl
  general place hp hw := by
    have hlater : r.registers.general.get place = q.registers.general.get place := by
      refine h'.general place fun register hl => ?_
      rw [hb]
      exact hw register fun hn => hl (Option.or_eq_none_iff.mp hn).1
    refine hlater.trans (h.general place hp fun register hn => hw register fun hor => ?_)
    exact hn (Option.or_eq_none_iff.mp hor).2
  saved := h'.saved.trans h.saved

theorem set (h : Wrote writes p q) (hb : q.registers.bank = p.registers.bank) (register : Register)
    (value : Word) :
    Wrote (fun wanted => if wanted = register then some value else writes wanted) p
      (q.set register value) :=
  (h.rewritten hb (rewritten_set q register value)).congr_writes fun wanted _ => by
    split <;> rfl

end Wrote

/-! ## The pipeline -/

/-- The pipeline holds the first two opcodes from an address on, fetched over a bus as it was
before. -/
structure Refilled (bus : β) (target : Word) (q : Processor) : Prop where
  nextPc : q.nextPc = target
  decoded : q.pipeline.decoded = (Bus.fetch bus target q.width).1.data &&& q.width.mask
  fetched : q.pipeline.fetched =
    (Bus.fetch (Bus.fetch bus target q.width).2 (target + q.width.bytes) q.width).1.data &&&
      q.width.mask

theorem refill_refilled (p : Processor) (bus : β) (address : Word) :
    Refilled bus (p.width.align address) (p.refill bus address).processor where
  nextPc := nextPc_refill p bus address
  decoded := rfl
  fetched := rfl

theorem Refilled.congr {bus : β} {target : Word} {q r : Processor} (h : Refilled bus target q)
    (hpc : r.pc = q.pc) (ht : r.thumb = q.thumb) (hs : r.pipeline = q.pipeline) :
    Refilled bus target r := by
  have hw : r.width = q.width := width_congr ht
  refine ⟨?_, ?_, ?_⟩
  · show r.pc - r.width.bytes = target
    rw [hpc, hw]
    exact h.nextPc
  · rw [hs, hw]
    exact h.decoded
  · rw [hs, hw]
    exact h.fetched

theorem general_refill (p : Processor) (bus : β) (address : Word) {place : Fin 31}
    (h : place ≠ 30) :
    (p.refill bus address).processor.registers.general.get place =
      p.registers.general.get place :=
  RegisterFile.general_setPc_of_ne _ _ h

end Processor

end Handheld
