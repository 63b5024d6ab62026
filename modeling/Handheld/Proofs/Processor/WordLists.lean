import Handheld.Processor.Transfer
import Handheld.Proofs.Processor.Recorded
import Handheld.Proofs.Processor.Rewriting

/-!
# Lists of words

A block transfer reads or writes one word after the other at ascending addresses. Apart from the
registers it is two functions on the bus alone.

1. `readWords` and `writeWords` are these, and `wordAccesses` is the record of what they do.
2. `listedCost` is what their accesses add to the cost. Where all accesses cost the same, as
   `Charges` says, `listedCost_replicate` sums it up.
3. `transferListed_load` and `transferListed_store` take a transfer of listed registers apart into
   its accesses and the registers that it writes.
-/

namespace Handheld

variable {β : Type} [Bus β]

/-! ## Accesses -/

/-- Read words at ascending addresses. -/
def readWords (bus : β) (address : Word) : Nat → List Read × β
  | 0 => ([], bus)
  | count + 1 =>
    let one := Bus.read bus (Width.word.align address) .word
    let rest := readWords one.2 (address + 4) count
    (one.1 :: rest.1, rest.2)

/-- Write words at ascending addresses. -/
def writeWords (bus : β) (address : Word) : List Word → List Timing × β
  | [] => ([], bus)
  | value :: values =>
    let one := Bus.write bus (Width.word.align address) value .word
    let rest := writeWords one.2 (address + 4) values
    (one.1 :: rest.1, rest.2)

/-- The accesses that move words to or from ascending addresses. -/
def wordAccesses (load : Bool) (address : Word) (values : List Word) : List Access :=
  values.mapIdx fun place value =>
    let address := Width.word.align (address + UInt32.ofNat (4 * place))
    if load then .read address .word value else .write address value .word

theorem wordAccesses_cons (load : Bool) (address value : Word) (values : List Word) :
    wordAccesses load address (value :: values) =
      (if load then .read (Width.word.align address) .word value
        else .write (Width.word.align address) value .word) ::
          wordAccesses load (address + 4) values := by
  have hnext (place : Nat) : address + UInt32.ofNat (4 * (place + 1)) =
      address + 4 + UInt32.ofNat (4 * place) := by
    rw [Nat.mul_add, UInt32.ofNat_add, UInt32.add_comm (UInt32.ofNat _), UInt32.add_assoc]
    rfl
  have hfirst : address + UInt32.ofNat (4 * 0) = address := UInt32.add_zero address
  unfold wordAccesses
  rw [List.mapIdx_cons]
  simp only [hnext, hfirst]

theorem accesses_readWords (count : Nat) :
    ∀ (bus : Recorded β) (address : Word),
      (readWords bus address count).2.accesses.reverse = bus.accesses.reverse ++
        wordAccesses true address ((readWords bus address count).1.map Read.data) := by
  induction count with
  | zero => exact fun bus _ => (List.append_nil _).symm
  | succ count ih =>
    intro bus address
    refine (ih _ (address + 4)).trans ?_
    rw [readWords, List.map_cons, wordAccesses_cons]
    simp [Bus.read]

theorem accesses_writeWords (values : List Word) :
    ∀ (bus : Recorded β) (address : Word),
      (writeWords bus address values).2.accesses.reverse =
        bus.accesses.reverse ++ wordAccesses false address values := by
  induction values with
  | nil => exact fun bus _ => (List.append_nil _).symm
  | cons value values ih =>
    intro bus address
    refine (ih _ (address + 4)).trans ?_
    rw [wordAccesses_cons]
    simp [Bus.write]

/-! ## Costs -/

/-- What the words of a list add to the cost of a block transfer. -/
def listedCost (first : Bool) : List Timing → UInt32
  | [] => 0
  | timing :: rest => Cost.blockWord timing first + listedCost false rest

theorem listedCost_replicate (timing : Timing) (count : Nat) :
    listedCost true (List.replicate (count + 1) timing) =
      timing.nonseq + UInt32.ofNat (2 * count + 1) * timing.seq := by
  have hrest : listedCost false (List.replicate count timing) =
      UInt32.ofNat (2 * count) * timing.seq := by
    induction count with
    | zero => exact (UInt32.zero_mul).symm
    | succ count ih =>
      have hcount : UInt32.ofNat (2 * (count + 1)) = UInt32.ofNat (2 * count) + 2 :=
        UInt32.ofNat_add ..
      rw [List.replicate_succ, listedCost, ih, hcount, UInt32.add_mul, UInt32.two_mul,
        UInt32.add_comm]
      rfl
  have hcount : UInt32.ofNat (2 * count + 1) = UInt32.ofNat (2 * count) + 1 :=
    UInt32.ofNat_add ..
  rw [List.replicate_succ, listedCost, hrest, hcount, UInt32.add_mul, UInt32.one_mul,
    UInt32.add_comm _ timing.seq, ← UInt32.add_assoc]
  rfl

/-- While a bus has a property, which every access keeps, every access costs the same. -/
structure Charges (J : β → Prop) (timing : Timing) : Prop extends BusKeeps J where
  read_timing : ∀ {bus : β}, J bus → ∀ address width,
    (Bus.read bus address width).1.timing = timing
  write_timing : ∀ {bus : β}, J bus → ∀ address value width,
    (Bus.write bus address value width).1 = timing
  fetch_timing : ∀ {bus : β}, J bus → ∀ address width,
    (Bus.fetch bus address width).1.timing = timing

namespace Charges

variable {J : β → Prop} {timing : Timing} (hJ : Charges J timing)
include hJ

theorem readWords (count : Nat) : ∀ {bus : β} (_ : J bus) (address : Word),
    (readWords bus address count).1.map Read.timing = List.replicate count timing ∧
      J (Handheld.readWords bus address count).2 := by
  induction count with
  | zero => exact fun h _ => ⟨rfl, h⟩
  | succ count ih =>
    intro bus h address
    obtain ⟨hrest, hafter⟩ := ih (hJ.read h (Width.word.align address) .word) (address + 4)
    exact ⟨congrArg₂ List.cons (hJ.read_timing h _ _) hrest, hafter⟩

theorem writeWords (values : List Word) : ∀ {bus : β} (_ : J bus) (address : Word),
    (writeWords bus address values).1 = List.replicate values.length timing ∧
      J (Handheld.writeWords bus address values).2 := by
  induction values with
  | nil => exact fun h _ => ⟨rfl, h⟩
  | cons value values ih =>
    intro bus h address
    obtain ⟨hrest, hafter⟩ := ih (hJ.write h (Width.word.align address) value .word) (address + 4)
    exact ⟨congrArg₂ List.cons (hJ.write_timing h _ _ _) hrest, hafter⟩

theorem refill {bus : β} (h : J bus) (p : Processor) (address : Word) :
    (p.refill bus address).cycles = timing.nonseq + timing.seq :=
  congrArg₂ (fun first second : Timing => first.nonseq + second.seq) (hJ.fetch_timing h _ _)
    (hJ.fetch_timing (hJ.fetch h _ _) _ _)

end Charges

/-! ## Listed registers -/

namespace Processor

/-- The processor after a pending write-back of a base. -/
def writtenBack (p : Processor) : Option (Register × Word) → Processor
  | some (base, moved) => p.set base moved
  | none => p

/-- The register that a pending write-back writes. -/
def backWrites (pending : Option (Register × Word)) (register : Register) : Option Word :=
  pending.bind fun back => if register = back.1 then some back.2 else none

omit [Bus β] in
theorem rewritten_writtenBack (p : Processor) (pending : Option (Register × Word)) :
    Rewritten (backWrites pending) p (p.writtenBack pending) := by
  cases pending with
  | none => exact rewritten_refl p
  | some back => exact rewritten_set p back.1 back.2

variable (pending : Option (Register × Word)) (first : Bool) (number : Register)
  (rest : List Register) (address : Word) (p : Processor) (bus : β) (cycles : UInt32)

/-- A load of a list reads one word, and goes on with the rest at the next address. -/
theorem transferListed_load_cons :
    let one := Bus.read bus (Width.word.align address) .word
    transferListed true false pending first (number :: rest) address ⟨p, bus, cycles⟩ =
      transferListed true false none false rest (address + 4)
        ⟨(p.set number one.1.data).writtenBack pending, one.2,
          cycles + Cost.blockWord one.1.timing first⟩ := by
  intro one
  have hdata : extend address .word false false one.1.data = one.1.data := UInt32.and_neg_one
  rw [← hdata]
  cases pending <;> rfl

/-- A store of a list writes one word, and goes on with the rest at the next address. -/
theorem transferListed_store_cons :
    let one := Bus.write bus (Width.word.align address) (p.getAhead number p.width.bytes) .word
    transferListed false false pending first (number :: rest) address ⟨p, bus, cycles⟩ =
      transferListed false false none false rest (address + 4)
        ⟨p.writtenBack pending, one.2, cycles + Cost.blockWord one.1 first⟩ := by
  intro one
  have hvalue : (if number = Register.pc then p.getAhead Register.pc p.width.bytes
      else p.get number) &&& Width.word.mask = p.getAhead number p.width.bytes := by
    refine UInt32.and_neg_one.trans ?_
    by_cases hn : number = Register.pc
    · rw [if_pos hn, hn]
    · rw [if_neg hn]
      exact (if_neg hn).symm
  have hone : Bus.write bus (Width.word.align address)
      ((if number = Register.pc then p.getAhead Register.pc p.width.bytes
        else p.get number) &&& Width.word.mask) .word = one := by
    rw [hvalue]
  rw [← hone]
  cases pending <;> rfl

/-- A load puts the words that it reads into the registers, each into its own. A pending write-back
does not reach them. -/
theorem transferListed_load {registers : List Register} (hr : registers.Nodup) :
    ∀ (pending : Option (Register × Word)) (first : Bool) (address : Word) (p : Processor)
      (bus : β) (cycles : UInt32), (∀ back ∈ pending, registers ≠ [] ∧ back.1 ∉ registers) →
      ∃ (word : Register → Word) (q : Processor),
        transferListed true false pending first registers address ⟨p, bus, cycles⟩ =
          ⟨q, (readWords bus address registers.length).2,
            cycles + listedCost first
              ((readWords bus address registers.length).1.map Read.timing)⟩ ∧
        registers.map word = (readWords bus address registers.length).1.map Read.data ∧
        Rewritten (fun register =>
          if register ∈ registers then some (word register) else backWrites pending register)
          p q := by
  induction registers with
  | nil =>
    intro pending first address p bus cycles hp
    cases pending with
    | none =>
      have hcost : cycles + listedCost first [] = cycles := UInt32.add_zero cycles
      refine ⟨fun _ => 0, p, ?_, rfl, rewritten_refl p⟩
      show Outcome.mk p bus cycles = ⟨p, bus, cycles + listedCost first []⟩
      rw [hcost]
    | some back => exact absurd rfl (hp back rfl).1
  | cons number rest ih =>
    intro pending first address p bus cycles hp
    obtain ⟨hnumber, hrest⟩ := List.nodup_cons.mp hr
    let one := Bus.read bus (Width.word.align address) .word
    obtain ⟨word, q, hq, hword, hwrites⟩ := ih hrest none false (address + 4)
      ((p.set number one.1.data).writtenBack pending) one.2
      (cycles + Cost.blockWord one.1.timing first) (by simp)
    refine ⟨fun register => if register = number then one.1.data else word register, q, ?_, ?_,
      (((rewritten_set p number one.1.data).trans (rewritten_writtenBack _ pending)).trans
        hwrites).congr fun register => ?_⟩
    · rw [transferListed_load_cons]
      exact hq.trans (congrArg (Outcome.mk q _) (UInt32.add_assoc ..))
    · show (if number = number then one.1.data else word number) :: _ = one.1.data :: _
      rw [if_pos rfl, ← hword]
      refine congrArg (one.1.data :: ·) (List.map_congr_left fun register hm => if_neg ?_)
      rintro rfl
      exact hnumber hm
    · have hnone : backWrites none register = none := rfl
      by_cases hm : register ∈ rest
      · have hne : register ≠ number := by
          rintro rfl
          exact hnumber hm
        simp [hm, hne]
      · by_cases he : register = number
        · subst he
          have hback : backWrites pending register = none := by
            cases pending with
            | none => rfl
            | some back => exact if_neg fun he => (hp back rfl).2 (by simp [he])
          simp [hm, hback, hnone]
        · simp [hm, he, hnone]

/-- A store leaves the registers alone. It writes what they show, the program counter further
ahead. -/
theorem transferListed_store (registers : List Register) :
    ∀ (first : Bool) (address : Word) (p : Processor) (bus : β) (cycles : UInt32),
      transferListed false false none first registers address ⟨p, bus, cycles⟩ =
        ⟨p, (writeWords bus address (registers.map (p.getAhead · p.width.bytes))).2,
          cycles + listedCost first
            (writeWords bus address (registers.map (p.getAhead · p.width.bytes))).1⟩ := by
  induction registers with
  | nil => exact fun _ _ p bus cycles => congrArg (Outcome.mk p bus) (UInt32.add_zero cycles).symm
  | cons number rest ih =>
    intro first address p bus cycles
    rw [transferListed_store_cons]
    refine (ih false (address + 4) p _ _).trans ?_
    exact congrArg (Outcome.mk p _) (UInt32.add_assoc ..)

end Processor

end Handheld
