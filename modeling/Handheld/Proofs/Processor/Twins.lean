import Handheld.Proofs.Processor.Recorded
import Handheld.Proofs.Processor.State
import Handheld.Proofs.Processor.Status

/-!
# Instructions that do not see the program counter

Both instruction sets are read into one language, but the program counter is not as far ahead in
the one as in the other. Most instructions do not see it, and they do the same in both.

1. `Twins` are two processors that differ at most in what such an instruction does not see, and
   `Instruction.Portable` are these instructions.
2. `execute_twins` says that a portable instruction leaves twins, with the same accesses over the
   bus and for the same cycles. Block transfers are by induction over their list.
-/

namespace Handheld

/-! ## What is seen of a processor -/

namespace Processor

/-- Two processors with the same registers apart from the program counter, the same flags and the
same cost of the last fetch. -/
structure Twins (p q : Processor) : Prop where
  get : ∀ register, register ≠ Register.pc → p.get register = q.get register
  flags : p.status.flags = q.status.flags
  fetchTiming : p.fetchTiming = q.fetchTiming

namespace Twins

variable {p q : Processor}

theorem getAhead (h : Twins p q) {register : Register} (hr : register ≠ Register.pc)
    (distance distance' : Word) :
    p.getAhead register distance = q.getAhead register distance' :=
  (if_neg hr).trans ((h.get register hr).trans (if_neg hr).symm)

theorem carry (h : Twins p q) : p.status.carry = q.status.carry :=
  congrArg Flags.c h.flags

theorem set (h : Twins p q) (register : Register) (value : Word) :
    Twins (p.set register value) (q.set register value) where
  get wanted hw := by
    rw [get_set, get_set, h.get wanted hw]
  flags := h.flags
  fetchTiming := h.fetchTiming

theorem setFlags (h : Twins p q) (flags : Flags) : Twins (p.setFlags flags) (q.setFlags flags) where
  get := h.get
  flags := (Status.flags_setFlags ..).trans (Status.flags_setFlags ..).symm
  fetchTiming := h.fetchTiming

theorem setNZ (h : Twins p q) (flags : Flags) :
    Twins { p with status := p.status.setNZ flags } { q with status := q.status.setNZ flags } := by
  rw [Status.setNZ_eq, Status.setNZ_eq, h.flags]
  exact h.setFlags _

end Twins

end Processor

/-- Two outcomes that are twins: the processors are, and the bus and the cycles are the same. -/
structure Outcome.Twins {β : Type} (a b : Outcome β) : Prop where
  processor : a.processor.Twins b.processor
  bus : a.bus = b.bus
  cycles : a.cycles = b.cycles

/-! ## What is seen by an instruction -/

/-- An operand that is not formed from the program counter. -/
def Operand.AvoidsPc : Operand → Prop
  | .rotated .. => True
  | .shifted register .. => register ≠ Register.pc
  | .shiftedBy register _ amount => register ≠ Register.pc ∧ amount ≠ Register.pc

/-- An instruction that computes, multiplies or transfers data without the program counter. -/
def Instruction.Portable : Instruction → Prop
  | .process _ _ destination first second =>
    destination ≠ Register.pc ∧ first ≠ Register.pc ∧ second.AvoidsPc
  | .multiply _ _ left right accumulator =>
    left ≠ Register.pc ∧ right ≠ Register.pc ∧ accumulator ≠ some Register.pc
  | .transfer moved indexing offset =>
    moved.register ≠ Register.pc ∧ indexing.base ≠ Register.pc ∧ offset.AvoidsPc
  | .blockTransfer _ list indexing userBank =>
    list ≠ 0 ∧ Register.pc ∉ registersOf list ∧ indexing.base ≠ Register.pc ∧ userBank = false
  | _ => False

namespace Processor

variable {β : Type} [Bus β] {p q : Processor}

theorem evaluate_twins (h : Twins p q) {operand : Operand} (ho : operand.AvoidsPc) :
    operand.evaluate p = operand.evaluate q := by
  unfold Operand.evaluate
  rw [h.carry]
  cases operand with
  | rotated => rfl
  | shifted register => simp only [h.get register ho]
  | shiftedBy register shift amount =>
    simp only [h.getAhead ho.1 p.width.bytes q.width.bytes,
      h.getAhead ho.2 p.width.bytes q.width.bytes]

theorem process_twins (h : Twins p q) (bus : β) (operation : Operation) (setFlags : Bool)
    {destination first : Register} {second : Operand} (hd : destination ≠ Register.pc)
    (hf : first ≠ Register.pc) (hs : second.AvoidsPc) :
    (p.process bus operation setFlags destination first second).Twins
      (q.process bus operation setFlags destination first second) := by
  unfold process
  simp only
  rw [if_neg hd, if_neg hd, ← evaluate_twins h hs, ← h.flags, ← h.fetchTiming,
    ← h.getAhead hf (second.distance p.width) (second.distance q.width)]
  generalize operation.compute _ _ _ _ = result
  have hset : Twins (if setFlags then p.setFlags result.flags else p)
      (if setFlags then q.setFlags result.flags else q) := by
    cases setFlags
    · exact h
    · exact h.setFlags _
  split
  · exact ⟨hset.set _ _, rfl, rfl⟩
  · exact ⟨hset, rfl, rfl⟩

theorem multiply_twins (h : Twins p q) (setFlags : Bool) (destination : Register)
    {left right : Register} {accumulator : Option Register} (hl : left ≠ Register.pc)
    (hr : right ≠ Register.pc) (ha : accumulator ≠ some Register.pc) :
    Twins (p.multiplyRegisters setFlags destination left right accumulator)
      (q.multiplyRegisters setFlags destination left right accumulator) := by
  have kept (result : Computed) :
      Twins
        (if setFlags then
          { p.set destination result.value with status := p.status.setNZ result.flags }
        else p.set destination result.value)
        (if setFlags then
          { q.set destination result.value with status := q.status.setNZ result.flags }
        else q.set destination result.value) := by
    cases setFlags
    · exact h.set _ _
    · exact (h.set _ _).setNZ _
  unfold multiplyRegisters
  rw [h.get left hl, h.get right hr, h.flags]
  cases accumulator with
  | none => exact kept _
  | some register =>
    simp only
    rw [h.get register fun he => ha (congrArg some he)]
    exact kept _

/-! ## Single transfers -/

theorem transfer_twins (h : Twins p q) (bus : β) (address : Word) {moved : Transfer}
    (hm : moved.register ≠ Register.pc) :
    (p.transfer bus address moved).Twins (q.transfer bus address moved) := by
  unfold transfer
  simp only
  rw [if_neg hm, if_neg hm, ← h.fetchTiming, ← h.getAhead hm p.width.bytes q.width.bytes]
  split
  · exact ⟨h.set _ _, rfl, rfl⟩
  · exact ⟨h, rfl, rfl⟩

theorem indexedTransfer_twins (h : Twins p q) (bus : β) {moved : Transfer} {indexing : Indexing}
    (offset : Word) (hm : moved.register ≠ Register.pc) (hb : indexing.base ≠ Register.pc) :
    (p.indexedTransfer bus moved indexing offset).Twins
      (q.indexedTransfer bus moved indexing offset) := by
  unfold indexedTransfer
  simp only
  rw [← h.get indexing.base hb]
  generalize (if indexing.up then _ else _ : Word) = shifted
  obtain ⟨hp, hbus, hcycles⟩ := transfer_twins h bus
    (if indexing.pre then shifted else p.get indexing.base) hm
  split
  · exact ⟨hp.set _ _, hbus, hcycles⟩
  · exact ⟨hp, hbus, hcycles⟩

/-! ## Block transfers -/

/-- One register of a list was moved alike: for the same cost, leaving twins and the same bus. -/
def ListedTwins (a b : Timing × Processor × β) : Prop :=
  a.1 = b.1 ∧ a.2.1.Twins b.2.1 ∧ a.2.2 = b.2.2

theorem loadListed_twins (h : Twins p q) (bus : β) (address : Word) (number : Register) :
    ListedTwins (p.loadListed bus address number false) (q.loadListed bus address number false) :=
  ⟨rfl, h.set _ _, rfl⟩

theorem storeListed_twins (h : Twins p q) (bus : β) (address : Word) {number : Register}
    (hn : number ≠ Register.pc) :
    ListedTwins (p.storeListed bus address number false)
      (q.storeListed bus address number false) := by
  unfold storeListed
  simp only
  rw [if_neg hn, if_neg hn, if_neg nofun, if_neg nofun, h.get number hn]
  exact ⟨rfl, h, rfl⟩

/-- By induction over the list: each register moved leaves twins. -/
theorem transferListed_twins (load : Bool) (pending : Option (Register × Word)) (first : Bool)
    {list : List Register} (hl : Register.pc ∉ list) (address : Word) {a b : Outcome β}
    (h : a.Twins b) :
    (transferListed load false pending first list address a).Twins
      (transferListed load false pending first list address b) := by
  induction list generalizing pending first address a b with
  | nil => exact h
  | cons number rest ih =>
    obtain ⟨p, bus, cycles⟩ := a
    obtain ⟨q, bus', cycles'⟩ := b
    have hp : p.Twins q := h.processor
    obtain rfl : bus = bus' := h.bus
    obtain rfl : cycles = cycles' := h.cycles
    obtain ⟨hn, hrest⟩ := not_or.mp (mt List.mem_cons.mpr hl)
    have hmoved : ListedTwins
        (if load then p.loadListed bus address number false
          else p.storeListed bus address number false)
        (if load then q.loadListed bus address number false
          else q.storeListed bus address number false) := by
      cases load
      · exact storeListed_twins hp bus address (Ne.symm hn)
      · exact loadListed_twins hp bus address number
    unfold transferListed
    generalize (if load then p.loadListed bus address number false
      else p.storeListed bus address number false) = a at hmoved ⊢
    generalize (if load then q.loadListed bus address number false
      else q.storeListed bus address number false) = b at hmoved ⊢
    obtain ⟨timing, p', bus'⟩ := a
    obtain ⟨timing', q', bus''⟩ := b
    obtain ⟨htiming, hp', hbus⟩ := hmoved
    cases htiming
    cases hbus
    refine ih none false hrest (address + 4) ⟨?_, rfl, rfl⟩
    cases pending with
    | none => exact hp'
    | some pending => exact hp'.set _ _

theorem blockTransfer_twins (h : Twins p q) (bus : β) (load : Bool) {list : UInt16}
    {indexing : Indexing} (hl : list ≠ 0) (hpc : Register.pc ∉ registersOf list)
    (hb : indexing.base ≠ Register.pc) :
    (p.blockTransfer bus load list indexing false).Twins
      (q.blockTransfer bus load list indexing false) := by
  have hcontains : (load && (registersOf list).contains Register.pc) = false := by
    simp [hpc]
  unfold blockTransfer
  simp only [if_neg hl, hcontains, Bool.false_eq_true, if_false]
  rw [← h.get indexing.base hb, ← h.fetchTiming]
  exact transferListed_twins load _ true hpc _ ⟨h, rfl, rfl⟩

/-- **Portable instructions.** Twins that execute a portable instruction over the same bus stay
twins, leave the same bus and take the same cycles. -/
theorem execute_twins (h : Twins p q) (bus : β) {i : Instruction} (hi : i.Portable) :
    (p.execute bus i).Twins (q.execute bus i) := by
  cases i with
  | process operation setFlags destination first second =>
    exact process_twins h bus operation setFlags hi.1 hi.2.1 hi.2.2
  | multiply setFlags destination left right accumulator =>
    obtain ⟨hl, hr, ha⟩ := hi
    refine ⟨multiply_twins h setFlags destination hl hr ha, rfl, ?_⟩
    show Cost.multiply p.fetchTiming (p.get right) _ = Cost.multiply q.fetchTiming (q.get right) _
    rw [h.fetchTiming, h.get right hr]
  | transfer moved indexing offset =>
    obtain ⟨hm, hb, ho⟩ := hi
    show (p.indexedTransfer bus moved indexing (offset.evaluate p).value).Twins
      (q.indexedTransfer bus moved indexing (offset.evaluate q).value)
    rw [← evaluate_twins h ho]
    exact indexedTransfer_twins h bus _ hm hb
  | blockTransfer load list indexing userBank =>
    obtain ⟨hl, hpc, hb, rfl⟩ := hi
    exact blockTransfer_twins h bus load hl hpc hb
  | _ => exact absurd hi id

end Processor

end Handheld
