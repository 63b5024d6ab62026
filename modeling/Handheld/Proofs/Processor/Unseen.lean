import Handheld.Proofs.Processor.Cost
import Handheld.Proofs.Processor.Exceptions
import Handheld.Proofs.Processor.Retiming

/-!
# What instructions do not see

The count of cycles is there for a host, the cost of the last opcode fetch is replaced by the next
one, and the register file has room for a saved status word of user mode, which has none. The
processor goes the same way whatever these hold, as long as no instruction names the saved status
word of a bank in which it was changed.

1. `Processor.revise` changes the saved status words and the count, and `Spares` says that the
   change does not show in a bank.
2. `execute_revise` says that an instruction commutes with it, by one lemma for each function below
   it; `step_revise` and its neighbours carry that over to the entry points.
3. `Processor.Aged` relates processors that differ in the count and in the cost of their last fetch,
   and `Command.run_aged` says that they go the same way.
-/

namespace Handheld

/-- A change of the saved status words that cannot be told from none in a bank. -/
structure Spares (change : Vector Word 6 → Vector Word 6) (bank : Bank) : Prop where
  get : ∀ saved : Vector Word 6, (change saved).get bank.index = saved.get bank.index
  set : ∀ (saved : Vector Word 6) (value : Word),
    change (saved.set bank.index.val value bank.index.isLt) =
      (change saved).set bank.index.val value bank.index.isLt

theorem Spares.id (bank : Bank) : Spares id bank := ⟨fun _ => rfl, fun _ _ => rfl⟩

/-- An instruction that names the saved status word of the bank in view. -/
def Instruction.NamesSaved : Instruction → Prop
  | readStatus true _ => True
  | writeStatus true _ _ => True
  | _ => False

/-- The processor with its saved status words changed, and another count of cycles. -/
def Processor.revise (change : Vector Word 6 → Vector Word 6) (count : Nat) (p : Processor) :
    Processor :=
  { p with
    registers := { p.registers with saved := change p.registers.saved }
    cycles := count }

/-- The same outcome for a processor revised. -/
def Outcome.revise {β : Type} (change : Vector Word 6 → Vector Word 6) (count : Nat)
    (outcome : Outcome β) : Outcome β :=
  { outcome with processor := outcome.processor.revise change count }

namespace Processor

variable {change : Vector Word 6 → Vector Word 6} {count : Nat} (p : Processor)

/-! ## Views and changes -/

theorem set_revise (register : Register) (value : Word) :
    (p.revise change count).set register value = (p.set register value).revise change count := by
  have hfile : ({ p.registers with saved := change p.registers.saved }).set register.val value =
      { p.registers.set register.val value with
        saved := change (p.registers.set register.val value).saved } := by
    unfold RegisterFile.set
    rw [RegisterFile.write_with_saved, RegisterFile.saved_write]
  exact congrArg (fun file => ({ p with registers := file, cycles := count } : Processor)) hfile

theorem setUser_revise (register : Register) (value : Word) :
    (p.revise change count).setUser register value =
      (p.setUser register value).revise change count := by
  have hfile : ({ p.registers with saved := change p.registers.saved }).setUser register.val
        value =
      { p.registers.setUser register.val value with
        saved := change (p.registers.setUser register.val value).saved } := by
    unfold RegisterFile.setUser
    rw [RegisterFile.write_with_saved, RegisterFile.saved_write]
  exact congrArg (fun file => ({ p with registers := file, cycles := count } : Processor)) hfile

theorem setFlagsIf_revise (on : Bool) (flags : Flags) :
    (if on then (p.revise change count).setFlags flags else p.revise change count) =
      (if on then p.setFlags flags else p).revise change count := by
  cases on <;> rfl

theorem writeStatus_revise (bits : Word) :
    (p.revise change count).writeStatus bits = (p.writeStatus bits).revise change count := by
  unfold writeStatus
  cases Mode.ofBits? bits with
  | none => rfl
  | some mode => rfl

/-- User mode has no saved status word to restore, so its bank need not be spared. -/
theorem restoreStatus_revise (hc : ∀ bank, bank ≠ .user → Spares change bank) :
    (p.revise change count).restoreStatus = p.restoreStatus.revise change count := by
  have hs : (p.revise change count).registers.hasSavedStatus = p.registers.hasSavedStatus := rfl
  unfold restoreStatus
  rw [hs]
  split_ifs with h
  · have hb : p.registers.bank ≠ .user := bne_iff_ne.mp h
    have hv : (p.revise change count).registers.savedStatus = p.registers.savedStatus :=
      (hc _ hb).get p.registers.saved
    rw [hv]
    exact writeStatus_revise p _
  · rfl

theorem setSavedStatus_revise (h : Spares change p.registers.bank) (value : Word) :
    (p.revise change count).setSavedStatus value =
      (p.setSavedStatus value).revise change count :=
  congrArg (fun saved => ({ p with registers := { p.registers with saved }, cycles := count } :
    Processor)) (h.set p.registers.saved value).symm

variable {β : Type} [Bus β] (bus : β)

/-! ## The pipeline -/

theorem refill_revise (address : Word) :
    (p.revise change count).refill bus address = (p.refill bus address).revise change count := rfl

theorem branchLink_revise (address link : Word) :
    (p.revise change count).branchLink bus address link =
      (p.branchLink bus address link).revise change count := by
  unfold branchLink
  rw [set_revise, refill_revise]

theorem completePcWrite_revise (hc : ∀ bank, bank ≠ .user → Spares change bank) (restore : Bool) :
    (p.revise change count).completePcWrite bus restore =
      (p.completePcWrite bus restore).revise change count := by
  cases restore
  · rfl
  · show (p.revise change count).restoreStatus.refill bus
      (p.revise change count).restoreStatus.pc = _
    rw [restoreStatus_revise p hc]
    rfl

/-- Every exception is handled in a bank with a saved status word of its own. -/
theorem enterException_revise (hc : ∀ bank, bank ≠ .user → Spares change bank)
    (exception : Exception) :
    (p.revise change count).enterException bus exception =
      (p.enterException bus exception).revise change count := by
  have hsave := @setSavedStatus_revise change count
    { p.switchMode exception.entry.mode with
      status := ((p.switchMode exception.entry.mode).status.setThumb false).setBit
        exception.entry.mask true }
    (hc _ exception.bank_ne_user) p.status.bits
  refine (congrArg (fun q : Processor => (q.branchLink bus exception.entry.vector
    (p.nextPc + exception.entry.linkOffset)).costing exception.entry.extraCycles) hsave).trans ?_
  exact congrArg (Outcome.costing · exception.entry.extraCycles) (branchLink_revise _ bus _ _)

/-! ## Transfers -/

theorem transfer_revise (address : Word) (moved : Transfer) :
    (p.revise change count).transfer bus address moved =
      (p.transfer bus address moved).revise change count := by
  unfold transfer
  generalize loadValue bus address moved.width moved.realign moved.signed = loaded
  rcases loaded with ⟨answer, out⟩
  simp only [set_revise]
  split_ifs
  · rfl
  · rfl
  · rfl

theorem indexedTransfer_revise (moved : Transfer) (indexing : Indexing) (offset : Word) :
    (p.revise change count).indexedTransfer bus moved indexing offset =
      (p.indexedTransfer bus moved indexing offset).revise change count := by
  have hget : (p.revise change count).get indexing.base = p.get indexing.base := rfl
  unfold indexedTransfer
  simp only [hget, transfer_revise]
  generalize (if indexing.up then p.get indexing.base + offset
    else p.get indexing.base - offset) = shifted
  generalize p.transfer bus (if indexing.pre then shifted else p.get indexing.base) moved = outcome
  split
  · exact congrArg (fun q => ({ outcome with processor := q } : Outcome β))
      (set_revise outcome.processor indexing.base shifted)
  · rfl

/-- Moving one register of a list. -/
theorem listed_revise (load user : Bool) (address : Word) (number : Register) :
    (if load then (p.revise change count).loadListed bus address number user
      else (p.revise change count).storeListed bus address number user) =
      (fun moved : Timing × Processor × β =>
        (moved.1, moved.2.1.revise change count, moved.2.2))
          (if load then p.loadListed bus address number user
            else p.storeListed bus address number user) := by
  cases load
  · cases user <;> rfl
  · simp only [if_true]
    unfold loadListed
    generalize loadValue bus address .word false false = loaded
    rcases loaded with ⟨answer, out⟩
    simp only [set_revise, setUser_revise]
    cases user <;> rfl

theorem transferListed_revise (load user : Bool) (list : List Register) :
    ∀ (pending : Option (Register × Word)) (first : Bool) (address : Word) (start : Outcome β),
      transferListed load user pending first list address (start.revise change count) =
        (transferListed load user pending first list address start).revise change count := by
  induction list with
  | nil => intro pending first address start; rfl
  | cons number rest ih =>
    intro pending first address start
    rcases start with ⟨p, bus, cycles⟩
    show transferListed load user pending first (number :: rest) address
      ⟨p.revise change count, bus, cycles⟩ = _
    unfold transferListed
    rw [listed_revise]
    generalize (if load then p.loadListed bus address number user
      else p.storeListed bus address number user) = moved
    rcases moved with ⟨timing, q, out⟩
    cases pending with
    | none => exact ih none false (address + 4) ⟨q, out, cycles + Cost.blockWord timing first⟩
    | some back =>
      simp only [set_revise]
      exact ih none false (address + 4)
        ⟨q.set back.1 back.2, out, cycles + Cost.blockWord timing first⟩

theorem blockTransfer_revise (hc : ∀ bank, bank ≠ .user → Spares change bank) (load : Bool)
    (list : UInt16) (indexing : Indexing) (userBank : Bool) :
    (p.revise change count).blockTransfer bus load list indexing userBank =
      (p.blockTransfer bus load list indexing userBank).revise change count := by
  have hget : (p.revise change count).get indexing.base = p.get indexing.base := rfl
  unfold blockTransfer
  simp -zeta only [hget]
  extract_lets registers distance base moved lowest start loadsPc writesBack there here
  have ho : there = here.revise change count :=
    transferListed_revise load _ registers _ true start ⟨p, bus, _⟩
  rw [ho]
  split_ifs
  · exact congrArg (Outcome.costing · here.cycles)
      (completePcWrite_revise here.processor here.bus hc userBank)
  · rfl

/-! ## Instructions -/

theorem process_revise (hc : ∀ bank, bank ≠ .user → Spares change bank) (operation : Operation)
    (setFlags : Bool) (destination first : Register) (second : Operand) :
    (p.revise change count).process bus operation setFlags destination first second =
      (p.process bus operation setFlags destination first second).revise change count := by
  unfold process
  extract_lets shifted left result cycles q r shifted' left' result' cycles' q' r'
  have hq : q = q'.revise change count := setFlagsIf_revise p setFlags result'.flags
  have hr : r = r'.revise change count := by
    show q.set destination result'.value = _
    rw [hq, set_revise]
  rw [hr, hq]
  split_ifs
  · exact congrArg (Outcome.costing · cycles) (completePcWrite_revise r' bus hc setFlags)
  · rfl
  · rfl

theorem writeStatusWord_revise (saved : Bool) (mask value : Word)
    (h : saved = true → Spares change p.registers.bank) :
    (p.revise change count).writeStatusWord saved mask value =
      (p.writeStatusWord saved mask value).revise change count := by
  cases saved
  · exact writeStatus_revise p _
  · have hv : (p.revise change count).registers.savedStatus = p.registers.savedStatus :=
      (h rfl).get p.registers.saved
    unfold writeStatusWord
    rw [if_pos rfl, if_pos rfl, hv]
    exact setSavedStatus_revise p (h rfl) _

theorem readStatusWord_revise (saved : Bool) (destination : Register)
    (h : saved = true → Spares change p.registers.bank) :
    (p.revise change count).readStatusWord saved destination =
      (p.readStatusWord saved destination).revise change count := by
  cases saved
  · exact set_revise p destination p.status.bits
  · have hv : (p.revise change count).registers.savedStatus = p.registers.savedStatus :=
      (h rfl).get p.registers.saved
    unfold readStatusWord
    rw [if_pos rfl, if_pos rfl, hv, set_revise]

theorem multiplyRegisters_revise (setFlags : Bool) (destination left right : Register)
    (accumulator : Option Register) :
    (p.revise change count).multiplyRegisters setFlags destination left right accumulator =
      (p.multiplyRegisters setFlags destination left right accumulator).revise change count := by
  unfold multiplyRegisters
  simp only [set_revise]
  cases setFlags <;> rfl

theorem multiplyLongRegisters_revise (signed accumulate setFlags : Bool)
    (low high left right : Register) :
    (p.revise change count).multiplyLongRegisters signed accumulate setFlags low high left right =
      (p.multiplyLongRegisters signed accumulate setFlags low high left right).revise change
        count := by
  unfold multiplyLongRegisters
  simp only [set_revise]
  cases setFlags <;> rfl

theorem readCoprocessor_revise (destination : Register) :
    (p.revise change count).readCoprocessor destination =
      (p.readCoprocessor destination).revise change count := by
  unfold readCoprocessor
  split_ifs
  · rfl
  · exact set_revise p destination p.prefetched

theorem swap_revise (width : Width) (destination base source : Register) :
    (p.revise change count).swap bus width destination base source =
      (p.swap bus width destination base source).revise change count := by
  have hget (register : Register) :
      (p.revise change count).get register = p.get register := rfl
  unfold swap
  simp only [hget, set_revise]
  rfl

/-- An instruction commutes with a revision, unless it names a saved status word that was
changed. -/
theorem execute_revise (hc : ∀ bank, bank ≠ .user → Spares change bank) (i : Instruction)
    (hi : i.NamesSaved → Spares change p.registers.bank) :
    (p.revise change count).execute bus i = (p.execute bus i).revise change count := by
  cases i with
  | process operation setFlags destination first second =>
    exact process_revise p bus hc operation setFlags destination first second
  | readStatus saved destination =>
    have hs : saved = true → Spares change p.registers.bank := by
      rintro rfl
      exact hi trivial
    exact congrArg (Outcome.mk · bus p.fetchTiming.seq)
      (readStatusWord_revise p saved destination hs)
  | writeStatus saved mask source =>
    have hs : saved = true → Spares change p.registers.bank := by
      rintro rfl
      exact hi trivial
    exact congrArg (Outcome.mk · bus p.fetchTiming.seq)
      (writeStatusWord_revise p saved mask (source.evaluate p).value hs)
  | multiply setFlags destination left right accumulator =>
    exact congrArg
      (Outcome.mk · bus (Cost.multiply p.fetchTiming (p.get right) accumulator.isSome))
      (multiplyRegisters_revise p setFlags destination left right accumulator)
  | multiplyLong signed accumulate setFlags low high left right =>
    exact congrArg
      (Outcome.mk · bus (Cost.multiplyLong p.fetchTiming (p.get right) signed accumulate))
      (multiplyLongRegisters_revise p signed accumulate setFlags low high left right)
  | transfer moved indexing offset =>
    exact indexedTransfer_revise p bus moved indexing (offset.evaluate p).value
  | loadLiteral destination offset =>
    exact transfer_revise p bus (p.literalBase + offset) ⟨true, destination, .word, false, false⟩
  | blockTransfer load list indexing userBank =>
    exact blockTransfer_revise p bus hc load list indexing userBank
  | swap width destination base source => exact swap_revise p bus width destination base source
  | loadAddress destination offset =>
    exact congrArg (Outcome.mk · bus p.fetchTiming.seq)
      (set_revise p destination (p.literalBase + offset))
  | branch offset link =>
    cases link
    · rfl
    · exact congrArg (Outcome.costing · p.fetchTiming.seq)
        (branchLink_revise p bus (p.pc + offset) p.nextPc)
  | longBranchStart offset =>
    exact congrArg
      (fun q : Processor => (⟨{ q with locked := true }, bus, p.fetchTiming.seq⟩ : Outcome β))
      (set_revise p Register.lr (p.pc + offset))
  | longBranchEnd offset =>
    exact congrArg (Outcome.costing · p.fetchTiming.seq)
      (branchLink_revise p bus (p.get Register.lr + offset) (p.nextPc ||| 1))
  | softwareInterrupt =>
    exact congrArg (Outcome.costing · p.fetchTiming.seq)
      (enterException_revise p bus hc .softwareInterrupt)
  | undefined =>
    exact congrArg (Outcome.costing · p.fetchTiming.seq) (enterException_revise p bus hc .undefined)
  | readCoprocessor destination =>
    exact congrArg (Outcome.mk · bus (p.fetchTiming.seq + Cost.coprocessorRead))
      (readCoprocessor_revise p destination)
  | _ => rfl

/-! ## Entry points -/

theorem step_revise (hc : ∀ bank, bank ≠ .user → Spares change bank)
    (hi : ∀ i, p.Retires bus i → i.NamesSaved → Spares change p.registers.bank) :
    (p.revise change count).step bus =
      (p.step bus).revise change (count + (p.step bus).cycles.toNat) := by
  have hcurrent : ((p.advance bus).1.revise change count).executeCurrent (p.advance bus).2 =
      ((p.advance bus).1.executeCurrent (p.advance bus).2).revise change count := by
    have hn : ((p.advance bus).1.revise change count).current = (p.advance bus).1.current := rfl
    have hf : ((p.advance bus).1.revise change count).status = (p.advance bus).1.status := rfl
    rw [executeCurrent_eq, executeCurrent_eq, hn, hf]
    split_ifs with hholds
    · exact execute_revise _ _ hc _ (hi _ ⟨rfl, hholds⟩)
    · rfl
  exact congrArg Outcome.counted hcurrent

theorem requestInterrupt_revise (hc : ∀ bank, bank ≠ .user → Spares change bank) :
    (p.revise change count).requestInterrupt bus =
      (p.requestInterrupt bus).revise change (count + (p.requestInterrupt bus).cycles.toNat) := by
  have hr : ((p.revise change count).status.irqDisabled || (p.revise change count).locked) =
      (p.status.irqDisabled || p.locked) := rfl
  unfold requestInterrupt
  rw [hr]
  split_ifs
  · rfl
  · exact congrArg Outcome.counted (enterException_revise p bus hc .interrupt)

theorem requestFastInterrupt_revise (hc : ∀ bank, bank ≠ .user → Spares change bank) :
    (p.revise change count).requestFastInterrupt bus =
      (p.requestFastInterrupt bus).revise change
        (count + (p.requestFastInterrupt bus).cycles.toNat) := by
  have hr : ((p.revise change count).status.fiqDisabled || (p.revise change count).locked) =
      (p.status.fiqDisabled || p.locked) := rfl
  unfold requestFastInterrupt
  rw [hr]
  split_ifs
  · rfl
  · exact congrArg Outcome.counted (enterException_revise p bus hc .fastInterrupt)

/-! ## The last fetch -/

/-- The processor with another cost of the last opcode fetch. -/
def refetched (timing : Timing) (p : Processor) : Processor :=
  { p with fetchTiming := timing }

/-- A step makes a fetch of its own before it looks at the cost of one. -/
theorem step_refetched (timing : Timing) : (p.refetched timing).step bus = p.step bus := rfl

theorem requestInterrupt_refetched (timing : Timing) :
    (p.refetched timing).requestInterrupt bus =
      ⟨(p.requestInterrupt bus).processor.refetched timing, (p.requestInterrupt bus).bus,
        (p.requestInterrupt bus).cycles⟩ := by
  have hr : ((p.refetched timing).status.irqDisabled || (p.refetched timing).locked) =
      (p.status.irqDisabled || p.locked) := rfl
  unfold requestInterrupt
  rw [hr]
  split_ifs
  · rfl
  · rfl

theorem requestFastInterrupt_refetched (timing : Timing) :
    (p.refetched timing).requestFastInterrupt bus =
      ⟨(p.requestFastInterrupt bus).processor.refetched timing, (p.requestFastInterrupt bus).bus,
        (p.requestFastInterrupt bus).cycles⟩ := by
  have hr : ((p.refetched timing).status.fiqDisabled || (p.refetched timing).locked) =
      (p.status.fiqDisabled || p.locked) := rfl
  unfold requestFastInterrupt
  rw [hr]
  split_ifs
  · rfl
  · rfl

/-! ## Older processors -/

/-- Processors that agree in all but the count of cycles and the cost of the last opcode fetch.
They had counted some cycles each when they parted. -/
structure Aged (first second : Nat) (p q : Processor) : Prop where
  registers : q.registers = p.registers
  status : q.status = p.status
  pipeline : q.pipeline = p.pipeline
  locked : q.locked = p.locked
  cycles : q.cycles + first = p.cycles + second

variable {first second : Nat} {p q : Processor}

omit [Bus β] in
theorem Aged.eq (h : p.Aged first second q) :
    q = (p.revise id q.cycles).refetched q.fetchTiming := by
  rcases p with ⟨registers, status, pipeline, timing, locked, cycles⟩
  rcases q with ⟨registers', status', pipeline', timing', locked', cycles'⟩
  obtain ⟨hregisters, hstatus, hpipeline, hlocked, -⟩ := h
  simp only at hregisters hstatus hpipeline hlocked
  subst hregisters hstatus hpipeline hlocked
  rfl

omit [Bus β] in
/-- What takes the same cycles on both leaves them as far apart as they were. -/
theorem Aged.outcome (h : p.Aged first second q) {outcome : Outcome β} (timing : Timing)
    (hc : outcome.processor.cycles = p.cycles + outcome.cycles.toNat) :
    outcome.Related (Aged first second) Eq
      ⟨(outcome.processor.revise id (q.cycles + outcome.cycles.toNat)).refetched timing,
        outcome.bus, outcome.cycles⟩ := by
  have hcycles : q.cycles + outcome.cycles.toNat + first = outcome.processor.cycles + second := by
    have hq := h.cycles
    omega
  exact ⟨⟨rfl, rfl, rfl, rfl, hcycles⟩, rfl, rfl⟩

theorem Aged.step (h : p.Aged first second q) :
    (p.step bus).Related (Aged first second) Eq (q.step bus) := by
  have hstep : q.step bus = (p.step bus).revise id (q.cycles + (p.step bus).cycles.toNat) := by
    rw [h.eq, step_refetched]
    exact step_revise p bus (fun bank _ => .id bank) fun _ _ _ => .id _
  rw [hstep]
  exact h.outcome _ (step_cycles p bus)

theorem Aged.requestInterrupt (h : p.Aged first second q) :
    (p.requestInterrupt bus).Related (Aged first second) Eq (q.requestInterrupt bus) := by
  have hrun : q.requestInterrupt bus =
      ⟨((p.requestInterrupt bus).processor.revise id
          (q.cycles + (p.requestInterrupt bus).cycles.toNat)).refetched q.fetchTiming,
        (p.requestInterrupt bus).bus, (p.requestInterrupt bus).cycles⟩ := by
    rw [h.eq, requestInterrupt_refetched, requestInterrupt_revise _ _ fun bank _ => .id bank]
    rfl
  rw [hrun]
  exact h.outcome _ (requestInterrupt_cycles p bus)

theorem Aged.requestFastInterrupt (h : p.Aged first second q) :
    (p.requestFastInterrupt bus).Related (Aged first second) Eq (q.requestFastInterrupt bus) := by
  have hrun : q.requestFastInterrupt bus =
      ⟨((p.requestFastInterrupt bus).processor.revise id
          (q.cycles + (p.requestFastInterrupt bus).cycles.toNat)).refetched q.fetchTiming,
        (p.requestFastInterrupt bus).bus, (p.requestFastInterrupt bus).cycles⟩ := by
    rw [h.eq, requestFastInterrupt_refetched,
      requestFastInterrupt_revise _ _ fun bank _ => .id bank]
    rfl
  rw [hrun]
  exact h.outcome _ (requestFastInterrupt_cycles p bus)

omit [Bus β] in
theorem Aged.writeStatus (h : p.Aged first second q) (bits : Word) :
    (p.writeStatus bits).Aged first second (q.writeStatus bits) := by
  have hrun : q.writeStatus bits =
      ((p.writeStatus bits).revise id q.cycles).refetched q.fetchTiming := by
    rw [h.eq]
    unfold Processor.writeStatus
    cases Mode.ofBits? bits with
    | none => rfl
    | some mode => rfl
  have hcycles : q.cycles + first = (p.writeStatus bits).cycles + second := by
    rw [cycles_writeStatus]
    exact h.cycles
  rw [hrun]
  exact ⟨rfl, rfl, rfl, rfl, hcycles⟩

end Processor

/-- No command goes another way on an older processor. -/
theorem Command.run_aged {β : Type} [Bus β] {first second : Nat} {p q : Processor}
    (h : p.Aged first second q) (bus : β) (command : Command) :
    (command.run p bus).Related (Processor.Aged first second) Eq (command.run q bus) := by
  cases command with
  | step => exact h.step bus
  | requestInterrupt => exact h.requestInterrupt bus
  | requestFastInterrupt => exact h.requestFastInterrupt bus
  | reset =>
    rw [h.eq]
    exact h.outcome q.fetchTiming (Processor.reset_cycles p bus)
  | bootDirect =>
    rw [h.eq]
    exact h.outcome q.fetchTiming (Processor.bootDirect_cycles p bus)
  | jump address =>
    rw [h.eq]
    exact ⟨⟨rfl, rfl, rfl, rfl, h.cycles⟩, rfl, rfl⟩
  | setRegister number value =>
    rw [h.eq]
    exact ⟨⟨rfl, rfl, rfl, rfl, h.cycles⟩, rfl, rfl⟩
  | writeStatus bits => exact ⟨h.writeStatus bits, rfl, rfl⟩

end Handheld
