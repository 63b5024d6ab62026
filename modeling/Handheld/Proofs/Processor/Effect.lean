import Mathlib.Logic.Relation
import Handheld.Proofs.Processor.Engines
import Handheld.Proofs.Processor.State

/-!
# What an instruction can do

Every instruction is some work, which touches registers, flags and memory, and at most one
show of the program's course after it. What holds of all instructions is proved once for each
kind of action and once for each kind of ending, and follows by `execute_effect`.

1. `Act` is one action of the work: a memory access, a register or a saved status word written
   through the bank in view, a register of user mode, the flags, the interrupt lock.
2. `Effect` closes the work with its ending: none, a new status word, a refill of the pipeline,
   a restored status word and a refill, a change of the instruction set, or an exception.
3. `execute_effect` says that an instruction has the effect of its kind, and `step_effect` that a
   step moves the pipeline on and then has the effect of the instruction it finds.
-/

namespace Handheld

/-! ## Kinds of instructions -/

namespace Instruction

/-- A load of listed registers that goes through the bank of user mode. -/
def LoadsUser : Instruction → Prop
  | blockTransfer true list _ true => list ≠ 0 ∧ Register.pc ∉ registersOf list
  | _ => False

/-- An instruction that writes the program counter and does not refill the pipeline. -/
def OverwritesPc : Instruction → Prop
  | readStatus _ destination => destination = Register.pc
  | multiply _ destination _ _ _ => destination = Register.pc
  | multiplyLong _ _ _ low high _ _ => low = Register.pc ∨ high = Register.pc
  | swap _ destination _ _ => destination = Register.pc
  | loadAddress destination _ => destination = Register.pc
  | _ => False

/-- The exception that an instruction enters, if it is a trap. -/
def trap? : Instruction → Option Exception
  | softwareInterrupt => some .softwareInterrupt
  | undefined => some .undefined
  | _ => none

end Instruction

namespace Processor

variable {β : Type} [Bus β]

/-! ## Work -/

/-- Replace the condition flags by those of a word. -/
def flagsFrom (p : Processor) (value : Word) : Processor :=
  { p with status :=
      ⟨p.status.bits &&& ~~~Status.flagsMask ||| (value &&& Status.flagsMask)⟩ }

theorem setFlags_eq_flagsFrom (p : Processor) (flags : Flags) :
    p.setFlags flags = p.flagsFrom (flags.nibble <<< 28) := by
  unfold flagsFrom
  rw [flags.nibble_and]
  rfl

/-- One action of an instruction on the processor and its bus. It writes the program counter only
where `counter` allows it, and a register of user mode only where `user` does. -/
inductive Act (counter user : Prop) : Processor × β → Processor × β → Prop
  | read (p : Processor) (bus : β) (address : Word) (width : Width) :
    Act counter user (p, bus) (p, (Bus.read bus address width).2)
  | write (p : Processor) (bus : β) (address value : Word) (width : Width) :
    Act counter user (p, bus) (p, (Bus.write bus address value width).2)
  | set (p : Processor) (bus : β) (register : Register) (value : Word)
    (h : register = Register.pc → counter) : Act counter user (p, bus) (p.set register value, bus)
  | setUser (p : Processor) (bus : β) (register : Register) (value : Word)
    (h : register = Register.pc → counter) (hu : user) :
    Act counter user (p, bus) (p.setUser register value, bus)
  | save (p : Processor) (bus : β) (value : Word) :
    Act counter user (p, bus) (p.setSavedStatus value, bus)
  | flags (p : Processor) (bus : β) (value : Word) :
    Act counter user (p, bus) (p.flagsFrom value, bus)
  | lock (p : Processor) (bus : β) : Act counter user (p, bus) ({ p with locked := true }, bus)

/-- Some actions, one after the other. -/
abbrev Work (counter user : Prop) : Processor × β → Processor × β → Prop :=
  Relation.ReflTransGen (Act counter user)

/-- What each action keeps, the work keeps. -/
theorem Work.keeps {counter user : Prop} {I : Processor → β → Prop}
    (step : ∀ {p q : Processor} {bus out : β}, Act counter user (p, bus) (q, out) →
      I p bus → I q out) {p q : Processor} {bus out : β}
    (h : Work counter user (p, bus) (q, out)) (start : I p bus) : I q out := by
  have run : ∀ s : Processor × β, Work counter user (p, bus) s → I s.1 s.2 := by
    intro s hs
    induction hs with
    | refl => exact start
    | tail _ act ih => exact step act ih
  exact run (q, out) h

/-! ## Effects -/

/-- How an instruction may leave the processor and its bus. -/
inductive Effect (i : Instruction) (p : Processor) (bus : β) : Processor → β → Prop
  /-- The program goes on with the next instruction. -/
  | work {q : Processor} {out : β} (h : Work i.OverwritesPc i.LoadsUser (p, bus) (q, out)) :
    Effect i p bus q out
  /-- The status word is written. -/
  | status (mask : Word) (source : Operand) (hi : i = .writeStatus false mask source) :
    Effect i p bus (p.writeStatusWord false mask (source.evaluate p).value) bus
  /-- The program goes on elsewhere. -/
  | branch {q : Processor} {out : β} (h : Work True i.LoadsUser (p, bus) (q, out))
    (address : Word) :
    Effect i p bus (q.refill out address).processor (q.refill out address).bus
  /-- The program goes on elsewhere under the saved status word. -/
  | restore {q : Processor} {out : β} (h : Work True i.LoadsUser (p, bus) (q, out)) :
    Effect i p bus (q.completePcWrite out true).processor (q.completePcWrite out true).bus
  /-- The program goes on elsewhere, perhaps in the other instruction set. -/
  | exchange (address : Word) :
    Effect i p bus (p.branchExchange bus address).processor (p.branchExchange bus address).bus
  /-- An exception is entered. -/
  | trap (exception : Exception) (hi : i.trap? = some exception) :
    Effect i p bus (p.enterException bus exception).processor
      (p.enterException bus exception).bus

section Pieces

variable {counter user : Prop} {p : Processor} {bus : β}

theorem Work.set (register : Register) (value : Word) (h : register = Register.pc → counter) :
    Work counter user (p, bus) (p.set register value, bus) :=
  Relation.ReflTransGen.single (.set p bus register value h)

theorem Work.setFlags (flags : Flags) :
    Work counter user (p, bus) (p.setFlags flags, bus) := by
  rw [setFlags_eq_flagsFrom]
  exact Relation.ReflTransGen.single (.flags p bus _)

theorem Work.setFlagsIf (on : Bool) (flags : Flags) :
    Work counter user (p, bus) (if on then p.setFlags flags else p, bus) := by
  cases on
  · exact Relation.ReflTransGen.refl
  · exact Work.setFlags flags

theorem Work.load (address : Word) (width : Width) (realign signed : Bool) :
    Work counter user (p, bus) (p, (loadValue bus address width realign signed).2) :=
  Relation.ReflTransGen.single (.read p bus _ width)

theorem Work.store (address value : Word) (width : Width) :
    Work counter user (p, bus) (p, (storeValue bus address value width).2) :=
  Relation.ReflTransGen.single (.write p bus _ _ width)

end Pieces

/-! ## Data processing and multiplication -/

section Kinds

variable (p : Processor) (bus : β)

theorem process_effect (operation : Operation) (setFlags : Bool) (destination first : Register)
    (second : Operand) :
    Effect (.process operation setFlags destination first second) p bus
      (p.process bus operation setFlags destination first second).processor
      (p.process bus operation setFlags destination first second).bus := by
  unfold process
  extract_lets shifted left result cycles q r
  have hq {counter user : Prop} : Work counter user (p, bus) (q, bus) :=
    Work.setFlagsIf setFlags result.flags
  split
  · by_cases hd : destination = Register.pc
    · rw [if_pos hd]
      have hr {user : Prop} : Work True user (p, bus) (r, bus) :=
        hq.trans (Work.set destination result.value fun _ => trivial)
      cases setFlags
      · exact .branch hr r.pc
      · exact .restore hr
    · rw [if_neg hd]
      exact .work (hq.trans (Work.set destination result.value fun h => absurd h hd))
  · exact .work hq

theorem readStatus_effect (saved : Bool) (destination : Register) :
    Effect (.readStatus saved destination) p bus (p.readStatusWord saved destination) bus :=
  .work (Work.set destination _ fun h => h)

theorem writeStatus_effect (saved : Bool) (mask : Word) (source : Operand) :
    Effect (.writeStatus saved mask source) p bus
      (p.writeStatusWord saved mask (source.evaluate p).value) bus := by
  cases saved
  · exact .status mask source rfl
  · exact .work (Relation.ReflTransGen.single (.save p bus _))

theorem multiply_effect (setFlags : Bool) (destination left right : Register)
    (accumulator : Option Register) :
    Effect (.multiply setFlags destination left right accumulator) p bus
      (p.multiplyRegisters setFlags destination left right accumulator) bus := by
  unfold multiplyRegisters
  extract_lets addend result q
  rw [Status.setNZ_eq]
  have hq : Work (destination = Register.pc) False (p, bus) (q, bus) :=
    Work.set destination result.value fun h => h
  exact .work (hq.trans (Work.setFlagsIf setFlags _))

theorem multiplyLong_effect (signed accumulate setFlags : Bool)
    (low high left right : Register) :
    Effect (.multiplyLong signed accumulate setFlags low high left right) p bus
      (p.multiplyLongRegisters signed accumulate setFlags low high left right) bus := by
  unfold multiplyLongRegisters
  extract_lets addend result q
  rw [Status.setNZ_eq]
  have hl : Work (low = Register.pc ∨ high = Register.pc) False (p, bus)
      (p.set low result.1.toUInt32, bus) := Work.set low _ Or.inl
  have hq : Work (low = Register.pc ∨ high = Register.pc) False (p, bus) (q, bus) :=
    hl.trans (Work.set high _ Or.inr)
  exact .work (hq.trans (Work.setFlagsIf setFlags _))

theorem readCoprocessor_effect (destination : Register) :
    Effect (.readCoprocessor destination) p bus (p.readCoprocessor destination) bus := by
  unfold readCoprocessor
  by_cases hd : destination = Register.pc
  · rw [if_pos hd]
    exact .work (Relation.ReflTransGen.single (.flags p bus p.prefetched))
  · rw [if_neg hd]
    exact .work (Work.set destination _ fun h => absurd h hd)

theorem swap_effect (width : Width) (destination base source : Register) :
    Effect (.swap width destination base source) p bus
      (p.swap bus width destination base source).processor
      (p.swap bus width destination base source).bus := by
  have hl : Work (destination = Register.pc) False (p, bus)
      (p, (loadValue bus (p.get base) width true false).2) := Work.load ..
  have hs := hl.trans (Work.store (p.get base) (p.get source) width)
  exact .work (hs.trans (Work.set destination _ fun h => h))

/-! ## Single transfers -/

/-- A register other than the program counter may as well be written before a refill. -/
theorem set_refill {register : Register} (h : register ≠ Register.pc) (address value : Word) :
    (p.refill bus address).processor.set register value =
        ((p.set register value).refill bus address).processor ∧
      (p.refill bus address).bus = ((p.set register value).refill bus address).bus := by
  refine ⟨?_, rfl⟩
  exact congrArg (fun file => { (p.refill bus address).processor with registers := file })
    (p.registers.set_setPc value h _)

/-- What a single transfer does: work alone, or work and a refill. -/
inductive Moved (p : Processor) (bus : β) : Processor → β → Prop
  | work {q : Processor} {out : β} (h : Work False False (p, bus) (q, out)) : Moved p bus q out
  | branch {q : Processor} {out : β} (h : Work True False (p, bus) (q, out)) (address : Word) :
    Moved p bus (q.refill out address).processor (q.refill out address).bus

theorem Moved.effect {p q : Processor} {bus out : β} {i : Instruction} (h : Moved p bus q out)
    (hc : ¬ i.OverwritesPc) (hu : ¬ i.LoadsUser) : Effect i p bus q out := by
  have e1 : i.OverwritesPc = False := eq_false hc
  have e2 : i.LoadsUser = False := eq_false hu
  cases h with
  | work h => exact .work (by rw [e1, e2]; exact h)
  | branch h address => exact .branch (by rw [e2]; exact h) address

/-- A base may be written back after a transfer. -/
theorem Moved.set {p q : Processor} {bus out : β} {base : Register} (hb : base ≠ Register.pc)
    (value : Word) (h : Moved p bus q out) : Moved p bus (q.set base value) out := by
  cases h with
  | work h => exact .work (h.trans (Work.set base value fun he => absurd he hb))
  | branch h address =>
    rename_i q out
    rw [(set_refill q out hb address value).1, (set_refill q out hb address value).2]
    exact .branch (h.trans (Work.set base value fun _ => trivial)) address

theorem transfer_moved (address : Word) (moved : Transfer) :
    Moved p bus (p.transfer bus address moved).processor (p.transfer bus address moved).bus := by
  unfold transfer
  by_cases hl : moved.load = true
  · rw [if_pos hl]
    have hr {counter : Prop} : Work counter False (p, bus)
        (p, (loadValue bus address moved.width moved.realign moved.signed).2) := Work.load ..
    simp only
    by_cases hd : moved.register = Register.pc
    · rw [if_pos hd]
      exact .branch (hr.trans (Work.set moved.register _ fun _ => trivial)) _
    · rw [if_neg hd]
      exact .work (hr.trans (Work.set moved.register _ fun h => absurd h hd))
  · rw [if_neg hl]
    exact .work (Work.store address _ moved.width)

theorem indexedTransfer_moved (moved : Transfer) (indexing : Indexing) (offset : Word) :
    Moved p bus (p.indexedTransfer bus moved indexing offset).processor
      (p.indexedTransfer bus moved indexing offset).bus := by
  unfold indexedTransfer
  extract_lets base shifted outcome clobbered
  have ho : Moved p bus outcome.processor outcome.bus := transfer_moved p bus _ moved
  split
  · rename_i h
    simp only [Bool.and_eq_true, decide_eq_true_eq] at h
    exact ho.set h.2 shifted
  · exact ho

/-! ## Block transfers -/

theorem loadListed_work {counter user : Prop} (address : Word) (number : Register) (byUser : Bool)
    (hc : number = Register.pc → counter) (hu : byUser = true → user) :
    Work counter user (p, bus) (p.loadListed bus address number byUser).2 := by
  have hl : Work counter user (p, bus) (p, (loadValue bus address .word false false).2) :=
    Work.load ..
  unfold loadListed
  cases byUser
  · exact hl.tail (.set p _ number _ hc)
  · exact hl.tail (.setUser p _ number _ hc (hu rfl))

theorem storeListed_work {counter user : Prop} (address : Word) (number : Register)
    (byUser : Bool) : Work counter user (p, bus) (p.storeListed bus address number byUser).2 :=
  Work.store ..

end Kinds

/-- A list of registers is moved by work alone. -/
theorem transferListed_work {counter user : Prop} {load byUser : Bool}
    (hu : load = true → byUser = true → user) (list : List Register)
    (hc : load = true → Register.pc ∈ list → counter) :
    ∀ (pending : Option (Register × Word)) (first : Bool) (address : Word) (start : Outcome β),
      (∀ base moved, pending = some (base, moved) → base ≠ Register.pc) →
        Work counter user (start.processor, start.bus)
          ((transferListed load byUser pending first list address start).processor,
            (transferListed load byUser pending first list address start).bus) := by
  induction list with
  | nil => intro pending first address start _; exact Relation.ReflTransGen.refl
  | cons number rest ih =>
    intro pending first address start hp
    rcases start with ⟨p, bus, cycles⟩
    unfold transferListed
    have hm : Work counter user (p, bus)
        (if load then p.loadListed bus address number byUser
          else p.storeListed bus address number byUser).2 := by
      cases load
      · exact storeListed_work ..
      · exact loadListed_work p bus address number byUser
          (fun h => hc rfl (h ▸ List.mem_cons_self)) (hu rfl)
    generalize (if load then p.loadListed bus address number byUser
      else p.storeListed bus address number byUser) = one at hm ⊢
    rcases one with ⟨timing, q, out⟩
    have hrest := ih (fun hl h => hc hl (List.mem_cons_of_mem _ h)) none false (address + 4)
    cases pending with
    | none => exact hm.trans (hrest ⟨q, out, _⟩ nofun)
    | some pair =>
      rcases pair with ⟨base, moved⟩
      have hb : base ≠ Register.pc := hp base moved rfl
      have hset : Work counter user (p, bus) (q.set base moved, out) :=
        hm.trans (Work.set base moved fun h => absurd h hb)
      exact hset.trans (hrest ⟨q.set base moved, out, _⟩ nofun)

theorem blockTransfer_effect (p : Processor) (bus : β) (load : Bool) (list : UInt16)
    (indexing : Indexing) (userBank : Bool) :
    Effect (.blockTransfer load list indexing userBank) p bus
      (p.blockTransfer bus load list indexing userBank).processor
      (p.blockTransfer bus load list indexing userBank).bus := by
  unfold blockTransfer
  extract_lets registers distance base moved lowest start loadsPc writesBack outcome
  have hu : load = true → (userBank && !loadsPc) = true →
      (Instruction.blockTransfer load list indexing userBank).LoadsUser := by
    intro hl h
    simp only [Bool.and_eq_true, Bool.not_eq_true'] at h
    obtain ⟨rfl, hpc⟩ := h
    subst hl
    by_cases h0 : list = 0
    · simp [loadsPc, registers, h0] at hpc
    · refine ⟨h0, fun hmem => ?_⟩
      simp [loadsPc, registers, h0, hmem] at hpc
  have hp : ∀ b v, (if writesBack then some (indexing.base, moved) else none) = some (b, v) →
      b ≠ Register.pc := by
    intro b v h
    by_cases hw : writesBack = true
    · rw [if_pos hw] at h
      simp only [writesBack, Bool.and_eq_true, decide_eq_true_eq] at hw
      cases h
      exact hw.1.2
    · rw [if_neg hw] at h; cases h
  have hwork : Work (loadsPc = true)
      (Instruction.blockTransfer load list indexing userBank).LoadsUser (p, bus)
      (outcome.processor, outcome.bus) := by
    refine transferListed_work hu registers (fun hl hmem => ?_) _ true start
      ⟨p, bus, Cost.blockStart p.fetchTiming load⟩ hp
    simp [loadsPc, hl, hmem]
  by_cases hpc : loadsPc = true
  · rw [if_pos hpc]
    rw [eq_true hpc] at hwork
    cases userBank
    · exact .branch hwork _
    · exact .restore hwork
  · rw [if_neg hpc]
    rw [eq_false hpc] at hwork
    exact .work hwork

/-! ## All instructions -/

/-- An instruction has the effect of its kind. -/
theorem execute_effect (p : Processor) (bus : β) (i : Instruction) :
    Effect i p bus (p.execute bus i).processor (p.execute bus i).bus := by
  cases i with
  | process operation setFlags destination first second => exact process_effect ..
  | readStatus saved destination => exact readStatus_effect ..
  | writeStatus saved mask source => exact writeStatus_effect ..
  | multiply setFlags destination left right accumulator => exact multiply_effect ..
  | multiplyLong signed accumulate setFlags low high left right => exact multiplyLong_effect ..
  | swap width destination base source => exact swap_effect ..
  | transfer moved indexing offset =>
    exact (indexedTransfer_moved p bus moved indexing _).effect id id
  | loadLiteral destination offset => exact (transfer_moved p bus _ _).effect id id
  | loadAddress destination offset => exact .work (Work.set destination _ id)
  | blockTransfer load list indexing userBank => exact blockTransfer_effect ..
  | branch offset link =>
    cases link
    · exact .branch Relation.ReflTransGen.refl _
    · exact .branch (Work.set Register.lr p.nextPc fun _ => trivial) _
  | branchExchange target => exact .exchange _
  | longBranchStart offset =>
    have hs : Work False False (p, bus) (p.set Register.lr (p.pc + offset), bus) :=
      Work.set Register.lr _ fun h => absurd h Register.lr_ne_pc
    exact .work (hs.tail (.lock _ bus))
  | longBranchEnd offset =>
    exact .branch (Work.set Register.lr (p.nextPc ||| 1) fun _ => trivial) _
  | softwareInterrupt => exact .trap .softwareInterrupt rfl
  | writeCoprocessor => exact .work Relation.ReflTransGen.refl
  | readCoprocessor destination => exact readCoprocessor_effect ..
  | undefined => exact .trap .undefined rfl

/-- A step moves the pipeline on and then executes an instruction, whose condition holds. -/
def Retires (p : Processor) (bus : β) (i : Instruction) : Prop :=
  (p.advance bus).1.current.2 = i ∧
    (p.advance bus).1.current.1.holds (p.advance bus).1.status.flags = true

theorem current_advance (p : Processor) (bus : β) :
    (p.advance bus).1.current =
      if p.thumb then Thumb.decode p.pipeline.decoded else Arm.decode p.pipeline.decoded :=
  rfl

/-- A 32-bit opcode in the second slot is executed next where its condition holds. -/
theorem retires_arm {p : Processor} {bus : β} {i : Instruction} (ht : p.thumb = false)
    (hc : (Arm.decode p.pipeline.decoded).1.holds p.status.flags = true)
    (hd : Arm.decodeBody p.pipeline.decoded = i) : p.Retires bus i := by
  unfold Retires
  rw [current_advance, ht]
  exact ⟨hd, hc⟩

theorem step_of_retires {p : Processor} {bus : β} {i : Instruction} (h : p.Retires bus i) :
    p.step bus = ((p.advance bus).1.execute (p.advance bus).2 i).counted := by
  obtain ⟨rfl, hc⟩ := h
  unfold step
  generalize p.advance bus = moved at hc ⊢
  rcases moved with ⟨q, out⟩
  simp only at hc ⊢
  rw [executeCurrent_eq, if_pos hc]

/-- A step moves the pipeline on and passes over an instruction or has its effect. -/
theorem step_effect (p : Processor) (bus : β) :
    ((p.step bus).processor = (p.advance bus).1.spend (p.step bus).cycles ∧
        (p.step bus).bus = (p.advance bus).2) ∨
      ∃ i q, p.Retires bus i ∧ Effect i (p.advance bus).1 (p.advance bus).2 q (p.step bus).bus ∧
        (p.step bus).processor = q.spend (p.step bus).cycles := by
  unfold step Retires
  generalize p.advance bus = moved
  rcases moved with ⟨q, out⟩
  simp only
  rw [executeCurrent_eq]
  by_cases hc : q.current.1.holds q.status.flags = true
  · rw [if_pos hc]
    exact Or.inr ⟨q.current.2, _, ⟨rfl, hc⟩, execute_effect q out q.current.2, rfl⟩
  · rw [if_neg hc]
    exact Or.inl ⟨rfl, rfl⟩

end Processor

end Handheld
