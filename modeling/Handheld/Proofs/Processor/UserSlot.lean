import Handheld.Proofs.Processor.Coherence
import Handheld.Proofs.Processor.Cost
import Handheld.Proofs.Processor.Retiming
import Handheld.Proofs.Processor.Unseen

/-!
# The saved status word of user mode

User and system mode have no saved status word, but the register file keeps one for the bank that
they share. An instruction that writes the saved status word in one of these modes changes it, and
one that reads the saved status word there shows it; nothing else does either.

1. `Processor.SlotApart` relates processors that differ in that word alone.
2. `step_slotApart` says that a step which does not read the word keeps them so, and
   `Command.run_slotApart` says the same of everything else that a host may ask.
3. `Course.run_slotApart` carries that over to a run of commands, `step_readsUserSlot` is a step
   that does read the word, and `user_slot_unseen_unless_read` is both. `user_slot_observed` is a
   program that reads it.
-/

namespace Handheld

theorem Bank.exists_index (place : Fin 6) : ∃ bank : Bank, bank.index = place :=
  ⟨Bank.all[place], by revert place; decide⟩

/-- A word put into the slot of user mode does not show in any other bank. -/
theorem spares_userSlot (slot : Word) {bank : Bank} (h : bank ≠ .user) :
    Spares (fun saved => saved.set 0 slot) bank where
  get _ := Vector.getElem_set_ne _ _ (Bank.index_ne h).symm
  set _ _ := Vector.set_comm _ _ (Bank.index_ne h)

namespace Processor

/-! ## Processors that differ in the slot -/

/-- The saved status word that the register file keeps for user and system mode. -/
def userSlot (p : Processor) : Word :=
  p.registers.saved[0]

/-- The processor with another word in the slot of user mode. -/
def withUserSlot (p : Processor) (slot : Word) : Processor :=
  p.revise (fun saved => saved.set 0 slot) p.cycles

/-- Processors that differ in the slot of user mode alone. -/
structure SlotApart (p q : Processor) : Prop where
  general : q.registers.general = p.registers.general
  bank : q.registers.bank = p.registers.bank
  saved : ∀ bank : Bank, bank ≠ .user →
    q.registers.saved.get bank.index = p.registers.saved.get bank.index
  status : q.status = p.status
  pipeline : q.pipeline = p.pipeline
  fetchTiming : q.fetchTiming = p.fetchTiming
  locked : q.locked = p.locked
  cycles : q.cycles = p.cycles

variable {p q : Processor}

theorem slotApart_withUserSlot (p : Processor) (slot : Word) :
    p.SlotApart (p.withUserSlot slot) :=
  ⟨rfl, rfl, fun _ h => (spares_userSlot slot h).get _, rfl, rfl, rfl, rfl, rfl⟩

theorem SlotApart.refl (p : Processor) : p.SlotApart p :=
  ⟨rfl, rfl, fun _ _ => rfl, rfl, rfl, rfl, rfl, rfl⟩

theorem SlotApart.eq_withUserSlot (h : p.SlotApart q) : q = p.withUserSlot q.userSlot := by
  have hs : q.registers.saved = p.registers.saved.set 0 q.userSlot := by
    apply Vector.ext
    intro place hlt
    obtain ⟨bank, hb⟩ := Bank.exists_index ⟨place, hlt⟩
    rw [Vector.getElem_set]
    split_ifs with hz
    · subst hz
      rfl
    · have hn : bank ≠ .user := by
        rintro rfl
        exact hz (congrArg Fin.val hb)
      have hv := h.saved bank hn
      rw [hb] at hv
      exact hv
  have hfile : q.registers = { p.registers with saved := p.registers.saved.set 0 q.userSlot } :=
    RegisterFile.ext_general h.general hs h.bank
  generalize q.userSlot = slot at hfile
  rcases p with ⟨file, status, pipeline, timing, locked, cycles⟩
  rcases q with ⟨file', status', pipeline', timing', locked', cycles'⟩
  obtain ⟨-, -, -, hstatus, hpipeline, htiming, hlocked, hcycles⟩ := h
  simp only at hfile hstatus hpipeline htiming hlocked hcycles
  subst hfile hstatus hpipeline htiming hlocked hcycles
  rfl

theorem SlotApart.spend (h : p.SlotApart q) (cycles : UInt32) :
    (p.spend cycles).SlotApart (q.spend cycles) :=
  ⟨h.general, h.bank, h.saved, h.status, h.pipeline, h.fetchTiming, h.locked,
    congrArg (· + cycles.toNat) h.cycles⟩

/-- A register is no slot. -/
theorem SlotApart.setRegister (h : p.SlotApart q) (number : Nat) (value : Word) :
    ({ p with registers := p.registers.set number value } : Processor).SlotApart
      { q with registers := q.registers.set number value } where
  general := by
    simp only [RegisterFile.set, RegisterFile.general_write, h.general, h.bank]
  bank := (RegisterFile.bank_write ..).trans (h.bank.trans (RegisterFile.bank_write ..).symm)
  saved bank hn := by
    simp only [RegisterFile.set, RegisterFile.saved_write]
    exact h.saved bank hn
  status := h.status
  pipeline := h.pipeline
  fetchTiming := h.fetchTiming
  locked := h.locked
  cycles := h.cycles

/-- What is saved in user mode goes to the slot. -/
theorem SlotApart.setSavedStatus (h : p.SlotApart q) (hb : p.registers.bank = .user)
    (value value' : Word) : (p.setSavedStatus value).SlotApart (q.setSavedStatus value') := by
  refine ⟨h.general, h.bank, fun bank hn => ?_, h.status, h.pipeline, h.fetchTiming, h.locked,
    h.cycles⟩
  have hp : bank ≠ p.registers.bank := by
    rw [hb]
    exact hn
  have hq : bank ≠ q.registers.bank := by
    rw [h.bank]
    exact hp
  show (q.registers.setSavedStatus value').saved.get _ =
    (p.registers.setSavedStatus value).saved.get _
  rw [RegisterFile.saved_setSavedStatus_of_ne _ _ hp,
    RegisterFile.saved_setSavedStatus_of_ne _ _ hq]
  exact h.saved bank hn

end Processor

/-- Outcomes at equal costs and on equal buses, of processors that differ in the slot of user mode
alone. -/
abbrev Outcome.SlotApart {β : Type} (a b : Outcome β) : Prop :=
  a.Related Processor.SlotApart (fun bus bus' => bus' = bus) b

theorem Outcome.SlotApart.counted {β : Type} {a b : Outcome β} (h : a.SlotApart b) :
    a.counted.SlotApart b.counted := by
  refine ⟨?_, h.bus, h.cycles⟩
  show (a.processor.spend a.cycles).SlotApart (b.processor.spend b.cycles)
  rw [h.cycles]
  exact h.processor.spend a.cycles

/-- The count of an entry point goes on from that of the processor that was not revised. -/
theorem Outcome.slotApart_revise {β : Type} {p : Processor} (outcome : Outcome β) (slot : Word)
    (h : outcome.processor.cycles = p.cycles + outcome.cycles.toNat) :
    outcome.SlotApart
      (outcome.revise (fun saved => saved.set 0 slot) (p.cycles + outcome.cycles.toNat)) := by
  rw [← h]
  exact ⟨Processor.slotApart_withUserSlot outcome.processor slot, rfl, rfl⟩

namespace Processor

variable {p q : Processor} {β : Type} [Bus β]

/-! ## Steps -/

/-- A step copies the slot of user mode into a register. -/
def ReadsUserSlot (p : Processor) (bus : β) : Prop :=
  p.registers.bank = .user ∧ ∃ destination, p.Retires bus (.readStatus true destination)

instance (p : Processor) (bus : β) (i : Instruction) : Decidable (p.Retires bus i) :=
  inferInstanceAs (Decidable (_ ∧ _))

instance (p : Processor) (bus : β) : Decidable (p.ReadsUserSlot bus) :=
  inferInstanceAs (Decidable
    (_ ∧ ∃ destination : Fin 16, p.Retires bus (.readStatus true destination)))

/-- A step that writes the slot leaves no other difference. -/
theorem writeStatus_slotApart (slot : Word) (bus : β) (hb : p.registers.bank = .user)
    {mask : Word} {source : Operand} (hw : p.Retires bus (.writeStatus true mask source)) :
    (p.step bus).SlotApart ((p.withUserSlot slot).step bus) := by
  have hw' : (p.withUserSlot slot).Retires bus (.writeStatus true mask source) := hw
  have ha : (p.advance bus).1.SlotApart ((p.withUserSlot slot).advance bus).1 :=
    slotApart_withUserSlot (p.advance bus).1 slot
  rw [step_of_retires hw, step_of_retires hw']
  refine Outcome.SlotApart.counted ⟨?_, rfl, rfl⟩
  exact ha.setSavedStatus hb _ _

/-- A step keeps processors apart in the slot alone, unless it copies the slot into a register. -/
theorem step_slotApart (h : p.SlotApart q) (bus : β) (hr : ¬ p.ReadsUserSlot bus) :
    (p.step bus).SlotApart (q.step bus) := by
  rw [h.eq_withUserSlot]
  generalize q.userSlot = slot
  by_cases hw : p.registers.bank = .user ∧
      ∃ mask source, p.Retires bus (.writeStatus true mask source)
  · obtain ⟨hb, mask, source, hw⟩ := hw
    exact writeStatus_slotApart slot bus hb hw
  · have hstep : (p.withUserSlot slot).step bus =
        (p.step bus).revise (fun saved => saved.set 0 slot)
          (p.cycles + (p.step bus).cycles.toNat) := by
      refine step_revise p bus (fun _ => spares_userSlot slot) fun i hi hn => ?_
      refine spares_userSlot slot fun hb => ?_
      cases i with
      | readStatus saved destination =>
        cases saved
        · exact hn
        · exact hr ⟨hb, destination, hi⟩
      | writeStatus saved mask source =>
        cases saved
        · exact hn
        · exact hw ⟨hb, mask, source, hi⟩
      | _ => exact hn
    rw [hstep]
    exact (p.step bus).slotApart_revise slot (step_cycles p bus)

/-- A step that copies the slot into a register shows it there, and nowhere else. -/
theorem step_readsUserSlot (h : p.SlotApart q) (bus : β) (hb : p.registers.bank = .user)
    {destination : Register} (hr : p.Retires bus (.readStatus true destination)) :
    (p.step bus).processor.get destination = p.userSlot ∧
      (q.step bus).processor.get destination = q.userSlot ∧
      ((p.step bus).processor.set destination q.userSlot).SlotApart (q.step bus).processor ∧
      (q.step bus).bus = (p.step bus).bus ∧ (q.step bus).cycles = (p.step bus).cycles := by
  obtain ⟨slot, rfl⟩ : ∃ slot, q = p.withUserSlot slot := ⟨q.userSlot, h.eq_withUserSlot⟩
  have hr' : (p.withUserSlot slot).Retires bus (.readStatus true destination) := hr
  have hslot : (p.withUserSlot slot).userSlot = slot := Vector.getElem_set_self _
  have hp : (p.advance bus).1.registers.savedStatus = p.userSlot := by
    show p.registers.saved[p.registers.bank.index] = p.registers.saved[0]
    simp only [hb]
    rfl
  have hq : ((p.withUserSlot slot).advance bus).1.registers.savedStatus = slot := by
    show (p.registers.saved.set 0 slot)[p.registers.bank.index] = slot
    simp only [hb]
    exact Vector.getElem_set_self _
  rw [step_of_retires hr, step_of_retires hr', hslot]
  refine ⟨?_, ?_, ?_, rfl, rfl⟩
  · exact (get_set (p.advance bus).1 destination destination _).trans ((if_pos rfl).trans hp)
  · exact (get_set ((p.withUserSlot slot).advance bus).1 destination destination _).trans
      ((if_pos rfl).trans hq)
  · have ha : ((p.advance bus).1.set destination slot).SlotApart
        (((p.withUserSlot slot).advance bus).1.set destination
          ((p.withUserSlot slot).advance bus).1.registers.savedStatus) := by
      rw [hq]
      exact (slotApart_withUserSlot (p.advance bus).1 slot).setRegister destination.val slot
    rw [← set_set _ _ (p.advance bus).1.registers.savedStatus slot] at ha
    exact ha.spend (p.advance bus).1.fetchTiming.seq

end Processor

/-- Every command keeps processors apart in the slot alone, but for a step that copies the slot
into a register. -/
theorem Command.run_slotApart {β : Type} [Bus β] {p q : Processor} (h : p.SlotApart q) (bus : β)
    (command : Command) (hr : command = .step → ¬ p.ReadsUserSlot bus) :
    (command.run p bus).SlotApart (command.run q bus) := by
  by_cases hs : command = .step
  · rw [hs]
    exact Processor.step_slotApart h bus (hr hs)
  rw [h.eq_withUserSlot]
  generalize q.userSlot = slot
  have hc : ∀ bank, bank ≠ .user → Spares (fun saved => saved.set 0 slot) bank :=
    fun _ => spares_userSlot slot
  cases command with
  | step => exact absurd rfl hs
  | requestInterrupt =>
    show (p.requestInterrupt bus).SlotApart ((p.revise _ p.cycles).requestInterrupt bus)
    rw [Processor.requestInterrupt_revise p bus hc]
    exact (p.requestInterrupt bus).slotApart_revise slot (Processor.requestInterrupt_cycles p bus)
  | requestFastInterrupt =>
    show (p.requestFastInterrupt bus).SlotApart ((p.revise _ p.cycles).requestFastInterrupt bus)
    rw [Processor.requestFastInterrupt_revise p bus hc]
    exact (p.requestFastInterrupt bus).slotApart_revise slot
      (Processor.requestFastInterrupt_cycles p bus)
  | writeStatus bits =>
    have hw : (p.withUserSlot slot).writeStatus bits = (p.writeStatus bits).withUserSlot slot := by
      unfold Processor.withUserSlot
      rw [Processor.writeStatus_revise, Processor.cycles_writeStatus]
    have ha : (p.writeStatus bits).SlotApart ((p.withUserSlot slot).writeStatus bits) := by
      rw [hw]
      exact Processor.slotApart_withUserSlot (p.writeStatus bits) slot
    exact ⟨ha, rfl, rfl⟩
  | jump address =>
    exact ⟨Processor.slotApart_withUserSlot (p.jump bus address).processor slot, rfl, rfl⟩
  | setRegister number value =>
    exact ⟨(p.slotApart_withUserSlot slot).setRegister number value, rfl, rfl⟩
  | reset => exact ⟨.refl _, rfl, rfl⟩
  | bootDirect => exact ⟨.refl _, rfl, rfl⟩

/-! ## Runs -/

/-- A processor on its bus, and what the commands so far cost it, from the latest on. -/
structure Course (β : Type) where
  processor : Processor
  bus : β
  costs : List UInt32

namespace Course

variable {β : Type} [Bus β]

/-- A processor on its bus before any command. -/
def start (p : Processor) (bus : β) : Course β := ⟨p, bus, []⟩

/-- The course after a command. -/
def after (course : Course β) (command : Command) : Course β :=
  let outcome := command.run course.processor course.bus
  ⟨outcome.processor, outcome.bus, outcome.cycles :: course.costs⟩

/-- The course after some commands. -/
def run (course : Course β) : List Command → Course β
  | [] => course
  | command :: rest => (course.after command).run rest

/-- No step of a run copies the slot of user mode into a register. -/
def Unread (course : Course β) : List Command → Prop
  | [] => True
  | command :: rest =>
    (command = .step → ¬ course.processor.ReadsUserSlot course.bus) ∧
      (course.after command).Unread rest

instance decidableUnread : ∀ (course : Course β) (commands : List Command),
    Decidable (course.Unread commands)
  | _, [] => isTrue trivial
  | course, command :: rest =>
    have := decidableUnread (course.after command) rest
    inferInstanceAs (Decidable (_ ∧ _))

/-- Courses at equal costs and on equal buses, of processors that differ in the slot of user mode
alone. -/
structure SlotApart (a b : Course β) : Prop where
  processor : a.processor.SlotApart b.processor
  bus : b.bus = a.bus
  costs : b.costs = a.costs

theorem after_slotApart {a b : Course β} (h : a.SlotApart b) (command : Command)
    (hr : command = .step → ¬ a.processor.ReadsUserSlot a.bus) :
    (a.after command).SlotApart (b.after command) := by
  obtain ⟨hprocessor, hbus, hcycles⟩ := command.run_slotApart h.processor a.bus hr
  unfold after
  rw [h.bus, h.costs]
  exact ⟨hprocessor, hbus, congrArg (· :: a.costs) hcycles⟩

theorem run_slotApart (commands : List Command) :
    ∀ {a b : Course β}, a.SlotApart b → a.Unread commands →
      (a.run commands).SlotApart (b.run commands) := by
  induction commands with
  | nil => exact fun h _ => h
  | cons command rest ih => exact fun h hr => ih (after_slotApart h command hr.1) hr.2

/-- **The slot of user mode shows where it is read, and nowhere else.** Take processors that differ
in the slot alone, on equal buses. Through any commands of which no step copies the slot into a
register, they keep equal registers in every bank, status words, saved status words of all modes
that have one, pipelines and counts, on equal buses and at equal costs. A step that does copy the
slot puts the one word and the other into its register, and leaves no other difference. -/
theorem user_slot_unseen_unless_read {p q : Processor} (h : p.SlotApart q) (bus : β) :
    (∀ commands, (start p bus).Unread commands →
      ((start p bus).run commands).SlotApart ((start q bus).run commands)) ∧
    ∀ destination, p.registers.bank = .user → p.Retires bus (.readStatus true destination) →
      (p.step bus).processor.get destination = p.userSlot ∧
        (q.step bus).processor.get destination = q.userSlot ∧
        ((p.step bus).processor.set destination q.userSlot).SlotApart (q.step bus).processor ∧
        (q.step bus).bus = (p.step bus).bus ∧ (q.step bus).cycles = (p.step bus).cycles :=
  ⟨fun commands hr => run_slotApart commands ⟨h, rfl, rfl⟩ hr,
    fun _ hb hr => Processor.step_readsUserSlot h bus hb hr⟩

/-- A program that copies the saved status word into register 2, writes it from register 0 and
copies it into register 1. -/
def statusProgram (address : Word) (_ : Width) : Word :=
  if address = 0 then 0xE14F2000 else if address = 4 then 0xE16FF000 else 0xE14F1000

/-- A processor in system mode that has the program before it. -/
def atStatusProgram : Course (Listing statusProgram) :=
  (start Processor.powerOn ⟨⟩).run
    [.writeStatus 0x1F, .setRegister 0 0x12345678, .jump 0]

theorem user_slot_unseen_unless_read_listing :
    let p := atStatusProgram.processor
    let q := p.withUserSlot 7
    let bus := atStatusProgram.bus
    let commands := [Command.jump 4, .step, .requestInterrupt, .step]
    (start p bus).Unread commands ∧
      ((start p bus).run commands).SlotApart ((start q bus).run commands) ∧
      p.Retires bus (.readStatus true (.ofNat 2)) ∧
      (q.step bus).processor.get (.ofNat 2) = q.userSlot := by
  intro p q bus commands
  have h : p.SlotApart q := p.slotApart_withUserSlot 7
  have hunread : (start p bus).Unread commands := by decide +kernel
  have hretires : p.Retires bus (.readStatus true (.ofNat 2)) := by decide +kernel
  obtain ⟨hrun, hread⟩ := user_slot_unseen_unless_read h bus
  exact ⟨hunread, hrun commands hunread, hretires, (hread _ rfl hretires).2.1⟩

/-- What a program wrote into the slot of user mode comes back, where a processor that differs in
the slot alone reads what that one holds. -/
theorem user_slot_observed :
    let written := (atStatusProgram.run [.step, .step]).processor
    let blank := written.withUserSlot 0
    let bus := atStatusProgram.bus
    written.SlotApart blank ∧
      ((start written bus).run [.step]).processor.get (.ofNat 1) = 0x12345678 ∧
      ((start blank bus).run [.step]).processor.get (.ofNat 1) = 0 ∧
      ¬ ((start written bus).run [.step]).SlotApart ((start blank bus).run [.step]) := by
  intro written blank bus
  have hwritten : ((start written bus).run [.step]).processor.get (.ofNat 1) = 0x12345678 := by
    decide +kernel
  have hblank : ((start blank bus).run [.step]).processor.get (.ofNat 1) = 0 := by decide +kernel
  refine ⟨Processor.slotApart_withUserSlot _ 0, hwritten, hblank, fun h => ?_⟩
  have hget : ((start blank bus).run [.step]).processor.get (.ofNat 1) =
      ((start written bus).run [.step]).processor.get (.ofNat 1) := by
    rw [h.processor.eq_withUserSlot]
    rfl
  rw [hwritten, hblank] at hget
  cases hget

end Course

end Handheld
