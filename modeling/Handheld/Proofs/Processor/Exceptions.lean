import Handheld.Proofs.Processor.Banks
import Handheld.Proofs.Processor.Coherence

/-!
# Exceptions and their return

An exception and the instruction that returns from it undo each other, although the one is a
branch of its own and the other an arithmetic instruction that writes the program counter.

1. `Entered` is what a handler finds, from whatever state it was entered (`enterException_entered`).
2. `Resumed` is what a return instruction leaves (`return_resumed`), and `Restored` what the two
   together keep: everything but the link and the saved status word of the handler.
3. `exceptions_transparent` is that for interrupts between two steps and for traps.
-/

namespace Handheld

/-! ## Banks of handlers -/

namespace Bank

theorem ofMode_ne {mode other : Mode} (hu : ofMode other ≠ .user) (h : mode ≠ other) :
    ofMode mode ≠ ofMode other := by
  revert hu h
  cases mode <;> cases other <;> decide

/-- No register is the link register of another bank. -/
theorem physical_ne_link {bank other : Bank} (h : bank ≠ other) (register : Register) :
    bank.physical register.val ≠ other.physical 14 := by
  revert register h
  cases bank <;> cases other <;> decide

end Bank

theorem Exception.bank_ne_user (exception : Exception) :
    Bank.ofMode exception.entry.mode ≠ .user := by
  cases exception <;> decide

theorem Exception.align_vector (exception : Exception) :
    Width.word.align exception.entry.vector = exception.entry.vector := by
  cases exception <;> decide

/-! ## Return instructions -/

/-- The instruction `SUBS pc, lr, #4`. -/
def interruptReturn : Word := 0xE25EF004

/-- The instruction `MOVS pc, lr`. -/
def trapReturn : Word := 0xE1B0F00E

/-- An opcode that goes on a given distance before the link and restores the status word. -/
def Returns (opcode distance : Word) : Prop :=
  ∃ operation first second,
    Arm.decode opcode = (.always, .process operation true Register.pc first second) ∧
      operation.writesResult = true ∧
      ∀ p : Processor,
        (operation.compute (p.getAhead first (second.distance p.width)) (second.evaluate p).value
          (second.evaluate p).carry p.status.flags).value = p.get Register.lr - distance

theorem interruptReturn_returns : Returns interruptReturn 4 := by
  refine ⟨.sub, Register.lr, .rotated 4 0, by decide, rfl, fun p => ?_⟩
  show (subtract (p.get Register.lr) 4).value = _
  exact subtract_value ..

theorem trapReturn_returns : Returns trapReturn 0 := by
  refine ⟨.mov, Register.r0, .shifted Register.lr .lsl 0, by decide, rfl, fun p => ?_⟩
  show p.get Register.lr = _
  exact (UInt32.sub_zero _).symm

namespace Processor

variable {β : Type} [Bus β] {program : Word → Width → Word}

/-! ## Entry -/

/-- What a handler finds: its instruction at the vector decoded, the way back in its link and its
saved status word, and all other storage as it was. -/
structure Entered (program : Word → Width → Word) (p : Processor) (exception : Exception)
    (q : Processor) : Prop where
  decoded : q.pipeline.decoded = program exception.entry.vector .word
  thumb : q.thumb = false
  bank : q.registers.bank = Bank.ofMode exception.entry.mode
  link : q.get Register.lr = p.nextPc + exception.entry.linkOffset
  savedStatus : q.registers.savedStatus = p.status.bits
  general : ∀ place : Fin 31, place ≠ 30 →
    place ≠ (Bank.ofMode exception.entry.mode).physical 14 →
      q.registers.general.get place = p.registers.general.get place
  saved : ∀ other, other ≠ Bank.ofMode exception.entry.mode →
    q.registers.saved.get other.index = p.registers.saved.get other.index

theorem thumb_of_entry (s : Status) (exception : Exception) :
    (((s.setMode exception.entry.mode).setThumb false).setBit exception.entry.mask true).thumb =
      false := by
  have hd : exception.entry.mask &&& Status.thumbBit = 0 := by cases exception <;> decide
  rw [Status.thumb_setBit _ _ hd, Status.thumb_setThumb_false]

theorem width_enterException (p : Processor) (bus : β) (exception : Exception) :
    (p.enterException bus exception).processor.width = .word := by
  have ht : (p.enterException bus exception).processor.thumb = false := thumb_of_entry ..
  unfold width
  rw [ht]
  rfl

/-- The program goes on at the vector. -/
theorem nextPc_enterException (p : Processor) (bus : β) (exception : Exception) :
    (p.enterException bus exception).processor.nextPc = exception.entry.vector := by
  refine (nextPc_refill _ bus exception.entry.vector).trans ?_
  show (p.enterException bus exception).processor.width.align _ = _
  rw [width_enterException, Exception.align_vector]

/-- The register file of a handler, before its link and the program counter are written. -/
def entryRegisters (p : Processor) (exception : Exception) : RegisterFile :=
  (p.registers.switchBank (Bank.ofMode exception.entry.mode)).setSavedStatus p.status.bits

theorem registers_enterException (p : Processor) (bus : β) (exception : Exception) :
    (p.enterException bus exception).processor.registers =
      ((p.entryRegisters exception).set Register.lr.val
        (p.nextPc + exception.entry.linkOffset)).setPc
          (p.enterException bus exception).processor.pc :=
  rfl

theorem link_enterException (p : Processor) (bus : β) (exception : Exception) :
    (p.enterException bus exception).processor.get Register.lr =
      p.nextPc + exception.entry.linkOffset := by
  refine (get_refill _ bus exception.entry.vector Register.lr_ne_pc).trans ?_
  exact (get_set ..).trans (if_pos rfl)

theorem bank_enterException (p : Processor) (bus : β) (exception : Exception) :
    (p.enterException bus exception).processor.registers.bank =
      Bank.ofMode exception.entry.mode :=
  (congrArg RegisterFile.bank (registers_enterException p bus exception)).trans
    (RegisterFile.bank_write ..)

theorem savedStatus_enterException (p : Processor) (bus : β) (exception : Exception) :
    (p.enterException bus exception).processor.registers.savedStatus = p.status.bits :=
  ((congrArg RegisterFile.savedStatus (registers_enterException p bus exception)).trans
    (RegisterFile.savedStatus_write ..)).trans (Vector.getElem_set_self _)

/-- An exception writes one general register besides the program counter, its link. -/
theorem general_enterException (p : Processor) (bus : β) (exception : Exception) {place : Fin 31}
    (hpc : place ≠ 30) (hp : place ≠ (Bank.ofMode exception.entry.mode).physical 14) :
    (p.enterException bus exception).processor.registers.general.get place =
      p.registers.general.get place :=
  (RegisterFile.general_setPc_of_ne _ _ hpc).trans
    (RegisterFile.general_write_of_ne _ _ _ _ (Ne.symm hp))

theorem saved_enterException (p : Processor) (bus : β) (exception : Exception) {other : Bank}
    (h : other ≠ Bank.ofMode exception.entry.mode) :
    (p.enterException bus exception).processor.registers.saved.get other.index =
      p.registers.saved.get other.index := by
  have hsaved : (p.enterException bus exception).processor.registers.saved =
      (p.entryRegisters exception).saved :=
    (congrArg RegisterFile.saved (registers_enterException p bus exception)).trans
      (RegisterFile.saved_write ..)
  rw [hsaved]
  exact RegisterFile.saved_setSavedStatus_of_ne (p.switchMode exception.entry.mode).registers _ h

theorem enterException_entered (hM : Fetches β program) (p : Processor) (bus : β)
    (exception : Exception) :
    Entered program p exception (p.enterException bus exception).processor := by
  refine ⟨?_, thumb_of_entry .., bank_enterException p bus exception,
    link_enterException p bus exception,
    savedStatus_enterException p bus exception,
    fun _ => general_enterException p bus exception,
    fun _ => saved_enterException p bus exception⟩
  refine (decoded_refill hM _ bus exception.entry.vector).trans ?_
  show program ((p.enterException bus exception).processor.width.align _)
    (p.enterException bus exception).processor.width &&&
      (p.enterException bus exception).processor.width.mask = _
  rw [width_enterException, Exception.align_vector]
  exact UInt32.and_neg_one

/-! ## Return -/

/-- What a return instruction leaves: the saved status word in effect and its bank in view, a
pipeline refilled at the target, and all storage but the program counter as the handler left it. -/
structure Resumed (program : Word → Width → Word) (q : Processor) (mode : Mode) (target : Word)
    (r : Processor) : Prop where
  coherent : Coherent program r
  status : r.status = ⟨q.registers.savedStatus⟩
  bank : r.registers.bank = Bank.ofMode mode
  nextPc : r.nextPc = r.width.align target
  general : ∀ place : Fin 31, place ≠ 30 →
    r.registers.general.get place = q.registers.general.get place
  saved : r.registers.saved = q.registers.saved

theorem restoreStatus_of_mode {p : Processor} {mode : Mode} (hb : p.registers.bank ≠ .user)
    (hm : Mode.ofBits? p.registers.savedStatus = some mode) :
    p.restoreStatus =
      { p with
        registers := p.registers.switchBank (Bank.ofMode mode)
        status := ⟨p.registers.savedStatus⟩ } := by
  have hs : p.registers.hasSavedStatus = true := bne_iff_ne.mpr hb
  unfold restoreStatus writeStatus
  rw [if_pos hs, hm]

/-- A return instruction writes the program counter and completes the write. -/
theorem return_step {opcode distance : Word} (hr : Returns opcode distance) {q : Processor}
    (bus : β) (ht : q.thumb = false) (hd : q.pipeline.decoded = opcode) :
    ∃ flags cycles, (q.step bus).processor =
      ((((q.advance bus).1.setFlags flags).set Register.pc
        (q.get Register.lr - distance)).completePcWrite (q.advance bus).2 true).processor.spend
          cycles := by
  obtain ⟨operation, first, second, hdecode, hwrites, hvalue⟩ := hr
  have hcurrent : (q.advance bus).1.current =
      (.always, .process operation true Register.pc first second) := by
    have ha : (q.advance bus).1.thumb = false := ht
    unfold current
    rw [ha, if_neg Bool.false_ne_true, ← hdecode, ← hd]
    rfl
  have hlr : (q.advance bus).1.get Register.lr = q.get Register.lr :=
    get_advance q bus Register.lr_ne_pc
  have hv := hvalue (q.advance bus).1
  rw [hlr] at hv
  unfold step
  generalize q.advance bus = moved at hcurrent hv ⊢
  rcases moved with ⟨a, out⟩
  simp only at hcurrent hv ⊢
  rw [executeCurrent_eq, hcurrent]
  simp only [Condition.holds, if_true, execute, process, hwrites, hv]
  exact ⟨_, _, rfl⟩

/-- A restored status word and the program counter as written decide how a refill resumes. -/
theorem refill_resumed (hM : Fetches β program) {q s : Processor} {mode : Mode} {target : Word}
    (bus : β) (cycles : UInt32) (hstatus : s.status = ⟨q.registers.savedStatus⟩)
    (hbank : s.registers.bank = Bank.ofMode mode) (hpc : s.pc = target)
    (hg : ∀ place : Fin 31, place ≠ 30 →
      s.registers.general.get place = q.registers.general.get place)
    (hs : s.registers.saved = q.registers.saved) :
    Resumed program q mode target ((s.refill bus s.pc).processor.spend cycles) := by
  refine ⟨(refill_coherent hM s bus s.pc).spend cycles, hstatus, hbank, ?_, ?_, hs⟩
  · rw [← hpc]
    exact nextPc_refill s bus s.pc
  · intro place h
    rw [← hg place h]
    exact RegisterFile.general_setPc_of_ne _ _ h

theorem return_resumed (hM : Fetches β program) {opcode distance : Word}
    (hr : Returns opcode distance) {q : Processor} {mode : Mode} (bus : β)
    (ht : q.thumb = false) (hd : q.pipeline.decoded = opcode) (hb : q.registers.bank ≠ .user)
    (hm : Mode.ofBits? q.registers.savedStatus = some mode) :
    Resumed program q mode (q.get Register.lr - distance) (q.step bus).processor := by
  obtain ⟨flags, cycles, hstep⟩ := return_step hr bus ht hd
  generalize q.get Register.lr - distance = target at hstep ⊢
  have hrestore := restoreStatus_of_mode
    (p := ((q.advance bus).1.setFlags flags).set Register.pc target)
    (by rwa [bank_set]) hm
  rw [hstep, completePcWrite, if_pos rfl, hrestore]
  refine refill_resumed hM _ _ rfl rfl ?_ ?_ rfl
  · rfl
  · intro place h
    refine (RegisterFile.general_write_of_ne (q.advance bus).1.registers target
      q.registers.bank Register.pc.val (Ne.symm h)).trans ?_
    exact RegisterFile.general_setPc_of_ne _ _ h

/-! ## There and back -/

/-- The program sees nothing of a handler: the status word, its registers and the storage of every
bank are what they were, but for the program counter and the handler's own link and saved status
word. -/
structure Restored (handler : Bank) (p r : Processor) : Prop where
  status : r.status = p.status
  bank : r.registers.bank = p.registers.bank
  visible : ∀ register, register ≠ Register.pc → r.get register = p.get register
  general : ∀ place : Fin 31, place ≠ 30 → place ≠ handler.physical 14 →
    r.registers.general.get place = p.registers.general.get place
  saved : ∀ other, other ≠ handler →
    r.registers.saved.get other.index = p.registers.saved.get other.index

/-- A register is seen in its place of the bank in view. -/
theorem get_congr {p r : Processor} (hb : r.registers.bank = p.registers.bank)
    {register : Register}
    (hg : r.registers.general.get (p.registers.bank.physical register.val) =
      p.registers.general.get (p.registers.bank.physical register.val)) :
    r.get register = p.get register := by
  rw [get_eq_general, get_eq_general, hb]
  exact hg

theorem Entered.restored {p q r : Processor} {exception : Exception} {mode : Mode} {target : Word}
    (he : Entered program p exception q) (hr : Resumed program q mode target r)
    (hm : p.InMode mode) (hne : mode ≠ exception.entry.mode) :
    Restored (Bank.ofMode exception.entry.mode) p r := by
  have hb : r.registers.bank = p.registers.bank := hr.bank.trans hm.bank.symm
  have hg : ∀ place : Fin 31, place ≠ 30 →
      place ≠ (Bank.ofMode exception.entry.mode).physical 14 →
        r.registers.general.get place = p.registers.general.get place := fun place hpc hlr =>
    (hr.general place hpc).trans (he.general place hpc hlr)
  refine ⟨?_, hb, ?_, hg, ?_⟩
  · rw [hr.status, he.savedStatus]
  · intro register h
    have hother := Bank.ofMode_ne exception.bank_ne_user hne
    rw [← hm.bank] at hother
    refine get_congr hb (hg _ (fun hpc => ?_) (Bank.physical_ne_link hother register))
    exact Bank.physical_ne_pc _ h hpc
  · intro other ho
    rw [hr.saved]
    exact he.saved other ho

/-- The first instruction of a handler takes the program back if it returns by the distance of the
exception. -/
theorem Entered.returned (hM : Fetches β program) {p q : Processor} {exception : Exception}
    {mode : Mode} {opcode : Word} (he : Entered program p exception q)
    (hr : Returns opcode exception.entry.linkOffset)
    (hv : program exception.entry.vector .word = opcode) (hm : p.InMode mode)
    (hne : mode ≠ exception.entry.mode) (bus : β) :
    Restored (Bank.ofMode exception.entry.mode) p (q.step bus).processor ∧
      Coherent program (q.step bus).processor ∧
      (q.step bus).processor.nextPc = p.width.align p.nextPc := by
  have hb : q.registers.bank ≠ .user := by
    rw [he.bank]
    exact exception.bank_ne_user
  have hs : Mode.ofBits? q.registers.savedStatus = some mode := by
    rw [he.savedStatus]
    exact hm.mode?
  have hresumed := return_resumed hM hr bus he.thumb (he.decoded.trans hv) hb hs
  have hrestored := he.restored hresumed hm hne
  have hw : (q.step bus).processor.width = p.width :=
    width_congr (congrArg Status.thumb hrestored.status)
  refine ⟨hrestored, hresumed.coherent, ?_⟩
  rw [hresumed.nextPc, he.link, UInt32.add_sub_cancel, hw]

theorem Entered.spend {p q : Processor} {exception : Exception}
    (h : Entered program p exception q) (cycles : UInt32) :
    Entered program p exception (q.spend cycles) :=
  ⟨h.decoded, h.thumb, h.bank, h.link, h.savedStatus, h.general, h.saved⟩

/-! ## Interrupts -/

/-- The program goes on as if it had not been interrupted. -/
structure Resumes (handler : Bank) (p r : Processor) : Prop extends Restored handler p r where
  pc : r.pc = p.pc
  decoded : r.pipeline.decoded = p.pipeline.decoded
  fetched : r.pipeline.fetched = p.pipeline.fetched

theorem pc_of_nextPc {p r : Processor} (hw : r.width = p.width) (h : r.nextPc = p.nextPc) :
    r.pc = p.pc := by
  change r.pc - r.width.bytes = p.pc - p.width.bytes at h
  rw [hw] at h
  rw [← UInt32.sub_add_cancel r.pc p.width.bytes, h, UInt32.sub_add_cancel]

theorem Coherent.nextPc_mod {p : Processor} (h : Coherent program p) :
    p.nextPc % p.width.bytes = 0 :=
  Width.sub_bytes_mod h.aligned

/-- Coherence fixes both slots by the program counter and the instruction set. -/
theorem Restored.resumes {handler : Bank} {p r : Processor} (h : Restored handler p r)
    (hp : Coherent program p) (hr : Coherent program r) (hn : r.nextPc = p.nextPc) :
    Resumes handler p r := by
  have hw : r.width = p.width := width_congr (congrArg Status.thumb h.status)
  have hpc : r.pc = p.pc := pc_of_nextPc hw hn
  refine ⟨h, hpc, ?_, ?_⟩
  · rw [hr.decoded, hp.decoded, hpc, hw]
  · rw [hr.fetched, hp.fetched, hpc, hw]

theorem Entered.resumes (hM : Fetches β program) {p q : Processor} {exception : Exception}
    {mode : Mode} {opcode : Word} (he : Entered program p exception q)
    (hr : Returns opcode exception.entry.linkOffset)
    (hv : program exception.entry.vector .word = opcode) (hp : Coherent program p)
    (hm : p.InMode mode) (hne : mode ≠ exception.entry.mode) (bus : β) :
    Resumes (Bank.ofMode exception.entry.mode) p (q.step bus).processor := by
  obtain ⟨hrestored, hcoherent, hn⟩ := he.returned hM hr hv hm hne bus
  rw [Width.align_of_mod hp.nextPc_mod] at hn
  exact hrestored.resumes hp hcoherent hn

theorem requestInterrupt_entered (hM : Fetches β program) {p : Processor} (bus : β)
    (hi : p.status.irqDisabled = false) (hl : p.locked = false) :
    Entered program p .interrupt (p.requestInterrupt bus).processor := by
  unfold requestInterrupt
  rw [hi, hl]
  exact (enterException_entered hM p bus .interrupt).spend _

theorem requestFastInterrupt_entered (hM : Fetches β program) {p : Processor} (bus : β)
    (hi : p.status.fiqDisabled = false) (hl : p.locked = false) :
    Entered program p .fastInterrupt (p.requestFastInterrupt bus).processor := by
  unfold requestFastInterrupt
  rw [hi, hl]
  exact (enterException_entered hM p bus .fastInterrupt).spend _

/-! ## Traps -/

/-- A step over a trapping instruction enters its exception. -/
theorem trap_step {p : Processor} {bus : β} {i : Instruction} {exception : Exception}
    (hi : p.Retires bus i) (ht : i.trap? = some exception) :
    p.step bus = (((p.advance bus).1.enterException (p.advance bus).2 exception).costing
      (p.advance bus).1.fetchTiming.seq).counted := by
  rw [step_of_retires hi]
  cases i with
  | softwareInterrupt =>
    cases ht
    rfl
  | undefined =>
    cases ht
    rfl
  | _ => cases ht

/-- Moving the pipeline on touches no storage but the program counter. -/
theorem Restored.of_advance {handler : Bank} {p r : Processor} {bus : β}
    (h : Restored handler (p.advance bus).1 r) : Restored handler p r := by
  have hg : ∀ place : Fin 31, place ≠ 30 →
      (p.advance bus).1.registers.general.get place = p.registers.general.get place := by
    intro place hpc
    exact RegisterFile.general_setPc_of_ne _ _ hpc
  refine ⟨h.status, h.bank, ?_, ?_, h.saved⟩
  · intro register hn
    rw [h.visible register hn]
    exact get_advance p bus hn
  · intro place hpc hlr
    rw [h.general place hpc hlr, hg place hpc]

/-! ## Transparency -/

/-- **Exceptions are transparent.** A handler that consists of the return instruction alone takes an
interrupted program back to where it was, and a trapped one to the instruction after the trap. It
leaves every register and all storage, but for the link and the saved status word of its bank. -/
theorem exceptions_transparent (hM : Fetches β program) {p : Processor} {mode : Mode}
    (hp : Coherent program p) (hm : p.InMode mode) (bus later : β) :
    (p.status.irqDisabled = false → p.locked = false → mode ≠ .irq →
      program 0x18 .word = interruptReturn →
        Resumes .irq p ((p.requestInterrupt bus).processor.step later).processor) ∧
    (p.status.fiqDisabled = false → p.locked = false → mode ≠ .fiq →
      program 0x1C .word = interruptReturn →
        Resumes .fiq p ((p.requestFastInterrupt bus).processor.step later).processor) ∧
    ∀ i exception, p.Retires bus i → i.trap? = some exception → mode ≠ exception.entry.mode →
      program exception.entry.vector .word = trapReturn →
        Restored (Bank.ofMode exception.entry.mode) p
            ((p.step bus).processor.step later).processor ∧
          Coherent program ((p.step bus).processor.step later).processor ∧
          ((p.step bus).processor.step later).processor.nextPc = p.nextPc + p.width.bytes := by
  refine ⟨fun hi hl hne hv => ?_, fun hi hl hne hv => ?_, fun i exception hi ht hne hv => ?_⟩
  · have he := requestInterrupt_entered hM bus hi hl
    exact he.resumes hM interruptReturn_returns hv hp hm hne later
  · have he := requestFastInterrupt_entered hM bus hi hl
    exact he.resumes hM interruptReturn_returns hv hp hm hne later
  · have he : Entered program (p.advance bus).1 exception (p.step bus).processor := by
      rw [trap_step hi ht]
      exact (enterException_entered hM (p.advance bus).1 (p.advance bus).2 exception).spend _
    have hret : Returns trapReturn exception.entry.linkOffset := by
      cases i <;> cases ht <;> exact trapReturn_returns
    obtain ⟨hrestored, hcoherent, hn⟩ := he.returned hM hret hv ⟨hm.mode?, hm.bank⟩ hne later
    have hpc : (p.advance bus).1.nextPc = p.pc := by
      show (p.advance bus).1.pc - p.width.bytes = p.pc
      rw [pc_advance, UInt32.add_sub_cancel]
    refine ⟨hrestored.of_advance, hcoherent, ?_⟩
    rw [hn, hpc]
    show p.width.align p.pc = p.pc - p.width.bytes + p.width.bytes
    rw [Width.align_of_mod hp.aligned, UInt32.sub_add_cancel]

/-- Handlers that return at once, and a cartridge whose first instruction is a software
interrupt. -/
def returning (address : Word) (_ : Width) : Word :=
  if address = 0x18 ∨ address = 0x1C then interruptReturn
  else if address = 0x04 ∨ address = 0x08 then trapReturn
  else if address = cartridgeEntry then 0xEF000000
  else 0xE1A00000

/-- The cartridge of the returning handlers about to start. -/
def returningStart : Processor := (powerOn.bootDirect (⟨⟩ : Listing returning)).processor

/-- Both interrupts and the software interrupt, from system mode on a cartridge. -/
theorem exceptions_transparent_cartridge :
    Coherent returning returningStart ∧ returningStart.InMode .system ∧
      Resumes .irq returningStart
        ((returningStart.requestInterrupt (⟨⟩ : Listing returning)).processor.step
          (⟨⟩ : Listing returning)).processor ∧
      Resumes .fiq returningStart
        ((returningStart.requestFastInterrupt (⟨⟩ : Listing returning)).processor.step
          (⟨⟩ : Listing returning)).processor ∧
      Restored .supervisor returningStart
        ((returningStart.step (⟨⟩ : Listing returning)).processor.step
          (⟨⟩ : Listing returning)).processor ∧
      ((returningStart.step (⟨⟩ : Listing returning)).processor.step
        (⟨⟩ : Listing returning)).processor.nextPc = 0x08000004 := by
  have hp : Coherent returning returningStart :=
    (refill_coherent (Listing.fetches returning) _ _ cartridgeEntry).spend _
  have hm : returningStart.InMode .system := ⟨by decide +kernel, by decide +kernel⟩
  obtain ⟨hirq, hfiq, htrap⟩ :=
    exceptions_transparent (Listing.fetches returning) hp hm ⟨⟩ ⟨⟩
  have hi : returningStart.Retires (⟨⟩ : Listing returning) .softwareInterrupt :=
    ⟨by decide +kernel, by decide +kernel⟩
  obtain ⟨hswi, -, hn⟩ := htrap _ .softwareInterrupt hi rfl (by decide) (by decide)
  have hnext : returningStart.nextPc + returningStart.width.bytes = 0x08000004 := by
    decide +kernel
  exact ⟨hp, hm, hirq (by decide +kernel) (by decide +kernel) (by decide) (by decide),
    hfiq (by decide +kernel) (by decide +kernel) (by decide) (by decide), hswi, hn.trans hnext⟩

end Processor

end Handheld
