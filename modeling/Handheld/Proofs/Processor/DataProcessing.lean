import Handheld.Proofs.Processor.Assembly
import Handheld.Proofs.Processor.Computing
import Handheld.Proofs.Processor.Executing
import Handheld.Proofs.Processor.Exceptions
import Handheld.Proofs.Processor.Twins

/-!
# Data processing

An opcode of data processing computes from a register and a second operand. Its result goes into a
register, and its flags into the status word. A result in the program counter is a branch, and with
the flags it is a return: the status word is restored.

1. `Arm.IsDataProcessing` are the opcodes by their bits, and `Arm.SecondOperand` reads the second
   operand off them (`decodeBody_process`).
2. `Processed` is what such an instruction leaves. It ends with a result (`Flagged.processed_set`),
   without one (`Flagged.processed_test`) or with a branch (`Flagged.processed_branch`).
3. `dataProcessing_step` is one step over any of the opcodes in any state that can be reached.
-/

namespace Handheld

/-! ## Opcodes -/

namespace Arm

/-- The opcodes of data processing: no multiplication or transfer, which have bits 4 and 7 set, and
no test that sets no flags. -/
structure IsDataProcessing (opcode : Word) : Prop where
  group : opcode.toNat / 2 ^ 26 % 4 = 0
  second : opcode.toNat / 2 ^ 25 % 2 = 1 ∨ opcode.toNat / 2 ^ 4 % 2 = 0 ∨
    opcode.toNat / 2 ^ 7 % 2 = 0
  flags : opcode.toNat / 2 ^ 23 % 4 = 2 → opcode.toNat / 2 ^ 20 % 2 = 1

/-- The second operand of an opcode of data processing. -/
inductive SecondOperand (opcode : Word) : Operand → Prop
  /-- A byte, rotated by an even amount. -/
  | rotated {constant amount : Word} (hgroup : opcode.toNat / 2 ^ 25 % 2 = 1)
    (hconstant : constant.toNat = opcode.toNat % 2 ^ 8)
    (hamount : amount.toNat = 2 * (opcode.toNat / 2 ^ 8 % 2 ^ 4)) :
    SecondOperand opcode (.rotated constant amount)
  /-- A register shifted by a field of five bits. -/
  | shifted {register : Register} {shift : Shift} {amount : Word}
    (hgroup : opcode.toNat / 2 ^ 25 % 2 = 0) (h4 : opcode.toNat / 2 ^ 4 % 2 = 0)
    (hregister : register.val = opcode.toNat % 2 ^ 4)
    (hshift : shift.code = opcode.toNat / 2 ^ 5 % 2 ^ 2)
    (hamount : amount.toNat = opcode.toNat / 2 ^ 7 % 2 ^ 5) :
    SecondOperand opcode (.shifted register shift amount)
  /-- A register shifted by another. -/
  | shiftedBy {register amount : Register} {shift : Shift}
    (hgroup : opcode.toNat / 2 ^ 25 % 2 = 0) (h4 : opcode.toNat / 2 ^ 4 % 2 = 1)
    (h7 : opcode.toNat / 2 ^ 7 % 2 = 0) (hregister : register.val = opcode.toNat % 2 ^ 4)
    (hshift : shift.code = opcode.toNat / 2 ^ 5 % 2 ^ 2)
    (hamount : amount.val = opcode.toNat / 2 ^ 8 % 2 ^ 4) :
    SecondOperand opcode (.shiftedBy register shift amount)

/-- Every opcode of data processing has an operation and two registers. -/
theorem IsDataProcessing.processFields {opcode : Word} (h : IsDataProcessing opcode) :
    ∃ operation setFlags destination first,
      ProcessFields opcode operation setFlags destination first := by
  obtain ⟨operation, hcode⟩ :=
    Operation.exists_code (n := opcode.toNat / 2 ^ 21 % 16) (Nat.mod_lt _ (by decide))
  refine ⟨operation, bit opcode 20, ⟨opcode.toNat / 2 ^ 12 % 16, Nat.mod_lt _ (by decide)⟩,
    ⟨opcode.toNat / 2 ^ 16 % 16, Nat.mod_lt _ (by decide)⟩, hcode.symm, (toNat_bit 20 rfl).symm,
    rfl, rfl, ?_⟩
  by_cases htest : operation.code / 4 = 2
  · exact .inr (bit_set 20 rfl (h.flags (by omega)))
  · exact .inl (Operation.writesResult_iff.mpr htest)

/-- Every opcode of data processing has a second operand. -/
theorem IsDataProcessing.secondOperand {opcode : Word} (h : IsDataProcessing opcode) :
    ∃ second, SecondOperand opcode second := by
  have hfield (n : Nat) (hn : n < 2 ^ 32) : (UInt32.ofNat n).toNat = n :=
    UInt32.toNat_ofNat_of_lt' hn
  by_cases hgroup : opcode.toNat / 2 ^ 25 % 2 = 1
  · exact ⟨_, .rotated hgroup (hfield _ (by omega)) (hfield _ (by omega))⟩
  obtain ⟨shift, hshift⟩ :=
    Shift.exists_code (n := opcode.toNat / 2 ^ 5 % 2 ^ 2) (Nat.mod_lt _ (by decide))
  let register : Register := ⟨opcode.toNat % 2 ^ 4, Nat.mod_lt _ (by decide)⟩
  let amount : Register := ⟨opcode.toNat / 2 ^ 8 % 2 ^ 4, Nat.mod_lt _ (by decide)⟩
  by_cases h4 : opcode.toNat / 2 ^ 4 % 2 = 0
  · exact ⟨.shifted register shift (UInt32.ofNat (opcode.toNat / 2 ^ 7 % 2 ^ 5)),
      .shifted (by omega) h4 rfl hshift (hfield _ (by omega))⟩
  · refine ⟨.shiftedBy register shift amount, .shiftedBy (by omega) (by omega) ?_ rfl hshift rfl⟩
    rcases h.second with h25 | h4' | h7
    · exact absurd h25 hgroup
    · exact absurd h4' h4
    · exact h7

/-- Decoding reads the fields. -/
theorem decodeBody_process {opcode : Word} (h : IsDataProcessing opcode) {operation : Operation}
    {setFlags : Bool} {destination first : Register} {second : Operand}
    (hfields : ProcessFields opcode operation setFlags destination first)
    (hsecond : SecondOperand opcode second) :
    decodeBody opcode = .process operation setFlags destination first second := by
  have hgroup := h.group
  cases hsecond with
  | @rotated constant amount h25 hconstant hamount =>
    have hbyte : opcode &&& 0xFF = constant := and_eq_of_toNat 8 rfl hconstant.symm
    have hrotation : field opcode 8 0xF * 2 = amount := by
      rw [← UInt32.toNat_inj, UInt32.toNat_mul, toNat_field opcode 8 4 rfl rfl, hamount]
      show _ * 2 % 2 ^ 32 = _
      omega
    rw [hfields.decodeBody_constant (by omega), rotatedConstant, hbyte, hrotation]
  | @shifted register shift amount h25 h4 hregister hshift hamount =>
    have hbit : bit opcode 4 = false := bit_clear 4 rfl h4
    have h0 : registerField opcode 0 = register := registerField_eq 0 rfl (by omega)
    have h5 : Shift.ofCode (opcode >>> 5) = shift := Shift.ofCode_eq 5 rfl hshift.symm
    have h7 : field opcode 7 0x1F = amount := field_eq 7 rfl 5 rfl hamount.symm
    rw [hfields.decodeBody_register (by omega) (.inl h4), shiftedRegister, hbit, h0, h5, h7]
    rfl
  | @shiftedBy register amount shift h25 h4 h7 hregister hshift hamount =>
    have hbit : bit opcode 4 = true := bit_set 4 rfl h4
    have h0 : registerField opcode 0 = register := registerField_eq 0 rfl (by omega)
    have h5 : Shift.ofCode (opcode >>> 5) = shift := Shift.ofCode_eq 5 rfl hshift.symm
    have h8 : registerField opcode 8 = amount := registerField_eq 8 rfl hamount.symm
    rw [hfields.decodeBody_register (by omega) (.inr h7), shiftedRegister, hbit, h0, h5, h8]
    rfl

end Arm

/-! ## Flags and the saved status word -/

/-- The modes with a saved status word of their own. -/
def Mode.HasSaved (mode : Mode) : Prop := mode ≠ .user ∧ mode ≠ .system

theorem Mode.hasSaved_iff {mode : Mode} : mode.HasSaved ↔ Bank.ofMode mode ≠ .user := by
  cases mode <;> simp [HasSaved, Bank.ofMode]

/-- The status word that a saved one and the current one give: a reserved mode field is replaced by
the current one. -/
def restoredBits (saved current : Word) : Word :=
  if (Mode.ofBits? saved).isSome then saved
  else saved &&& ~~~Mode.fieldMask ||| (current &&& Mode.fieldMask)

theorem restoredBits_congr {saved a b : Word} (h : a &&& Mode.fieldMask = b &&& Mode.fieldMask) :
    restoredBits saved a = restoredBits saved b := by
  unfold restoredBits
  rw [h]

namespace Processor

variable {β : Type} [Bus β]

/-- A saved status word that is restored brings its mode, if it has one. -/
theorem restoreStatus_restores {p : Processor} {mode : Mode} (h : p.InMode mode)
    (hs : mode.HasSaved) :
    p.restoreStatus.status.bits = restoredBits p.registers.savedStatus p.status.bits ∧
      p.restoreStatus.InMode ((Mode.ofBits? p.registers.savedStatus).getD mode) := by
  have hbank : p.registers.bank ≠ .user := by
    rw [h.bank]
    exact Mode.hasSaved_iff.mp hs
  have hsaved : p.registers.hasSavedStatus = true := bne_iff_ne.mpr hbank
  unfold restoreStatus writeStatus restoredBits
  rw [if_pos hsaved]
  cases hmode : Mode.ofBits? p.registers.savedStatus with
  | some restored => exact ⟨rfl, hmode, rfl⟩
  | none =>
    refine ⟨rfl, ?_, h.bank⟩
    rw [Option.getD_none, ← h.mode?]
    exact Mode.ofBits?_congr (insert_and_self _ (and_and_self ..))

theorem restoreStatus_eq {p : Processor} {mode : Mode} (h : p.InMode mode) (hs : ¬ mode.HasSaved) :
    p.restoreStatus = p := by
  have hbank : p.registers.bank = .user := by
    rw [h.bank]
    exact not_not.mp (mt Mode.hasSaved_iff.mpr hs)
  have hsaved : ¬ p.registers.hasSavedStatus = true := by simp [RegisterFile.hasSavedStatus, hbank]
  exact if_neg hsaved

/-- A processor that goes on with its saved status word, or as it is. -/
def restoredIf (p : Processor) (restore : Bool) : Processor :=
  if restore then p.restoreStatus else p

theorem completePcWrite_eq (p : Processor) (bus : β) (restore : Bool) :
    p.completePcWrite bus restore =
      (p.restoredIf restore).refill bus (p.restoredIf restore).pc := rfl

theorem general_restoredIf (p : Processor) (restore : Bool) :
    (p.restoredIf restore).registers.general = p.registers.general := by
  unfold restoredIf
  split
  · exact general_restoreStatus p
  · rfl

theorem saved_restoredIf (p : Processor) (restore : Bool) :
    (p.restoredIf restore).registers.saved = p.registers.saved := by
  unfold restoredIf
  split
  · exact saved_restoreStatus p
  · rfl

/-- Without a saved status word nothing is restored. -/
theorem restoredIf_eq {p : Processor} {mode : Mode} (h : p.InMode mode) {restore : Bool}
    (hs : ¬ (restore = true ∧ mode.HasSaved)) : p.restoredIf restore = p := by
  unfold restoredIf
  split
  case isTrue hr => exact restoreStatus_eq h fun hm => hs ⟨hr, hm⟩
  case isFalse => rfl

/-- The program counter is written with the flags, in a mode that has a saved status word. -/
structure RestoresStatus (mode : Mode) (operation : Operation) (setFlags : Bool)
    (destination : Register) : Prop where
  written : operation.writesResult = true
  flags : setFlags = true
  counter : destination = Register.pc
  mode : mode.HasSaved

/-- What data processing leaves of a processor in a mode, by the result of its operation. -/
structure Processed (p : Processor) (bus : β) (mode : Mode) (operation : Operation)
    (setFlags : Bool) (destination : Register) (result : Computed) (q : Processor) : Prop where
  wrote : Wrote (fun register =>
    if operation.writesResult = true ∧ register = destination then some result.value else none) p q
  next : ¬ (operation.writesResult = true ∧ destination = Register.pc) → q.nextPc = p.nextPc + 4
  branches : operation.writesResult = true → destination = Register.pc →
    Refilled (p.advance bus).2 (q.width.align result.value) q
  kept : setFlags = false → q.status = p.status
  flags : setFlags = true → ¬ RestoresStatus mode operation setFlags destination →
    q.status.flags = result.flags ∧
      q.status.bits &&& ~~~Status.flagsMask = p.status.bits &&& ~~~Status.flagsMask
  stays : ¬ RestoresStatus mode operation setFlags destination → q.InMode mode
  restored : RestoresStatus mode operation setFlags destination →
    q.status.bits = restoredBits p.registers.savedStatus p.status.bits ∧
      q.InMode ((Mode.ofBits? p.registers.savedStatus).getD mode)

/-! ## Endings -/

section Endings

variable {p : Processor} {bus : β} {mode : Mode} {operation : Operation} {setFlags : Bool}
  {destination : Register} {result : Computed} {q : Processor}

theorem Processed.spend (h : Processed p bus mode operation setFlags destination result q)
    (cycles : UInt32) :
    Processed p bus mode operation setFlags destination result (q.spend cycles) where
  wrote := h.wrote.congr (fun _ _ => rfl) rfl
  next := h.next
  branches hw hd := (h.branches hw hd).congr rfl rfl rfl
  kept := h.kept
  flags := h.flags
  stays hr := ⟨(h.stays hr).mode?, (h.stays hr).bank⟩
  restored hr := ⟨(h.restored hr).1, (h.restored hr).2.mode?, (h.restored hr).2.bank⟩

/-- A processor that has moved on by one opcode, and may have had its flags set. -/
structure Flagged (p : Processor) (bus : β) (setFlags : Bool) (flags : Flags) (q : Processor) :
    Prop where
  registers : q.registers = (p.advance bus).1.registers
  status : q.status = if setFlags then p.status.setFlags flags else p.status

theorem flagged_advance (p : Processor) (bus : β) (setFlags : Bool) (flags : Flags) :
    Flagged p bus setFlags flags
      (if setFlags then (p.advance bus).1.setFlags flags else (p.advance bus).1) := by
  cases setFlags
  · exact ⟨rfl, rfl⟩
  · exact ⟨rfl, rfl⟩

namespace Flagged

theorem bits_and {flags : Flags} (h : Flagged p bus setFlags flags q) {k : Word}
    (hk : Status.flagsMask &&& k = 0) : q.status.bits &&& k = p.status.bits &&& k := by
  rw [h.status]
  split
  · exact p.status.setFlags_and flags hk
  · rfl

theorem thumb {flags : Flags} (h : Flagged p bus setFlags flags q) : q.thumb = p.thumb :=
  Status.has_congr (h.bits_and (by decide))

theorem inMode {flags : Flags} (h : Flagged p bus setFlags flags q) (hm : p.InMode mode) :
    q.InMode mode where
  mode? := (Mode.ofBits?_congr (h.bits_and (by decide))).trans hm.mode?
  bank := by
    rw [h.registers]
    exact hm.bank

theorem nextPc {flags : Flags} (h : Flagged p bus setFlags flags q) (ht : p.thumb = false) :
    q.nextPc = p.nextPc + 4 := by
  have hadvance := nextPc_advance p bus
  rw [width_of_arm ht] at hadvance
  rw [show (4 : Word) = Width.word.bytes from rfl, ← hadvance]
  unfold Processor.nextPc
  rw [h.registers, width_congr h.thumb]
  rfl

theorem wrote {flags : Flags} (h : Flagged p bus setFlags flags q) : Wrote (fun _ => none) p q := by
  refine (wrote_advance p bus).congr (fun place _ => ?_) ?_
  · rw [h.registers]
  · rw [h.registers]

variable (destination) in
theorem wrote_set {flags : Flags} (h : Flagged p bus setFlags flags q)
    (hw : operation.writesResult = true) (value : Word) :
    Wrote (fun register =>
      if operation.writesResult = true ∧ register = destination then some value else none) p
      (q.set destination value) := by
  have hbank : q.registers.bank = p.registers.bank := by
    rw [h.registers]
    rfl
  exact (h.wrote.set hbank destination value).congr_writes fun register _ => by simp [hw]

/-- Where the program counter is not written, the status word has its flags at most. -/
theorem processed {r : Processor} (h : Flagged p bus setFlags result.flags q) (hm : p.InMode mode)
    (ht : p.thumb = false) (hn : ¬ (operation.writesResult = true ∧ destination = Register.pc))
    (hw : Wrote (fun register =>
      if operation.writesResult = true ∧ register = destination then some result.value else none)
      p r)
    (hs : r.status = q.status) (hb : r.registers.bank = q.registers.bank) (hpc : r.pc = q.pc) :
    Processed p bus mode operation setFlags destination result r where
  wrote := hw
  next _ := by
    rw [← h.nextPc ht]
    show r.pc - r.width.bytes = q.pc - q.width.bytes
    rw [hpc, width_congr (show r.thumb = q.thumb from congrArg Status.thumb hs)]
  branches hwrites hd := absurd ⟨hwrites, hd⟩ hn
  kept hf := by
    rw [hs, h.status, if_neg (by simp [hf])]
  flags hf _ := by
    refine ⟨?_, ?_⟩
    · rw [hs, h.status, if_pos hf]
      exact Status.flags_setFlags ..
    · rw [hs]
      exact h.bits_and (by decide)
  stays _ := by
    obtain ⟨hmode, hbank⟩ := h.inMode hm
    exact ⟨hs ▸ hmode, hb.trans hbank⟩
  restored hr := absurd ⟨hr.written, hr.counter⟩ hn

theorem processed_set (h : Flagged p bus setFlags result.flags q) (hm : p.InMode mode)
    (ht : p.thumb = false) (hw : operation.writesResult = true) (hd : destination ≠ Register.pc) :
    Processed p bus mode operation setFlags destination result (q.set destination result.value) :=
  h.processed hm ht (fun hn => hd hn.2) (h.wrote_set destination hw result.value) rfl
    (q.bank_set ..) (RegisterFile.pc_set_of_ne _ _ hd)

theorem processed_test (h : Flagged p bus setFlags result.flags q) (hm : p.InMode mode)
    (ht : p.thumb = false) (hw : ¬ operation.writesResult = true) :
    Processed p bus mode operation setFlags destination result q :=
  h.processed hm ht (fun hn => hw hn.1) (h.wrote.congr_writes fun register _ => by simp [hw]) rfl
    rfl rfl

/-- Where the program counter is written, the pipeline is refilled after the status word may have
been restored. -/
theorem processed_branch (h : Flagged p bus setFlags result.flags q) (hm : p.InMode mode)
    (hw : operation.writesResult = true) (hd : destination = Register.pc) :
    Processed p bus mode operation setFlags destination result
      ((q.set destination result.value).completePcWrite (p.advance bus).2 setFlags).processor := by
  have hwrote := h.wrote_set destination hw result.value
  have hset : (q.set destination result.value).InMode mode :=
    ⟨(h.inMode hm).mode?, (q.bank_set ..).trans (h.inMode hm).bank⟩
  have hpc : (q.set destination result.value).pc = result.value := pc_set q hd result.value
  have hstatus : (q.set destination result.value).status = q.status := rfl
  have hsaved : (q.set destination result.value).registers.savedStatus =
      p.registers.savedStatus := by
    refine (RegisterFile.savedStatus_write ..).trans ?_
    rw [h.registers]
    rfl
  rw [completePcWrite_eq]
  generalize q.set destination result.value = written at *
  have hgeneral := general_restoredIf written setFlags
  have hslots := saved_restoredIf written setFlags
  -- only a return changes more than the flags
  have hstays : ¬ RestoresStatus mode operation setFlags destination →
      written.restoredIf setFlags = written :=
    fun hn => restoredIf_eq hset fun hs => hn ⟨hw, hs.1, hd, hs.2⟩
  have hreturns : RestoresStatus mode operation setFlags destination →
      written.restoredIf setFlags = written.restoreStatus := fun hr => if_pos hr.flags
  generalize written.restoredIf setFlags = restored at *
  have hcounter : restored.pc = result.value :=
    (restored.registers.pc_eq_general.trans
      ((congrArg (fun general : Vector Word 31 => general.get 30) hgeneral).trans
        written.registers.pc_eq_general.symm)).trans hpc
  exact
    { wrote := hwrote.congr
        (fun place hp => (general_refill _ _ _ hp).trans (by rw [hgeneral])) hslots
      next := fun hn => absurd ⟨hw, hd⟩ hn
      branches := fun _ _ => by
        rw [← hcounter]
        exact refill_refilled restored (p.advance bus).2 restored.pc
      kept := fun hf => by
        have hn : ¬ RestoresStatus mode operation setFlags destination := fun hr => by
          simpa [hf] using hr.flags
        show restored.status = p.status
        rw [hstays hn, hstatus, h.status, if_neg (by simp [hf])]
      flags := fun hf hn => by
        show restored.status.flags = _ ∧ restored.status.bits &&& _ = _
        rw [hstays hn, hstatus]
        refine ⟨?_, h.bits_and (by decide)⟩
        rw [h.status, if_pos hf]
        exact Status.flags_setFlags ..
      stays := fun hn => by
        have hmode : restored.InMode mode := hstays hn ▸ hset
        exact ⟨hmode.mode?, hmode.bank⟩
      restored := fun hr => by
        obtain ⟨hbits, hmode⟩ := restoreStatus_restores hset hr.mode
        rw [← hreturns hr, hsaved, hstatus, restoredBits_congr (h.bits_and (by decide))] at hbits
        rw [← hreturns hr, hsaved] at hmode
        exact ⟨hbits, hmode.mode?, hmode.bank⟩ }

end Flagged

end Endings

/-! ## Steps -/

/-- The result of data processing, of what its opcode sees. -/
def processedResult (p : Processor) (operation : Operation) (first : Register) (second : Operand) :
    Computed :=
  operation.compute (p.seen second.ahead first)
    (second.result (p.seen second.ahead) p.status.carry).value
    (second.result (p.seen second.ahead) p.status.carry).carry p.status.flags

/-- Data processing has one of three endings. -/
theorem process_processed {p : Processor} {mode : Mode} (hm : p.InMode mode) (ht : p.thumb = false)
    (bus : β) (operation : Operation) (setFlags : Bool) (destination first : Register)
    (second : Operand) :
    Processed p bus mode operation setFlags destination
      (p.processedResult operation first second)
      ((p.advance bus).1.process (p.advance bus).2 operation setFlags destination first
        second).processor := by
  have hahead : 8 + second.distance Width.word = second.ahead := by cases second <;> rfl
  have hresult : operation.compute
      ((p.advance bus).1.getAhead first (second.distance (p.advance bus).1.width))
      (second.evaluate (p.advance bus).1).value (second.evaluate (p.advance bus).1).carry
      (p.advance bus).1.status.flags = p.processedResult operation first second := by
    rw [getAhead_advance ht, width_advance ht, hahead, evaluate_advance ht]
    rfl
  have hflagged :=
    flagged_advance p bus setFlags (p.processedResult operation first second).flags
  unfold process
  simp only
  rw [hresult]
  generalize (if setFlags then (p.advance bus).1.setFlags _ else (p.advance bus).1) = q
    at hflagged ⊢
  split_ifs with hw hd
  · exact hflagged.processed_branch hm hw hd
  · exact hflagged.processed_set hm ht hw hd
  · exact hflagged.processed_test hm ht hw

/-- **Data processing.** In a reachable state, on every bus, a step over an opcode of data
processing whose condition holds computes what its operation means from what its fields see: the
program counter eight bytes ahead of the opcode, or twelve where a register is shifted by the low
byte of another. The result goes into its register and the flags into the status word, and nothing
else changes but that the program goes on: after the opcode, or at a result written into the program
counter. With the flags such a write first restores the saved status word, where the mode has one.
-/
theorem dataProcessing_step {p : Processor} (hp : Reachable p) (ht : p.thumb = false)
    (ho : Arm.IsDataProcessing p.pipeline.decoded)
    (hc : (Condition.ofCode (p.pipeline.decoded >>> 28)).holds p.status.flags = true) (bus : β) :
    ∃ operation setFlags destination first second,
      Arm.ProcessFields p.pipeline.decoded operation setFlags destination first ∧
      Arm.SecondOperand p.pipeline.decoded second ∧
      ∃ mode operand result, p.InMode mode ∧
        operand = second.result (p.seen second.ahead) p.status.carry ∧
        (operation.meaning p.status.flags.c).Gives (p.seen second.ahead first) operand.value
          operand.carry p.status.flags.v result ∧
        Processed p bus mode operation setFlags destination result (p.step bus).processor := by
  obtain ⟨operation, setFlags, destination, first, hfields⟩ := ho.processFields
  obtain ⟨second, hsecond⟩ := ho.secondOperand
  obtain ⟨mode, hm⟩ := hp.agrees
  refine ⟨operation, setFlags, destination, first, second, hfields, hsecond, mode, _,
    p.processedResult operation first second, hm, rfl, operation.compute_gives .., ?_⟩
  rw [step_of_retires (retires_arm ht hc (Arm.decodeBody_process ho hfields hsecond))]
  exact (process_processed hm ht bus operation setFlags destination first second).spend _

/-- The handler of an interrupt on the cartridge about to return. -/
def handlerStart : Processor :=
  (returningStart.requestInterrupt (⟨⟩ : Listing returning)).processor

/-- The return from the handler is a subtraction that restores system mode. -/
theorem dataProcessing_step_return :
    Reachable handlerStart ∧ handlerStart.thumb = false ∧
      Arm.IsDataProcessing handlerStart.pipeline.decoded ∧
      (Condition.ofCode (handlerStart.pipeline.decoded >>> 28)).holds handlerStart.status.flags =
        true ∧
      handlerStart.InMode .irq ∧
      (handlerStart.step (⟨⟩ : Listing returning)).processor.status.bits = 0x1F ∧
      (handlerStart.step (⟨⟩ : Listing returning)).processor.InMode .system := by
  have hreachable : Reachable handlerStart :=
    (Reachable.powerOn.bootDirect (⟨⟩ : Listing returning)).requestInterrupt (⟨⟩ : Listing returning)
  have hopcode : handlerStart.pipeline.decoded = interruptReturn := by decide +kernel
  have ho : Arm.IsDataProcessing handlerStart.pipeline.decoded := by
    rw [hopcode]
    exact ⟨by decide, by decide, by decide⟩
  have ht : handlerStart.thumb = false := by decide +kernel
  have hc : (Condition.ofCode (handlerStart.pipeline.decoded >>> 28)).holds
      handlerStart.status.flags = true := by decide +kernel
  have hirq : handlerStart.InMode .irq := ⟨by decide +kernel, by decide +kernel⟩
  have hsaved : handlerStart.registers.savedStatus = 0x1F := by decide +kernel
  obtain ⟨operation, setFlags, destination, first, second, hfields, -, mode, operand, result, hm, -,
    -, hq⟩ := dataProcessing_step hreachable ht ho hc (⟨⟩ : Listing returning)
  rw [hopcode] at hfields
  have hmode : mode = .irq := (mode_of_inMode hm).symm.trans (mode_of_inMode hirq)
  have hreturn : RestoresStatus mode operation setFlags destination := by
    refine ⟨Operation.writesResult_iff.mpr ?_, ?_, Fin.ext hfields.result.symm, ?_⟩
    · rw [← hfields.code]
      decide
    · exact Bool.toNat_eq_one.mp hfields.flag.symm
    · rw [hmode]
      exact ⟨by decide, by decide⟩
  obtain ⟨hbits, hsystem⟩ := hq.restored hreturn
  rw [hsaved] at hbits hsystem
  exact ⟨hreachable, ht, ho, hc, hirq, hbits, hsystem⟩

end Processor

end Handheld
