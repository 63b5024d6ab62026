import Handheld.Processor.Step
import Handheld.Proofs.Processor.Computing
import Handheld.Proofs.Processor.Decode.Arm
import Handheld.Proofs.Processor.Decode.Thumb
import Handheld.Proofs.Processor.Execute
import Handheld.Proofs.Processor.Status

/-!
# The two engines

Each engine executes what its opcodes mean. The engines share no code above the adder, the shifter
and the transfers, so the agreement is shown format by format.

1. `evaluate_rotated` is the rotated constant of the 32-bit forms, which comes to four times the
   constant of a 16-bit form (`evaluate_rotated_thirty`).
2. `Arm.execute_eq` and `Thumb.execute_eq` put the formats of an engine together along the groups
   of its opcodes.
3. `Processor.executeCurrent_eq` is the step's way into them: the condition of the opcode is asked
   once, and the instruction it means is executed.
-/

namespace Handheld

/-! ## Operands -/

theorem lowRegisterField_ne_pc (opcode position : Word) :
    lowRegisterField opcode position ≠ Register.pc := by
  intro h
  have hv : (field opcode position 7).toNat % 16 = 15 := congrArg Fin.val h
  have hf : (field opcode position 7).toNat ≤ 7 := toNat_and_le ..
  omega

theorem Processor.getAhead_zero (p : Processor) (register : Register) :
    p.getAhead register 0 = p.get register := by
  unfold getAhead
  split
  next h => rw [h, UInt32.add_zero]; rfl
  next => rfl

namespace Operand

variable (p : Processor) (constant : Word)

theorem evaluate_rotated_thirty {constant : Word} (h : constant.toNat < 2 ^ 8) :
    ((Operand.rotated constant 30).evaluate p).value = constant * 4 :=
  rotateRight_thirty h

theorem evaluate_rotated {amount : Word} (h : amount &&& 31 = amount) :
    ((Operand.rotated constant amount).evaluate p).value = rotateRight constant amount := by
  show (Shift.rotate constant amount p.status.carry).value = _
  unfold Shift.rotate
  split
  next h0 =>
    rw [h0]
    exact (rotateRight_zero constant).symm
  next => exact congrArg (rotateRight constant) h

end Operand

variable {β : Type} [Bus β] (p : Processor) (bus : β) {opcode : Word}

/-! ## The 32-bit engine -/

namespace Arm

theorem executeBranch_eq :
    executeBranch p bus opcode =
      p.execute bus (.branch (signExtend 24 opcode <<< 2) (bit opcode 24)) := by
  have hoffset : ((opcode <<< 8).toInt32 >>> 6).toUInt32 = signExtend 24 opcode <<< 2 :=
    signedShift_six opcode
  rw [executeBranch, hoffset]
  rfl

/-- With a constant as its second operand. -/
theorem executeDataProcessing_constant (h : bit opcode 25 = true) :
    executeDataProcessing p bus opcode =
      p.execute bus (process opcode (rotatedConstant opcode)) := by
  simp only [executeDataProcessing, h, if_true]
  rfl

/-- With a register as its second operand. -/
theorem executeDataProcessing_register (h : bit opcode 25 = false) :
    executeDataProcessing p bus opcode =
      p.execute bus (process opcode (shiftedRegister opcode)) := by
  simp only [executeDataProcessing, shiftedRegister, h]
  cases bit opcode 4 <;> rfl

/-- In user mode a write reaches only the byte of the flags, whether or not it asks for more. -/
theorem writable_eq (privileged : Bool) (mask : Word) :
    (if !privileged && mask &&& 0x00FFFFFF != 0 then mask &&& 0xFF000000 else mask) =
      if privileged then mask else mask &&& 0xFF000000 := by
  have hsplit : mask &&& 0x00FFFFFF ||| mask &&& 0xFF000000 = mask := by
    rw [← and_or]
    exact UInt32.and_neg_one
  cases privileged with
  | true => rfl
  | false =>
    by_cases h : mask &&& 0x00FFFFFF = 0
    · rw [h, UInt32.zero_or] at hsplit
      simp [h, hsplit]
    · simp [h]

theorem executeStatusTransfer_eq {source : Operand}
    (h : (source.evaluate p).value =
      if bit opcode 25 then rotateRight (opcode &&& 0xFF) (field opcode 8 0xF * 2)
      else p.get (registerField opcode 0)) :
    executeStatusTransfer p bus opcode = p.execute bus (statusTransfer opcode source) := by
  unfold executeStatusTransfer statusTransfer
  cases bit opcode 21 with
  | false => rfl
  | true =>
    simp only [if_true, writable_eq, ← h]
    cases hsaved : bit opcode 22 <;> rfl

theorem executeMultiply_eq :
    executeMultiply p bus opcode = p.execute bus (multiply opcode) := by
  unfold executeMultiply multiply
  cases bit opcode 21 <;> rfl

theorem executeMultiplyGroup_eq :
    executeMultiplyGroup p bus opcode = p.execute bus (decodeMultiply opcode) := by
  unfold executeMultiplyGroup decodeMultiply
  rw [executeMultiply_eq]
  split_ifs <;> rfl

theorem executeHalfwordTransfer_eq :
    executeHalfwordTransfer p bus opcode = p.execute bus (halfwordTransfer opcode) := by
  unfold executeHalfwordTransfer halfwordTransfer
  cases bit opcode 22 <;> rfl

theorem executeRegisterGroup_eq (h : bit opcode 25 = false) :
    executeRegisterGroup p bus opcode = p.execute bus (decodeRegisterGroup opcode) := by
  have hstatus : executeStatusTransfer p bus opcode =
      p.execute bus (statusTransfer opcode (.register (registerField opcode 0))) :=
    executeStatusTransfer_eq p bus (by rw [h]; rfl)
  unfold executeRegisterGroup decodeRegisterGroup
  rw [executeMultiplyGroup_eq, executeHalfwordTransfer_eq, hstatus,
    executeDataProcessing_register p bus h]
  split_ifs <;> rfl

theorem executeConstantGroup_eq (h : bit opcode 25 = true) :
    executeConstantGroup p bus opcode = p.execute bus (decodeConstantGroup opcode) := by
  have hamount : field opcode 8 0xF * 2 &&& 31 = field opcode 8 0xF * 2 := by
    refine and_eq_of_toNat 5 rfl (Nat.mod_eq_of_lt ?_)
    rw [UInt32.toNat_mul, toNat_field opcode (k := 8) (m := 0xF) 8 4 rfl rfl]
    show _ * 2 % 2 ^ 32 < 2 ^ 5
    omega
  have hstatus : executeStatusTransfer p bus opcode =
      p.execute bus (statusTransfer opcode (rotatedConstant opcode)) :=
    executeStatusTransfer_eq p bus (by rw [h]; exact Operand.evaluate_rotated p _ hamount)
  unfold executeConstantGroup decodeConstantGroup
  rw [hstatus, executeDataProcessing_constant p bus h]
  split_ifs <;> rfl

theorem executeCoprocessorGroup_eq :
    executeCoprocessorGroup p bus opcode = p.execute bus (decodeCoprocessorGroup opcode) := by
  unfold executeCoprocessorGroup decodeCoprocessorGroup executeCoprocessor
  by_cases h : field opcode 8 0xF = 14
  · simp only [h]
    cases bit opcode 24 <;> cases bit opcode 4 <;> cases bit opcode 20 <;> rfl
  · rw [if_pos h, beq_eq_false_iff_ne.mpr h]
    cases bit opcode 24 <;> cases bit opcode 4 <;> rfl

theorem executeSingleTransfer_constant (h : bit opcode 25 = false) :
    executeSingleTransfer p bus opcode =
      p.execute bus (wordTransfer opcode (.constant (opcode &&& 0xFFF))) := by
  simp only [executeSingleTransfer, h]
  rfl

theorem executeSingleTransfer_register (h : bit opcode 25 = true) :
    executeSingleTransfer p bus opcode =
      p.execute bus (wordTransfer opcode
        (.shifted (registerField opcode 0) (Shift.ofCode (opcode >>> 5))
          (field opcode 7 0x1F))) := by
  simp only [executeSingleTransfer, h]
  rfl

theorem executeBody_eq : executeBody p bus opcode = p.execute bus (decodeBody opcode) := by
  have hgroup : (bit opcode 25).toNat = (field opcode 25 7).toNat % 2 := by
    rw [toNat_bit 25 rfl, toNat_field opcode (k := 25) (m := 7) 25 3 rfl rfl]
    omega
  unfold executeBody decodeBody
  generalize (field opcode 25 7).toNat = group at hgroup ⊢
  match group with
  | 0 => exact executeRegisterGroup_eq p bus (Bool.toNat_eq_zero.mp hgroup)
  | 1 => exact executeConstantGroup_eq p bus (Bool.toNat_eq_one.mp hgroup)
  | 2 => exact executeSingleTransfer_constant p bus (Bool.toNat_eq_zero.mp hgroup)
  | 3 =>
    simp only [executeSingleTransfer_register p bus (Bool.toNat_eq_one.mp hgroup)]
    cases bit opcode 4 <;> rfl
  | 4 => rfl
  | 5 => exact executeBranch_eq p bus
  | 6 => rfl
  | _ + 7 => exact executeCoprocessorGroup_eq p bus

theorem execute_eq :
    execute p bus opcode =
      if (decode opcode).1.holds p.status.flags then p.execute bus (decode opcode).2
      else ⟨p, bus, p.fetchTiming.seq⟩ := by
  rw [execute, Status.passes_eq, executeBody_eq]
  rfl

end Arm

/-! ## The 16-bit engine -/

namespace Thumb

/-- The end of a computation: its flags are set, and its result is kept where it is not a test. -/
def conclude (destination : Register) (result : Computed) (kept : Bool)
    (internal : UInt32) : Outcome β :=
  ⟨if kept then (p.setFlags result.flags).set destination result.value
    else p.setFlags result.flags, bus, p.fetchTiming.seq + internal⟩

omit [Bus β] in
theorem conclude_zero (destination : Register) (result : Computed) (kept : Bool) :
    conclude p bus destination result kept 0 =
      ⟨if kept then (p.setFlags result.flags).set destination result.value
        else p.setFlags result.flags, bus, p.fetchTiming.seq⟩ := by
  rw [conclude, UInt32.add_zero]

section Process

variable {destination : Register} (h : destination ≠ Register.pc) (operation : Operation)
  (first : Register)
include h

theorem execute_process (second : Operand) :
    p.execute bus (.process operation true destination first second) =
      let shifted := second.evaluate p
      let result := operation.compute (p.getAhead first (second.distance p.width)) shifted.value
        shifted.carry p.status.flags
      conclude p bus destination result operation.writesResult second.cycles := by
  show p.process bus operation true destination first second = _
  simp only [Processor.process, conclude, if_true, if_neg h]
  cases operation.writesResult <;> rfl

theorem execute_process_constant (constant : Word) :
    p.execute bus (.process operation true destination first (.constant constant)) =
      conclude p bus destination
        (operation.compute (p.get first) constant p.status.carry p.status.flags)
        operation.writesResult 0 := by
  rw [execute_process p bus h]
  simp only [Operand.constant, Operand.distance, Processor.getAhead_zero]
  rfl

theorem execute_process_register (second : Register) :
    p.execute bus (.process operation true destination first (.register second)) =
      conclude p bus destination
        (operation.compute (p.get first) (p.get second) p.status.carry p.status.flags)
        operation.writesResult 0 := by
  rw [execute_process p bus h]
  simp only [Operand.register, Operand.distance, Processor.getAhead_zero]
  rfl

theorem execute_process_shiftedBy {amount : Register} (hfirst : first ≠ Register.pc)
    (hamount : amount ≠ Register.pc) (shift : Shift) :
    p.execute bus
        (.process .mov true destination Register.r0 (.shiftedBy first shift amount)) =
      let shifted := shift.byAmount (p.get first) (p.get amount &&& 0xFF) p.status.carry
      conclude p bus destination (logical shifted.value shifted.carry p.status.flags.v) true
        Cost.registerShift := by
  rw [execute_process p bus h]
  simp only [Operand.evaluate, Processor.getAhead, if_neg hfirst, if_neg hamount]
  rfl

end Process

theorem execute_multiply (destination second : Register) :
    p.execute bus (.multiply true destination second destination none) =
      conclude p bus destination
        (multiply (p.get second) (p.get destination) 0 p.status.flags) true
        (Cost.multiplierCycles (p.get destination) true) := by
  have hcost : Cost.multiply p.fetchTiming (p.get destination) false =
      p.fetchTiming.seq + Cost.multiplierCycles (p.get destination) true := UInt32.add_zero _
  simp only [Processor.execute, Processor.multiplyRegisters, Status.setNZ_eq, if_true,
    Option.isSome_none, hcost]
  rfl

theorem executeShiftGroup_eq :
    (if field opcode 11 3 = 3 then executeSum p bus opcode else executeShift p bus opcode) =
      p.execute bus (decodeShiftGroup opcode) := by
  have h : lowRegisterField opcode 0 ≠ Register.pc := lowRegisterField_ne_pc opcode 0
  unfold decodeShiftGroup
  split
  next =>
    unfold executeSum
    cases bit opcode 10 with
    | true =>
      simp only [if_true, execute_process_constant p bus h, conclude_zero]
      cases bit opcode 9 <;> rfl
    | false =>
      simp only [Bool.false_eq_true, if_false, execute_process_register p bus h, conclude_zero]
      cases bit opcode 9 <;> rfl
  next =>
    rw [execute_process p bus h]
    simp only [executeShift, Status.setNZC_eq, Operand.cycles, conclude_zero]
    rfl

theorem executeConstant_eq :
    executeConstant p bus opcode = p.execute bus (decodeConstantGroup opcode) := by
  have h : lowRegisterField opcode 8 ≠ Register.pc := lowRegisterField_ne_pc opcode 8
  have hconstant {destination : Register} (h : destination ≠ Register.pc) (operation : Operation)
      (first : Register) (constant : Word) :=
    (execute_process_constant p bus h operation first constant).trans (conclude_zero p bus ..)
  unfold executeConstant decodeConstantGroup
  generalize (field opcode 11 3).toNat = code
  match code with
  | 0 =>
    refine Eq.trans ?_ (hconstant h .mov _ _).symm
    simp only [Status.setNZ_eq]
    rfl
  | 1 => exact (hconstant (by decide) .cmp _ _).symm
  | 2 => exact (hconstant h .add _ _).symm
  | _ + 3 => exact (hconstant h .sub _ _).symm

theorem executeRegisters_eq :
    executeRegisters p bus opcode = p.execute bus (decodeRegisterOperation opcode) := by
  have h : lowRegisterField opcode 0 ≠ Register.pc := lowRegisterField_ne_pc opcode 0
  have hsecond : lowRegisterField opcode 3 ≠ Register.pc := lowRegisterField_ne_pc opcode 3
  have hshift := execute_process_shiftedBy p bus h _ h hsecond
  have hplain := execute_process_register p bus h
  have htest := execute_process_register p bus (show Register.r0 ≠ Register.pc by decide)
  unfold executeRegisters decodeRegisterOperation computeRegisters
  generalize (field opcode 6 0xF).toNat = code
  match code with
  | 0x0 => exact (hplain .and _ _).symm
  | 0x1 => exact (hplain .eor _ _).symm
  | 0x2 => exact (hshift .lsl).symm
  | 0x3 => exact (hshift .lsr).symm
  | 0x4 => exact (hshift .asr).symm
  | 0x5 => exact (hplain .adc _ _).symm
  | 0x6 => exact (hplain .sbc _ _).symm
  | 0x7 => exact (hshift .ror).symm
  | 0x8 => exact (htest .tst _ _).symm
  | 0x9 => exact (execute_process_constant p bus h .rsb _ 0).symm
  | 0xA => exact (htest .cmp _ _).symm
  | 0xB => exact (htest .cmn _ _).symm
  | 0xC => exact (hplain .orr _ _).symm
  | 0xD => exact (execute_multiply p bus _ _).symm
  | 0xE => exact (hplain .bic _ _).symm
  | _ + 0xF => exact (hplain .mvn _ _).symm

/-- What a computation that leaves the flags alone does, where its operand takes no cycle. -/
theorem execute_quiet (operation : Operation) (second : Operand) {destination first : Register}
    {value : Word} (hwrites : operation.writesResult = true)
    (hdistance : ∀ width, second.distance width = 0) (hcycles : second.cycles = 0)
    (hvalue : (operation.compute (p.get first) (second.evaluate p).value
      (second.evaluate p).carry p.status.flags).value = value) :
    p.execute bus (.process operation false destination first second) =
      if destination = Register.pc then
        ((p.set destination value).completePcWrite bus false).costing p.fetchTiming.seq
      else ⟨p.set destination value, bus, p.fetchTiming.seq⟩ := by
  show p.process bus operation false destination first second = _
  simp only [Processor.process, hwrites, hdistance, hcycles, Processor.getAhead_zero, hvalue,
    UInt32.add_zero, if_true]
  rfl

/-- The same with four times a constant of eight bits as its operand. -/
theorem execute_quiet_rotated (operation : Operation) {destination first : Register}
    {constant value : Word} (hwrites : operation.writesResult = true)
    (hdestination : destination ≠ Register.pc) (hconstant : constant.toNat < 2 ^ 8)
    (hvalue : ∀ carry, (operation.compute (p.get first) (constant * 4) carry
      p.status.flags).value = value) :
    p.execute bus (.process operation false destination first (.rotated constant 30)) =
      ⟨p.set destination value, bus, p.fetchTiming.seq⟩ := by
  refine (execute_quiet p bus operation _ hwrites (fun _ => rfl) rfl ?_).trans
    (if_neg hdestination)
  rw [Operand.evaluate_rotated_thirty p hconstant]
  exact hvalue _

theorem executeHighRegister_eq :
    executeHighRegister p bus opcode = p.execute bus (decodeHighRegister opcode) := by
  unfold executeHighRegister decodeHighRegister
  generalize Register.ofNat ((opcode &&& 7) ||| field opcode 4 8).toNat = destination
  generalize (field opcode 8 3).toNat = code
  match code with
  | 0 =>
    exact (execute_quiet p bus .add (.register (registerField opcode 3)) rfl (fun _ => rfl) rfl
      (add_value _ _)).symm
  | 1 =>
    have hr0 : Register.r0 ≠ Register.pc := by decide
    exact ((execute_process_register p bus hr0 .cmp _ _).trans (conclude_zero p bus ..)).symm
  | 2 =>
    exact (execute_quiet p bus .mov (.register (registerField opcode 3)) rfl (fun _ => rfl) rfl
      rfl).symm
  | _ + 3 => rfl

theorem executeRegisterGroup_eq :
    executeRegisterGroup p bus opcode = p.execute bus (decodeRegisterGroup opcode) := by
  unfold executeRegisterGroup decodeRegisterGroup
  rw [executeHighRegister_eq, executeRegisters_eq]
  split_ifs with h12 h9
  · simp only [executeSignedTransfer, decodeRegisterOffset, if_pos h9]
    rfl
  · simp only [executeRegisterOffset, decodeRegisterOffset, if_neg h9]
    rfl
  · rfl
  · rfl
  · rfl

theorem executeStackGroup_eq :
    executeStackGroup p bus opcode = p.execute bus (decodeMiscellaneous opcode) := by
  have hconstant : (opcode &&& 0xFF).toNat < 2 ^ 8 := Nat.lt_succ_of_le (toNat_and_le ..)
  have hmagnitude : (opcode &&& 0x7F).toNat < 2 ^ 8 :=
    Nat.lt_of_le_of_lt (toNat_and_le ..) (by decide)
  have hsp : Register.sp ≠ Register.pc := by decide
  unfold executeStackGroup decodeMiscellaneous
  split_ifs with _ _ _ _ h7 h11
  · rfl
  · rfl
  · simp only [executeStackAdjust, if_pos h7]
    exact (execute_quiet_rotated p bus .sub rfl hsp hmagnitude fun _ => subtract_value ..).symm
  · simp only [executeStackAdjust, if_neg h7]
    exact (execute_quiet_rotated p bus .add rfl hsp hmagnitude fun _ => add_value ..).symm
  · rfl
  · simp only [executeAddress, if_pos h11]
    exact (execute_quiet_rotated p bus .add rfl (lowRegisterField_ne_pc opcode 8) hconstant
      fun _ => add_value ..).symm
  · simp only [executeAddress, if_neg h11]
    rfl

theorem executeBranchGroup_eq :
    executeBranchGroup p bus opcode =
      if (decodeBranchGroup opcode).1.holds p.status.flags then
        p.execute bus (decodeBranchGroup opcode).2
      else ⟨p, bus, p.fetchTiming.seq⟩ := by
  have hcode : Condition.ofCode (field opcode 8 0xF) = Condition.ofCode (opcode >>> 8) :=
    Condition.ofCode_congr (and_and_self ..)
  unfold executeBranchGroup decodeBranchGroup executeConditionalBranch
  rw [Status.passes_eq, hcode]
  cases bit opcode 12 with
  | false => rfl
  | true =>
    generalize (field opcode 8 0xF).toNat = code
    by_cases hE : code = 0xE
    · subst hE; rfl
    by_cases hF : code = 0xF
    · subst hF; rfl
    simp only [if_true]
    split <;> rfl

theorem executeLongBranch_eq :
    (if bit opcode 12 then executeLongBranch p bus opcode
      else if bit opcode 11 then executeUndefined p bus
      else executeBranch p bus opcode) =
      p.execute bus (decodeLongBranch opcode) := by
  unfold executeLongBranch decodeLongBranch
  cases bit opcode 12 <;> cases bit opcode 11 <;> rfl

theorem execute_eq :
    execute p bus opcode =
      if (decode opcode).1.holds p.status.flags then p.execute bus (decode opcode).2
      else ⟨p, bus, p.fetchTiming.seq⟩ := by
  unfold execute decode
  generalize (field opcode 13 7).toNat = group
  match group with
  | 0 => exact executeShiftGroup_eq p bus
  | 1 => exact executeConstant_eq p bus
  | 2 => exact executeRegisterGroup_eq p bus
  | 3 => rfl
  | 4 =>
    show (if bit opcode 12 then _ else _) = p.execute bus (decodeHalfwordGroup opcode)
    unfold decodeHalfwordGroup
    cases bit opcode 12 <;> rfl
  | 5 => exact executeStackGroup_eq p bus
  | 6 => exact executeBranchGroup_eq p bus
  | _ + 7 => exact executeLongBranch_eq p bus

end Thumb

/-! ## The step -/

namespace Processor

/-- The condition and the instruction of the opcode about to be executed. -/
def current : Condition × Instruction :=
  if p.thumb then Thumb.decode p.pipeline.executing else Arm.decode p.pipeline.executing

theorem executeCurrent_eq :
    p.executeCurrent bus =
      if p.current.1.holds p.status.flags then p.execute bus p.current.2
      else ⟨p, bus, p.fetchTiming.seq⟩ := by
  unfold executeCurrent current
  rw [Thumb.execute_eq, Arm.execute_eq]
  cases p.thumb <;> rfl

end Processor

end Handheld
