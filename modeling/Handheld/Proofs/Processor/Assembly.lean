import Handheld.Proofs.Processor.Opcodes

/-!
# Assembling 32-bit opcodes

Opcodes put together from their fields, and what decoding makes of them. All of them hold always.

1. `Assembly.process`, `multiply`, `wordTransfer`, `halfwordTransfer` and `blockTransfer` add up
   the fields of an opcode, each at its place.
2. Decoding gives the fields back (`decode_process` and its neighbours), where they fit in their
   places and name no other instruction.
-/

namespace Handheld

/-! ## Codes -/

/-- The code of an operation. -/
def Operation.code : Operation → Nat
  | .and => 0x0
  | .eor => 0x1
  | .sub => 0x2
  | .rsb => 0x3
  | .add => 0x4
  | .adc => 0x5
  | .sbc => 0x6
  | .rsc => 0x7
  | .tst => 0x8
  | .teq => 0x9
  | .cmp => 0xA
  | .cmn => 0xB
  | .orr => 0xC
  | .mov => 0xD
  | .bic => 0xE
  | .mvn => 0xF

theorem Operation.code_lt (operation : Operation) : operation.code < 16 := by
  cases operation <;> decide

/-- Every number of four bits is the code of an operation. -/
theorem Operation.exists_code {n : Nat} (h : n < 16) : ∃ operation : Operation, operation.code = n := by
  have hcodes : ∀ n : Fin 16, (ofCode (UInt32.ofNat n.val)).code = n.val := by decide
  exact ⟨_, hcodes ⟨n, h⟩⟩

/-- The tests are the operations 8 to 11. -/
theorem Operation.writesResult_iff {operation : Operation} :
    operation.writesResult = true ↔ operation.code / 4 ≠ 2 := by
  cases operation <;> decide

/-- The code of a shift. -/
def Shift.code : Shift → Nat
  | .lsl => 0
  | .lsr => 1
  | .asr => 2
  | .ror => 3

theorem Shift.code_lt (shift : Shift) : shift.code < 4 := by
  cases shift <;> decide

/-- Every number of two bits is the code of a shift. -/
theorem Shift.exists_code {n : Nat} (h : n < 4) : ∃ shift : Shift, shift.code = n := by
  have hcodes : ∀ n : Fin 4, (ofCode (UInt32.ofNat n.val)).code = n.val := by decide
  exact ⟨_, hcodes ⟨n, h⟩⟩

/-! ## Reading fields -/

section Read

variable {w k : Word} (i : Nat) (hk : k.toNat % 32 = i)
include hk

theorem registerField_eq {register : Register} (h : w.toNat / 2 ^ i % 16 = register.val) :
    registerField w k = register :=
  Fin.ext ((congrArg (· % 16) (toNat_shiftRight i hk)).trans h)

theorem Operation.ofCode_eq {operation : Operation} (h : w.toNat / 2 ^ i % 16 = operation.code) :
    Operation.ofCode (w >>> k) = operation := by
  have hf : (w >>> k &&& 0xF).toNat = operation.code := (toNat_field w i 4 hk rfl).trans h
  unfold Operation.ofCode
  rw [hf]
  cases operation <;> rfl

theorem Shift.ofCode_eq {shift : Shift} (h : w.toNat / 2 ^ i % 4 = shift.code) :
    Shift.ofCode (w >>> k) = shift := by
  have hf : (w >>> k &&& 3).toNat = shift.code := (toNat_field w i 2 hk rfl).trans h
  unfold Shift.ofCode
  rw [hf]
  cases shift <;> rfl

end Read

namespace Arm

namespace Assembly

/-! ## Putting opcodes together -/

/-- The opcode of given bits 0 to 27 that holds always. -/
def always (body : Nat) : Word := UInt32.ofNat (0xE * 2 ^ 28 + body)

theorem toNat_always {body : Nat} (h : body < 2 ^ 28) :
    (always body).toNat = 0xE * 2 ^ 28 + body :=
  UInt32.toNat_ofNat_of_lt (by change _ < 2 ^ 32; omega)

/-- The lowest twelve bits of a second operand, and bit 25, which tells a constant. -/
def operand : Operand → Nat
  | .rotated constant amount => 2 ^ 25 + amount.toNat / 2 * 2 ^ 8 + constant.toNat
  | .shifted register shift amount => amount.toNat * 2 ^ 7 + shift.code * 2 ^ 5 + register.val
  | .shiftedBy register shift amount =>
    amount.val * 2 ^ 8 + shift.code * 2 ^ 5 + 2 ^ 4 + register.val

/-- Data processing. -/
def process (operation : Operation) (setFlags : Bool) (destination first : Register)
    (second : Operand) : Word :=
  always (operation.code * 2 ^ 21 + setFlags.toNat * 2 ^ 20 + first.val * 2 ^ 16 +
    destination.val * 2 ^ 12 + operand second)

/-- A multiplication without an accumulator. -/
def multiply (setFlags : Bool) (destination left right : Register) : Word :=
  always (setFlags.toNat * 2 ^ 20 + destination.val * 2 ^ 16 + right.val * 2 ^ 8 + 9 * 2 ^ 4 +
    left.val)

/-- The bits of a transfer that say how it is addressed from a base. -/
def indexing (indexing : Indexing) : Nat :=
  indexing.pre.toNat * 2 ^ 24 + indexing.up.toNat * 2 ^ 23 + indexing.writeBack.toNat * 2 ^ 21 +
    indexing.base.val * 2 ^ 16

/-- The lowest twelve bits of the offset of a word or a byte, and bit 25, which tells a register. -/
def wordOffset : Operand → Nat
  | .rotated constant _ => constant.toNat
  | .shifted register shift amount =>
    2 ^ 25 + amount.toNat * 2 ^ 7 + shift.code * 2 ^ 5 + register.val
  | .shiftedBy .. => 0

/-- A transfer of a word or a byte. -/
def wordTransfer (load byte : Bool) (register : Register) (how : Indexing) (offset : Operand) :
    Word :=
  always (2 ^ 26 + indexing how + byte.toNat * 2 ^ 22 + load.toNat * 2 ^ 20 +
    register.val * 2 ^ 12 + wordOffset offset)

/-- The two halves of the lowest twelve bits of the offset of a halfword or a signed value, and
bit 22, which tells a constant. -/
def halfwordOffset : Operand → Nat
  | .rotated constant _ => 2 ^ 22 + constant.toNat / 2 ^ 4 * 2 ^ 8 + constant.toNat % 2 ^ 4
  | .shifted register .. => register.val
  | .shiftedBy .. => 0

/-- A transfer of a halfword or a signed value. -/
def halfwordTransfer (load signed halfword : Bool) (register : Register) (how : Indexing)
    (offset : Operand) : Word :=
  always (indexing how + load.toNat * 2 ^ 20 + register.val * 2 ^ 12 + 2 ^ 7 +
    signed.toNat * 2 ^ 6 + halfword.toNat * 2 ^ 5 + 2 ^ 4 + halfwordOffset offset)

/-- A transfer of a list of registers of the current mode. -/
def blockTransfer (load : Bool) (list : UInt16) (how : Indexing) : Word :=
  always (2 ^ 27 + indexing how + load.toNat * 2 ^ 20 + list.toNat)

/-- The amounts and constants of an operand fit in their places. -/
def Fits : Operand → Prop
  | .rotated constant amount =>
    constant.toNat < 2 ^ 8 ∧ amount.toNat < 2 ^ 5 ∧ amount.toNat % 2 = 0
  | .shifted _ _ amount => amount.toNat < 2 ^ 5
  | .shiftedBy .. => True

theorem operand_lt {second : Operand} (h : Fits second) :
    operand second < 2 ^ 26 ∧ operand second % 2 ^ 25 < 2 ^ 12 := by
  cases second with
  | rotated constant amount =>
    obtain ⟨hc, ha, -⟩ := h
    have ho : operand (.rotated constant amount) =
      2 ^ 25 + amount.toNat / 2 * 2 ^ 8 + constant.toNat := rfl
    omega
  | shifted register shift amount =>
    have ha : amount.toNat < 2 ^ 5 := h
    have hs := shift.code_lt
    have hr := register.isLt
    have ho : operand (.shifted register shift amount) =
      amount.toNat * 2 ^ 7 + shift.code * 2 ^ 5 + register.val := rfl
    omega
  | shiftedBy register shift amount =>
    have ha := amount.isLt
    have hs := shift.code_lt
    have hr := register.isLt
    have ho : operand (.shiftedBy register shift amount) =
      amount.val * 2 ^ 8 + shift.code * 2 ^ 5 + 2 ^ 4 + register.val := rfl
    omega

/-- An offset of a word or a byte that fits in its place. -/
def FitsWord : Operand → Prop
  | .rotated constant amount => constant.toNat < 2 ^ 12 ∧ amount = 0
  | .shifted _ _ amount => amount.toNat < 2 ^ 5
  | .shiftedBy .. => False

/-- An offset of a halfword or a signed value that fits in its place. -/
def FitsHalfword : Operand → Prop
  | .rotated constant amount => constant.toNat < 2 ^ 8 ∧ amount = 0
  | .shifted _ shift amount => shift = .lsl ∧ amount = 0
  | .shiftedBy .. => False

theorem indexing_fields (how : Indexing) :
    indexing how = how.pre.toNat * 2 ^ 24 + how.up.toNat * 2 ^ 23 + how.writeBack.toNat * 2 ^ 21 +
        how.base.val * 2 ^ 16 ∧
      how.pre.toNat < 2 ∧ how.up.toNat < 2 ∧ how.writeBack.toNat < 2 ∧ how.base.val < 16 :=
  ⟨rfl, how.pre.toNat_lt, how.up.toNat_lt, how.writeBack.toNat_lt, how.base.isLt⟩

theorem wordOffset_lt {offset : Operand} (h : FitsWord offset) :
    wordOffset offset < 2 ^ 26 ∧ wordOffset offset % 2 ^ 25 < 2 ^ 12 := by
  cases offset with
  | rotated constant amount =>
    have hc : wordOffset (.rotated constant amount) < 2 ^ 12 := h.1
    omega
  | shifted register shift amount =>
    have ha : amount.toNat < 2 ^ 5 := h
    have hs := shift.code_lt
    have hr := register.isLt
    have ho : wordOffset (.shifted register shift amount) =
      2 ^ 25 + amount.toNat * 2 ^ 7 + shift.code * 2 ^ 5 + register.val := rfl
    omega
  | shiftedBy => exact absurd h id

theorem halfwordOffset_lt {offset : Operand} (h : FitsHalfword offset) :
    halfwordOffset offset < 2 ^ 23 ∧ halfwordOffset offset % 2 ^ 22 < 2 ^ 12 ∧
      halfwordOffset offset % 2 ^ 8 < 2 ^ 4 := by
  cases offset with
  | rotated constant amount =>
    have hc : constant.toNat < 2 ^ 8 := h.1
    have hhigh : constant.toNat / 2 ^ 4 < 2 ^ 4 := by omega
    have hlow : constant.toNat % 2 ^ 4 < 2 ^ 4 := Nat.mod_lt _ (by decide)
    have ho : halfwordOffset (.rotated constant amount) =
      2 ^ 22 + constant.toNat / 2 ^ 4 * 2 ^ 8 + constant.toNat % 2 ^ 4 := rfl
    generalize constant.toNat / 2 ^ 4 = high at hhigh ho
    generalize constant.toNat % 2 ^ 4 = low at hlow ho
    omega
  | shifted register shift amount =>
    have hr : halfwordOffset (.shifted register shift amount) < 16 := register.isLt
    omega
  | shiftedBy => exact absurd h id

end Assembly

/-! ## Decoding -/

theorem condition_of_toNat {opcode : Word} (h : opcode.toNat / 2 ^ 28 = 0xE) :
    Condition.ofCode (opcode >>> 28) = .always := by
  have hf : (opcode >>> 28 &&& 0xF).toNat = 0xE :=
    (toNat_field opcode 28 4 rfl rfl).trans (by omega)
  unfold Condition.ofCode
  rw [hf]
  rfl

/-- The fields of data processing. -/
structure ProcessFields (opcode : Word) (operation : Operation) (setFlags : Bool)
    (destination first : Register) : Prop where
  code : opcode.toNat / 2 ^ 21 % 16 = operation.code
  flag : opcode.toNat / 2 ^ 20 % 2 = setFlags.toNat
  left : opcode.toNat / 2 ^ 16 % 16 = first.val
  result : opcode.toNat / 2 ^ 12 % 16 = destination.val
  keeps : operation.writesResult = true ∨ setFlags = true

namespace ProcessFields

variable {opcode : Word} {operation : Operation} {setFlags : Bool} {destination first : Register}

theorem process_eq (h : ProcessFields opcode operation setFlags destination first)
    (second : Operand) :
    process opcode second = .process operation setFlags destination first second := by
  unfold process
  rw [Operation.ofCode_eq 21 rfl h.code, bit_eq 20 rfl h.flag, registerField_eq 12 rfl h.result,
    registerField_eq 16 rfl h.left]

/-- Without flags no result is left out. -/
theorem code_div_ne (h : ProcessFields opcode operation setFlags destination first) :
    ¬ (operation.code / 4 = 2 ∧ setFlags.toNat = 0) := by
  rintro ⟨hc, hf⟩
  rcases h.keeps with hw | rfl
  · exact Operation.writesResult_iff.mp hw hc
  · cases hf

theorem isStatusTransfer_eq (h : ProcessFields opcode operation setFlags destination first) :
    isStatusTransfer opcode = false := by
  have hcode := h.code
  have hflag := h.flag
  have hkeeps := h.code_div_ne
  rw [← Bool.not_eq_true, isStatusTransfer_iff_toNat]
  omega

theorem decodeBody_constant (h : ProcessFields opcode operation setFlags destination first)
    (hgroup : opcode.toNat / 2 ^ 25 % 8 = 1) :
    decodeBody opcode = .process operation setFlags destination first (rotatedConstant opcode) := by
  have hg : (field opcode 25 7).toNat = 1 := (toNat_field opcode 25 3 rfl rfl).trans hgroup
  unfold decodeBody decodeConstantGroup
  rw [hg, h.isStatusTransfer_eq]
  exact h.process_eq _

/-- A second operand has bit 4 or bit 7 clear. -/
theorem decodeBody_register (h : ProcessFields opcode operation setFlags destination first)
    (hgroup : opcode.toNat / 2 ^ 25 % 8 = 0)
    (h47 : opcode.toNat / 2 ^ 4 % 2 = 0 ∨ opcode.toNat / 2 ^ 7 % 2 = 0) :
    decodeBody opcode = .process operation setFlags destination first (shiftedRegister opcode) := by
  have hg : (field opcode 25 7).toNat = 0 := (toNat_field opcode 25 3 rfl rfl).trans hgroup
  have h9 : field opcode 4 0xF ≠ 9 := by
    rw [ne_eq, field_eq_iff 4 rfl 4 rfl]
    show ¬ _ = 9
    omega
  have htransfer :
      ¬ (field opcode 4 0xF = 0xB ∨ field opcode 4 0xF = 0xD ∨ field opcode 4 0xF = 0xF) := by
    rw [field_eq_iff 4 rfl 4 rfl, field_eq_iff 4 rfl 4 rfl, field_eq_iff 4 rfl 4 rfl]
    show ¬ (_ = 11 ∨ _ = 13 ∨ _ = 15)
    omega
  have hbranch : ¬ IsBranchExchange opcode := by
    have hstatus := Bool.eq_false_iff.mp h.isStatusTransfer_eq
    rw [ne_eq, isStatusTransfer_iff_toNat] at hstatus
    rw [IsBranchExchange, field_eq_iff 4 rfl 24 rfl]
    show ¬ _ = 0x12FFF1
    omega
  unfold decodeBody decodeRegisterGroup
  rw [hg]
  simp only
  rw [if_neg (mt branchExchange_iff.mp hbranch), if_neg (mt multiply_iff.mp h9),
    if_neg (mt (halfword_iff h9).mp htransfer), h.isStatusTransfer_eq]
  exact h.process_eq _

end ProcessFields

theorem decode_process {operation : Operation} {setFlags : Bool} {destination first : Register}
    {second : Operand} (hsecond : Assembly.Fits second)
    (hkeeps : operation.writesResult = true ∨ setFlags = true) :
    decode (Assembly.process operation setFlags destination first second) =
      (.always, .process operation setFlags destination first second) := by
  have hoperation := operation.code_lt
  have hflags := setFlags.toNat_lt
  have hfirst := first.isLt
  have hdestination := destination.isLt
  obtain ⟨hlt, hlow⟩ := Assembly.operand_lt hsecond
  have hopcode : (Assembly.process operation setFlags destination first second).toNat =
      0xE * 2 ^ 28 + (operation.code * 2 ^ 21 + setFlags.toNat * 2 ^ 20 + first.val * 2 ^ 16 +
        destination.val * 2 ^ 12 + Assembly.operand second) :=
    Assembly.toNat_always (by omega)
  generalize Assembly.process operation setFlags destination first second = opcode at hopcode ⊢
  have hfields : ProcessFields opcode operation setFlags destination first :=
    ⟨by omega, by omega, by omega, by omega, hkeeps⟩
  rw [decode, condition_of_toNat (by omega)]
  refine congrArg (Prod.mk Condition.always) ?_
  cases second with
  | rotated constant amount =>
    obtain ⟨hconstant, hamount, heven⟩ := hsecond
    change _ = _ + (_ + (2 ^ 25 + amount.toNat / 2 * 2 ^ 8 + constant.toNat)) at hopcode
    have hbyte : opcode &&& 0xFF = constant := and_eq_of_toNat 8 rfl (by omega)
    have hrotation : field opcode 8 0xF * 2 = amount := by
      rw [← UInt32.toNat_inj, UInt32.toNat_mul, toNat_field opcode 8 4 rfl rfl]
      show _ * 2 % 2 ^ 32 = _
      omega
    rw [hfields.decodeBody_constant (by omega), rotatedConstant, hbyte, hrotation]
  | shifted register shift amount =>
    have hregister := register.isLt
    have hshift := shift.code_lt
    have hamount : amount.toNat < 2 ^ 5 := hsecond
    change _ = _ + (_ + (amount.toNat * 2 ^ 7 + shift.code * 2 ^ 5 + register.val)) at hopcode
    have h4 : bit opcode 4 = false := bit_clear 4 rfl (by omega)
    have h0 : registerField opcode 0 = register := registerField_eq 0 rfl (by omega)
    have h5 : Shift.ofCode (opcode >>> 5) = shift := Shift.ofCode_eq 5 rfl (by omega)
    have h7 : field opcode 7 0x1F = amount := field_eq 7 rfl 5 rfl (by omega)
    rw [hfields.decodeBody_register (by omega) (Or.inl (by omega)), shiftedRegister, h4, h0, h5, h7]
    rfl
  | shiftedBy register shift amount =>
    have hregister := register.isLt
    have hshift := shift.code_lt
    have hamount := amount.isLt
    change _ = _ + (_ + (amount.val * 2 ^ 8 + shift.code * 2 ^ 5 + 2 ^ 4 + register.val)) at hopcode
    have h4 : bit opcode 4 = true := bit_set 4 rfl (by omega)
    have h0 : registerField opcode 0 = register := registerField_eq 0 rfl (by omega)
    have h5 : Shift.ofCode (opcode >>> 5) = shift := Shift.ofCode_eq 5 rfl (by omega)
    have h8 : registerField opcode 8 = amount := registerField_eq 8 rfl (by omega)
    rw [hfields.decodeBody_register (by omega) (Or.inr (by omega)), shiftedRegister, h4, h0, h5, h8]
    rfl

/-- The opcode `ADDS r0, r1, #255`. -/
example : Assembly.process .add true 0 1 (.constant 255) = 0xE29100FF := by decide

theorem decode_multiply (setFlags : Bool) (destination left right : Register) :
    decode (Assembly.multiply setFlags destination left right) =
      (.always, .multiply setFlags destination left right none) := by
  have hflags := setFlags.toNat_lt
  have hdestination := destination.isLt
  have hleft := left.isLt
  have hright := right.isLt
  have hopcode : (Assembly.multiply setFlags destination left right).toNat =
      0xE * 2 ^ 28 + (setFlags.toNat * 2 ^ 20 + destination.val * 2 ^ 16 + right.val * 2 ^ 8 +
        9 * 2 ^ 4 + left.val) :=
    Assembly.toNat_always (by omega)
  generalize Assembly.multiply setFlags destination left right = opcode at hopcode ⊢
  have hgroup : (field opcode 25 7).toNat = 0 :=
    (toNat_field opcode 25 3 rfl rfl).trans (by omega)
  have h4 : field opcode 4 0xF = 9 := field_eq 4 rfl 4 rfl (by change _ = 9; omega)
  have h24 : bit opcode 24 = false := bit_clear 24 rfl (by omega)
  have h23 : bit opcode 23 = false := bit_clear 23 rfl (by omega)
  have h22 : bit opcode 22 = false := bit_clear 22 rfl (by omega)
  have h21 : bit opcode 21 = false := bit_clear 21 rfl (by omega)
  have h20 : bit opcode 20 = setFlags := bit_eq 20 rfl (by omega)
  have h16 : registerField opcode 16 = destination := registerField_eq 16 rfl (by omega)
  have h8 : registerField opcode 8 = right := registerField_eq 8 rfl (by omega)
  have h0 : registerField opcode 0 = left := registerField_eq 0 rfl (by omega)
  rw [decode, condition_of_toNat (by omega), decodeBody, hgroup]
  simp only
  rw [decodeRegisterGroup, if_neg (mt branchExchange_iff.mp (not_isBranchExchange (h4 ▸ by decide))),
    if_pos (multiply_iff.mpr h4), decodeMultiply, h24, h23, h22, multiply, h21, h20, h16, h8, h0]
  rfl

/-- The fields that say how a transfer is addressed. -/
structure IndexingFields (opcode : Word) (how : Indexing) : Prop where
  pre : opcode.toNat / 2 ^ 24 % 2 = how.pre.toNat
  up : opcode.toNat / 2 ^ 23 % 2 = how.up.toNat
  writeBack : opcode.toNat / 2 ^ 21 % 2 = how.writeBack.toNat
  base : opcode.toNat / 2 ^ 16 % 16 = how.base.val

theorem IndexingFields.indexing_eq {opcode : Word} {how : Indexing}
    (h : IndexingFields opcode how) : indexing opcode = how := by
  unfold indexing
  rw [registerField_eq 16 rfl h.base, bit_eq 23 rfl h.up, bit_eq 24 rfl h.pre,
    bit_eq 21 rfl h.writeBack]

theorem decode_wordTransfer (load byte : Bool) (register : Register) (how : Indexing)
    {offset : Operand} (hoffset : Assembly.FitsWord offset) :
    decode (Assembly.wordTransfer load byte register how offset) =
      (.always,
        .transfer ⟨load, register, if byte then .byte else .word, true, false⟩ how offset) := by
  have hload := load.toNat_lt
  have hbyte := byte.toNat_lt
  have hnumber := register.isLt
  obtain ⟨hhow, hpre, hup, hwriteBack, hbase⟩ := Assembly.indexing_fields how
  obtain ⟨hlt, hlow⟩ := Assembly.wordOffset_lt hoffset
  have hopcode : (Assembly.wordTransfer load byte register how offset).toNat =
      0xE * 2 ^ 28 + (2 ^ 26 + Assembly.indexing how + byte.toNat * 2 ^ 22 + load.toNat * 2 ^ 20 +
        register.val * 2 ^ 12 + Assembly.wordOffset offset) :=
    Assembly.toNat_always (by omega)
  generalize Assembly.wordTransfer load byte register how offset = opcode at hopcode ⊢
  have hindexing : IndexingFields opcode how := ⟨by omega, by omega, by omega, by omega⟩
  have h22 : bit opcode 22 = byte := bit_eq 22 rfl (by omega)
  have h20 : bit opcode 20 = load := bit_eq 20 rfl (by omega)
  have h12 : registerField opcode 12 = register := registerField_eq 12 rfl (by omega)
  have htransfer (second : Operand) : wordTransfer opcode second =
      .transfer ⟨load, register, if byte then .byte else .word, true, false⟩ how second := by
    rw [wordTransfer, h22, h20, h12, hindexing.indexing_eq]
  rw [decode, condition_of_toNat (by omega)]
  refine congrArg (Prod.mk Condition.always) ?_
  cases offset with
  | rotated constant amount =>
    obtain ⟨hconstant, rfl⟩ := hoffset
    change _ = _ + (_ + constant.toNat) at hopcode
    have hgroup : (field opcode 25 7).toNat = 2 :=
      (toNat_field opcode 25 3 rfl rfl).trans (by omega)
    have h0 : opcode &&& 0xFFF = constant := and_eq_of_toNat 12 rfl (by omega)
    rw [decodeBody, hgroup]
    simp only
    rw [h0, htransfer, Operand.constant]
  | shifted number shift amount =>
    have hnumber' := number.isLt
    have hshift := shift.code_lt
    have hamount : amount.toNat < 2 ^ 5 := hoffset
    change _ = _ + (_ + (2 ^ 25 + amount.toNat * 2 ^ 7 + shift.code * 2 ^ 5 + number.val)) at hopcode
    have hgroup : (field opcode 25 7).toNat = 3 :=
      (toNat_field opcode 25 3 rfl rfl).trans (by omega)
    have h4 : bit opcode 4 = false := bit_clear 4 rfl (by omega)
    have h0 : registerField opcode 0 = number := registerField_eq 0 rfl (by omega)
    have h5 : Shift.ofCode (opcode >>> 5) = shift := Shift.ofCode_eq 5 rfl (by omega)
    have h7 : field opcode 7 0x1F = amount := field_eq 7 rfl 5 rfl (by omega)
    rw [decodeBody, hgroup]
    simp only
    rw [h4, h0, h5, h7, htransfer]
    rfl
  | shiftedBy => exact absurd hoffset id

theorem decodeBody_halfword {opcode : Word} (hgroup : opcode.toNat / 2 ^ 25 % 8 = 0)
    (h4 : field opcode 4 0xF = 0xB ∨ field opcode 4 0xF = 0xD ∨ field opcode 4 0xF = 0xF)
    (hoffset : bit opcode 22 = true ∨ field opcode 8 0xF = 0) :
    decodeBody opcode = halfwordTransfer opcode := by
  have hg : (field opcode 25 7).toNat = 0 := (toNat_field opcode 25 3 rfl rfl).trans hgroup
  have h1 : field opcode 4 0xF ≠ 1 := by rcases h4 with h | h | h <;> rw [h] <;> decide
  have h9 : field opcode 4 0xF ≠ 9 := by rcases h4 with h | h | h <;> rw [h] <;> decide
  have hclear : (bit opcode 22 || opcode &&& 0xF00 == 0) = true := by
    rw [Bool.or_eq_true, beq_iff_eq, and_bits8_iff]
    exact hoffset
  rw [decodeBody, hg]
  simp only
  rw [decodeRegisterGroup, if_neg (mt branchExchange_iff.mp (not_isBranchExchange h1)),
    if_neg (mt multiply_iff.mp h9), if_pos ((halfword_iff h9).mpr h4), if_pos hclear]

/-- The offset of a halfword is read back, whatever stands above it and between its halves. -/
theorem halfwordOffset_read {opcode : Word} {offset : Operand} (above : Nat) {middle kind : Nat}
    (hoffset : Assembly.FitsHalfword offset) (hmiddle : middle < 2 ^ 10) (hkind : kind < 2 ^ 4)
    (hopcode : opcode.toNat =
      above * 2 ^ 23 + middle * 2 ^ 12 + kind * 2 ^ 4 + Assembly.halfwordOffset offset) :
    (if bit opcode 22 then Operand.constant (opcode &&& 0xF ||| field opcode 4 0xF0)
        else .register (registerField opcode 0)) = offset ∧
      (bit opcode 22 = true ∨ field opcode 8 0xF = 0) := by
  cases offset with
  | rotated constant amount =>
    obtain ⟨hconstant, rfl⟩ := hoffset
    change _ = _ + (2 ^ 22 + constant.toNat / 2 ^ 4 * 2 ^ 8 + constant.toNat % 2 ^ 4) at hopcode
    have hhigh : constant.toNat / 2 ^ 4 < 2 ^ 4 := by omega
    have hlow : constant.toNat % 2 ^ 4 < 2 ^ 4 := Nat.mod_lt _ (by decide)
    obtain ⟨h22, h8, h0⟩ : opcode.toNat / 2 ^ 22 % 2 = 1 ∧
        opcode.toNat / 2 ^ 8 % 2 ^ 4 = constant.toNat / 2 ^ 4 ∧
        opcode.toNat % 2 ^ 4 = constant.toNat % 2 ^ 4 := by
      -- The two halves are numbers of their own here, which no sum ties together.
      generalize constant.toNat / 2 ^ 4 = high at hopcode hhigh ⊢
      generalize constant.toNat % 2 ^ 4 = low at hopcode hlow ⊢
      omega
    have h22 : bit opcode 22 = true := bit_set 22 rfl h22
    have h0 : opcode &&& 0xF ||| field opcode 4 0xF0 = constant := halves_eq h0 h8
    exact ⟨by rw [if_pos h22, h0]; rfl, Or.inl h22⟩
  | shifted number shift amount =>
    obtain ⟨rfl, rfl⟩ := hoffset
    have hnumber := number.isLt
    change _ = _ + number.val at hopcode
    have h22 : bit opcode 22 = false := bit_clear 22 rfl (by omega)
    have h8 : field opcode 8 0xF = 0 := field_eq 8 rfl 4 rfl (by change _ = 0; omega)
    have h0 : registerField opcode 0 = number := registerField_eq 0 rfl (by omega)
    exact ⟨by rw [h22, h0]; rfl, Or.inr h8⟩
  | shiftedBy => exact absurd hoffset id

/-- Halfwords and signed values have 1 in bits 4 and 7 and are no bytes without sign. -/
theorem decode_halfwordTransfer (load : Bool) {signed halfword : Bool} (register : Register)
    (how : Indexing) {offset : Operand} (hkind : signed = true ∨ halfword = true)
    (hoffset : Assembly.FitsHalfword offset) :
    decode (Assembly.halfwordTransfer load signed halfword register how offset) =
      (.always,
        .transfer ⟨load, register, if halfword then .halfword else .byte, true, signed⟩ how
          offset) := by
  have hload := load.toNat_lt
  have hsigned := signed.toNat_lt
  have hhalfword := halfword.toNat_lt
  have hnumber := register.isLt
  obtain ⟨hhow, hpre, hup, hwriteBack, hbase⟩ := Assembly.indexing_fields how
  obtain ⟨hlt, hlow, hhigh⟩ := Assembly.halfwordOffset_lt hoffset
  have hsome : signed.toNat + halfword.toNat ≠ 0 := by
    rcases hkind with rfl | rfl
    · rw [Bool.toNat_true]; omega
    · rw [Bool.toNat_true]; omega
  have hopcode : (Assembly.halfwordTransfer load signed halfword register how offset).toNat =
      0xE * 2 ^ 28 + (Assembly.indexing how + load.toNat * 2 ^ 20 + register.val * 2 ^ 12 + 2 ^ 7 +
        signed.toNat * 2 ^ 6 + halfword.toNat * 2 ^ 5 + 2 ^ 4 + Assembly.halfwordOffset offset) :=
    Assembly.toNat_always (by omega)
  generalize Assembly.halfwordTransfer load signed halfword register how offset = opcode
    at hopcode ⊢
  have hindexing : IndexingFields opcode how := ⟨by omega, by omega, by omega, by omega⟩
  have h4 : field opcode 4 0xF = 0xB ∨ field opcode 4 0xF = 0xD ∨ field opcode 4 0xF = 0xF := by
    rw [field_eq_iff 4 rfl 4 rfl, field_eq_iff 4 rfl 4 rfl, field_eq_iff 4 rfl 4 rfl]
    show _ = 11 ∨ _ = 13 ∨ _ = 15
    omega
  have h20 : bit opcode 20 = load := bit_eq 20 rfl (by omega)
  have h12 : registerField opcode 12 = register := registerField_eq 12 rfl (by omega)
  have h6 : bit opcode 6 = signed := bit_eq 6 rfl (by omega)
  have h5 : bit opcode 5 = halfword := bit_eq 5 rfl (by omega)
  obtain ⟨hread, hfields⟩ := halfwordOffset_read
    (0xE * 2 ^ 5 + how.pre.toNat * 2 + how.up.toNat) hoffset
    (show how.writeBack.toNat * 2 ^ 9 + load.toNat * 2 ^ 8 + how.base.val * 2 ^ 4 + register.val <
      2 ^ 10 by omega)
    (show 2 ^ 3 + signed.toNat * 2 ^ 2 + halfword.toNat * 2 + 1 < 2 ^ 4 by omega)
    (hopcode.trans (by omega))
  rw [decode, condition_of_toNat (by omega), decodeBody_halfword (by omega) h4 hfields,
    halfwordTransfer, h20, h12, h6, h5, hindexing.indexing_eq, hread]

/-- The opcode `LDRSH r0, [r1, #18]`. -/
example : Assembly.halfwordTransfer true true true 0 ⟨1, true, true, false⟩ (.constant 18) =
    0xE1D101F2 := by decide

theorem decode_blockTransfer (load : Bool) (list : UInt16) (how : Indexing) :
    decode (Assembly.blockTransfer load list how) =
      (.always, .blockTransfer load list how false) := by
  have hload := load.toNat_lt
  have hlist := list.toNat_lt
  obtain ⟨hhow, hpre, hup, hwriteBack, hbase⟩ := Assembly.indexing_fields how
  have hopcode : (Assembly.blockTransfer load list how).toNat =
      0xE * 2 ^ 28 + (2 ^ 27 + Assembly.indexing how + load.toNat * 2 ^ 20 + list.toNat) :=
    Assembly.toNat_always (by omega)
  generalize Assembly.blockTransfer load list how = opcode at hopcode ⊢
  have hgroup : (field opcode 25 7).toNat = 4 :=
    (toNat_field opcode 25 3 rfl rfl).trans (by omega)
  have hindexing : IndexingFields opcode how := ⟨by omega, by omega, by omega, by omega⟩
  have h22 : bit opcode 22 = false := bit_clear 22 rfl (by omega)
  have h20 : bit opcode 20 = load := bit_eq 20 rfl (by omega)
  have h0 : opcode.toUInt16 = list := by
    rw [← UInt16.toNat_inj, UInt32.toNat_toUInt16]
    omega
  rw [decode, condition_of_toNat (by omega), decodeBody, hgroup]
  simp only
  rw [h20, h22, h0, hindexing.indexing_eq]

end Arm

end Handheld
