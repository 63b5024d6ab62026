import Handheld.Proofs.Processor.Coherence
import Handheld.Proofs.Processor.ShortForms
import Handheld.Proofs.Processor.Twins

/-!
# Short forms and their equivalents

A 16-bit opcode and the 32-bit opcode of which it is a short form do the same.

1. `Equivalent.sameMeaning` says that both are decoded to one and the same portable instruction,
   by a lemma for each form.
2. `exists_equivalent_iff` says that the table leaves no form out.
3. `thumb_refines_arm` says that they do the same from the same registers, flags and fetch cost.
-/

namespace Handheld

namespace Thumb

open Arm (Assembly.process Assembly.multiply Assembly.wordTransfer Assembly.halfwordTransfer
  Assembly.blockTransfer)

/-! ## Meanings -/

/-- Both opcodes are decoded to one portable instruction, which holds always. -/
def SameMeaning (opcode arm : Word) : Prop :=
  ∃ i : Instruction, i.Portable ∧ decode opcode = (.always, i) ∧ Arm.decode arm = (.always, i)

theorem SameMeaning.process {opcode : Word} {operation : Operation} {setFlags : Bool}
    {destination first : Register} {second : Operand}
    (hdecode : decode opcode = (.always, .process operation setFlags destination first second))
    (hkeeps : operation.writesResult = true ∨ setFlags = true)
    (hdestination : destination ≠ Register.pc) (hfirst : first ≠ Register.pc)
    (hsecond : second.AvoidsPc) (hfits : Arm.Assembly.Fits second) :
    SameMeaning opcode (Assembly.process operation setFlags destination first second) :=
  ⟨.process operation setFlags destination first second, ⟨hdestination, hfirst, hsecond⟩, hdecode,
    Arm.decode_process hfits hkeeps⟩

/-! ### Shifts and sums -/

theorem decode_shift {opcode : Word} (hform : field opcode 13 7 = 0)
    (hshift : field opcode 11 3 ≠ 3) :
    decode opcode = (.always, .process .mov true (lowRegisterField opcode 0) Register.r0
      (.shifted (lowRegisterField opcode 3) (Shift.ofCode (opcode >>> 11))
        (field opcode 6 0x1F))) := by
  rw [decode, hform]
  show (Condition.always, decodeShiftGroup opcode) = _
  rw [decodeShiftGroup, if_neg hshift]

theorem decode_sum {opcode : Word} (hform : field opcode 11 0x1F = 3) :
    decode opcode = (.always, .process (if bit opcode 9 then .sub else .add) true
      (lowRegisterField opcode 0) (lowRegisterField opcode 3)
      (if bit opcode 10 then .constant (field opcode 6 7)
        else .register (lowRegisterField opcode 6))) := by
  have hdigit : opcode.toNat / 2 ^ 11 % 2 ^ 5 = 3 := digit_eq 11 rfl 5 rfl hform
  have hgroup : field opcode 13 7 = 0 := field_eq 13 rfl 3 rfl (by change _ = 0; omega)
  have hshift : field opcode 11 3 = 3 := field_eq 11 rfl 2 rfl (by change _ = 3; omega)
  rw [decode, hgroup]
  show (Condition.always, decodeShiftGroup opcode) = _
  rw [decodeShiftGroup, if_pos hshift]

/-- The group of operations on a register and a constant, of which two bits tell which. -/
theorem decode_constantGroup {opcode form : Word} (hform : field opcode 11 0x1F = form)
    (hgroup : form.toNat / 2 ^ 2 = 1) :
    decode opcode = (.always, decodeConstantGroup opcode) ∧
      (field opcode 11 3).toNat = form.toNat % 2 ^ 2 := by
  have hdigit : opcode.toNat / 2 ^ 11 % 2 ^ 5 = form.toNat := digit_eq 11 rfl 5 rfl hform
  have h13 : (field opcode 13 7).toNat = 1 := (toNat_field opcode 13 3 rfl rfl).trans (by omega)
  refine ⟨?_, (toNat_field opcode 11 2 rfl rfl).trans (by omega)⟩
  rw [decode, h13]
  rfl

theorem decode_moveConstant {opcode : Word} (hform : field opcode 11 0x1F = 4) :
    decode opcode = (.always, .process .mov true (lowRegisterField opcode 8) Register.r0
      (.constant (opcode &&& 0xFF))) := by
  obtain ⟨hdecode, hcode⟩ := decode_constantGroup hform rfl
  rw [hdecode, decodeConstantGroup, hcode]
  rfl

theorem decode_compareConstant {opcode : Word} (hform : field opcode 11 0x1F = 5) :
    decode opcode = (.always, .process .cmp true Register.r0 (lowRegisterField opcode 8)
      (.constant (opcode &&& 0xFF))) := by
  obtain ⟨hdecode, hcode⟩ := decode_constantGroup hform rfl
  rw [hdecode, decodeConstantGroup, hcode]
  rfl

theorem decode_sumConstant {opcode : Word} {operation : Operation}
    (hform : (field opcode 11 0x1F, operation) ∈ [(6, Operation.add), (7, .sub)]) :
    decode opcode = (.always, .process operation true (lowRegisterField opcode 8)
        (lowRegisterField opcode 8) (.constant (opcode &&& 0xFF))) ∧
      operation.writesResult = true := by
  simp only [List.mem_cons, Prod.mk.injEq, List.not_mem_nil, or_false] at hform
  rcases hform with ⟨h, rfl⟩ | ⟨h, rfl⟩ <;>
    (obtain ⟨hdecode, hcode⟩ := decode_constantGroup h rfl
     rw [hdecode, decodeConstantGroup, hcode]
     exact ⟨rfl, rfl⟩)

/-! ### Operations on registers -/

/-- The operations of two low registers, of which four bits tell which. -/
theorem decode_registerOperation {opcode form : Word} (hform : field opcode 6 0x3FF = form)
    (hgroup : form.toNat / 2 ^ 4 = 16) :
    decode opcode = (.always, decodeRegisterOperation opcode) ∧
      (field opcode 6 0xF).toNat = form.toNat % 2 ^ 4 := by
  have hdigit : opcode.toNat / 2 ^ 6 % 2 ^ 10 = form.toNat := digit_eq 6 rfl 10 rfl hform
  have h13 : (field opcode 13 7).toNat = 2 := (toNat_field opcode 13 3 rfl rfl).trans (by omega)
  have h12 : bit opcode 12 = false := bit_clear 12 rfl (by omega)
  have h11 : bit opcode 11 = false := bit_clear 11 rfl (by omega)
  have h10 : bit opcode 10 = false := bit_clear 10 rfl (by omega)
  refine ⟨?_, (toNat_field opcode 6 4 rfl rfl).trans (by omega)⟩
  rw [decode, h13]
  show (Condition.always, decodeRegisterGroup opcode) = _
  rw [decodeRegisterGroup, h12, h11, h10]
  rfl

theorem decode_operate {opcode : Word} {operation : Operation}
    (hform : (field opcode 6 0x3FF, operation) ∈ [(0x100, Operation.and), (0x101, .eor),
      (0x105, .adc), (0x106, .sbc), (0x10C, .orr), (0x10E, .bic)]) :
    decode opcode = (.always, .process operation true (lowRegisterField opcode 0)
        (lowRegisterField opcode 0) (.register (lowRegisterField opcode 3))) ∧
      operation.writesResult = true := by
  simp only [List.mem_cons, Prod.mk.injEq, List.not_mem_nil, or_false] at hform
  rcases hform with ⟨h, rfl⟩ | ⟨h, rfl⟩ | ⟨h, rfl⟩ | ⟨h, rfl⟩ | ⟨h, rfl⟩ | ⟨h, rfl⟩ <;>
    (obtain ⟨hdecode, hcode⟩ := decode_registerOperation h rfl
     rw [hdecode, decodeRegisterOperation, hcode]
     exact ⟨rfl, rfl⟩)

theorem decode_shiftBy {opcode : Word} {shift : Shift}
    (hform : (field opcode 6 0x3FF, shift) ∈ [(0x102, Shift.lsl), (0x103, .lsr), (0x104, .asr),
      (0x107, .ror)]) :
    decode opcode = (.always, .process .mov true (lowRegisterField opcode 0) Register.r0
      (.shiftedBy (lowRegisterField opcode 0) shift (lowRegisterField opcode 3))) := by
  simp only [List.mem_cons, Prod.mk.injEq, List.not_mem_nil, or_false] at hform
  rcases hform with ⟨h, rfl⟩ | ⟨h, rfl⟩ | ⟨h, rfl⟩ | ⟨h, rfl⟩ <;>
    (obtain ⟨hdecode, hcode⟩ := decode_registerOperation h rfl
     rw [hdecode, decodeRegisterOperation, hcode]
     rfl)

theorem decode_test {opcode : Word} {operation : Operation}
    (hform : (field opcode 6 0x3FF, operation) ∈ [(0x108, Operation.tst), (0x10A, .cmp),
      (0x10B, .cmn)]) :
    decode opcode = (.always, .process operation true Register.r0 (lowRegisterField opcode 0)
      (.register (lowRegisterField opcode 3))) := by
  simp only [List.mem_cons, Prod.mk.injEq, List.not_mem_nil, or_false] at hform
  rcases hform with ⟨h, rfl⟩ | ⟨h, rfl⟩ | ⟨h, rfl⟩ <;>
    (obtain ⟨hdecode, hcode⟩ := decode_registerOperation h rfl
     rw [hdecode, decodeRegisterOperation, hcode]
     rfl)

theorem decode_negate {opcode : Word} (hform : field opcode 6 0x3FF = 0x109) :
    decode opcode = (.always, .process .rsb true (lowRegisterField opcode 0)
      (lowRegisterField opcode 3) (.constant 0)) := by
  obtain ⟨hdecode, hcode⟩ := decode_registerOperation hform rfl
  rw [hdecode, decodeRegisterOperation, hcode]
  rfl

theorem decode_multiply {opcode : Word} (hform : field opcode 6 0x3FF = 0x10D) :
    decode opcode = (.always, .multiply true (lowRegisterField opcode 0)
      (lowRegisterField opcode 3) (lowRegisterField opcode 0) none) := by
  obtain ⟨hdecode, hcode⟩ := decode_registerOperation hform rfl
  rw [hdecode, decodeRegisterOperation, hcode]
  rfl

theorem decode_complement {opcode : Word} (hform : field opcode 6 0x3FF = 0x10F) :
    decode opcode = (.always, .process .mvn true (lowRegisterField opcode 0) Register.r0
      (.register (lowRegisterField opcode 3))) := by
  obtain ⟨hdecode, hcode⟩ := decode_registerOperation hform rfl
  rw [hdecode, decodeRegisterOperation, hcode]
  rfl

/-- The operations that reach all registers, of which two bits tell which. -/
theorem decode_highRegister {opcode form : Word} (hform : field opcode 8 0xFF = form)
    (hgroup : form.toNat / 2 ^ 2 = 17) :
    decode opcode = (.always, decodeHighRegister opcode) ∧
      (field opcode 8 3).toNat = form.toNat % 2 ^ 2 := by
  have hdigit : opcode.toNat / 2 ^ 8 % 2 ^ 8 = form.toNat := digit_eq 8 rfl 8 rfl hform
  have h13 : (field opcode 13 7).toNat = 2 := (toNat_field opcode 13 3 rfl rfl).trans (by omega)
  have h12 : bit opcode 12 = false := bit_clear 12 rfl (by omega)
  have h11 : bit opcode 11 = false := bit_clear 11 rfl (by omega)
  have h10 : bit opcode 10 = true := bit_set 10 rfl (by omega)
  refine ⟨?_, (toNat_field opcode 8 2 rfl rfl).trans (by omega)⟩
  rw [decode, h13]
  show (Condition.always, decodeRegisterGroup opcode) = _
  rw [decodeRegisterGroup, h12, h11, h10]
  rfl

theorem decode_addHigh {opcode : Word} (hform : field opcode 8 0xFF = 0x44) :
    decode opcode = (.always, .process .add false (splitRegisterField opcode 7 0)
      (splitRegisterField opcode 7 0) (.register (splitRegisterField opcode 6 3))) := by
  obtain ⟨hdecode, hcode⟩ := decode_highRegister hform rfl
  rw [hdecode, decodeHighRegister, hcode, ofNat_split_high, registerField_split]
  rfl

theorem decode_compareHigh {opcode : Word} (hform : field opcode 8 0xFF = 0x45) :
    decode opcode = (.always, .process .cmp true Register.r0 (splitRegisterField opcode 7 0)
      (.register (splitRegisterField opcode 6 3))) := by
  obtain ⟨hdecode, hcode⟩ := decode_highRegister hform rfl
  rw [hdecode, decodeHighRegister, hcode, ofNat_split_high, registerField_split]
  rfl

theorem decode_moveHigh {opcode : Word} (hform : field opcode 8 0xFF = 0x46) :
    decode opcode = (.always, .process .mov false (splitRegisterField opcode 7 0) Register.r0
      (.register (splitRegisterField opcode 6 3))) := by
  obtain ⟨hdecode, hcode⟩ := decode_highRegister hform rfl
  rw [hdecode, decodeHighRegister, hcode, ofNat_split_high, registerField_split]
  rfl

/-! ### Single transfers -/

theorem SameMeaning.wordTransfer {opcode : Word} {load byte : Bool} {register : Register}
    {how : Indexing} {offset : Operand}
    (hdecode : decode opcode = (.always,
      .transfer ⟨load, register, if byte then .byte else .word, true, false⟩ how offset))
    (hregister : register ≠ Register.pc) (hbase : how.base ≠ Register.pc)
    (hoffset : offset.AvoidsPc) (hfits : Arm.Assembly.FitsWord offset) :
    SameMeaning opcode (Assembly.wordTransfer load byte register how offset) :=
  ⟨.transfer ⟨load, register, if byte then .byte else .word, true, false⟩ how offset,
    ⟨hregister, hbase, hoffset⟩, hdecode, Arm.decode_wordTransfer load byte register how hfits⟩

theorem SameMeaning.halfwordTransfer {opcode : Word} {load signed halfword : Bool}
    {register : Register} {how : Indexing} {offset : Operand}
    (hdecode : decode opcode = (.always,
      .transfer ⟨load, register, if halfword then .halfword else .byte, true, signed⟩ how offset))
    (hkind : signed = true ∨ halfword = true) (hregister : register ≠ Register.pc)
    (hbase : how.base ≠ Register.pc) (hoffset : offset.AvoidsPc)
    (hfits : Arm.Assembly.FitsHalfword offset) :
    SameMeaning opcode (Assembly.halfwordTransfer load signed halfword register how offset) :=
  ⟨.transfer ⟨load, register, if halfword then .halfword else .byte, true, signed⟩ how offset,
    ⟨hregister, hbase, hoffset⟩, hdecode,
    Arm.decode_halfwordTransfer load register how hkind hfits⟩

theorem loadOrStore_eq (opcode : Word) (register : Register) (width : Width) :
    loadOrStore opcode register width = ⟨bit opcode 11, register, width, true, false⟩ := by
  unfold loadOrStore
  cases bit opcode 11 <;> rfl

theorem decode_registerOffset {opcode : Word} (hform : opcode.toNat / 2 ^ 12 % 2 ^ 4 = 5) :
    decode opcode = (.always, decodeRegisterOffset opcode) := by
  have h13 : (field opcode 13 7).toNat = 2 := (toNat_field opcode 13 3 rfl rfl).trans (by omega)
  have h12 : bit opcode 12 = true := bit_set 12 rfl (by omega)
  rw [decode, h13]
  show (Condition.always, decodeRegisterGroup opcode) = _
  rw [decodeRegisterGroup, h12]
  rfl

theorem decode_transfer {opcode : Word} (hform : field opcode 12 0xF = 5)
    (h9 : bit opcode 9 = false) :
    decode opcode = (.always,
      .transfer ⟨bit opcode 11, lowRegisterField opcode 0,
          if bit opcode 10 then .byte else .word, true, false⟩
        (offsetFrom (lowRegisterField opcode 3)) (.register (lowRegisterField opcode 6))) := by
  rw [decode_registerOffset (digit_eq 12 rfl 4 rfl hform), decodeRegisterOffset, h9]
  show (Condition.always, Thumb.transferAt (loadOrStore opcode _ _) _ _) = _
  rw [loadOrStore_eq]
  rfl

theorem decode_signedTransfer {opcode : Word} {load signed halfword : Bool}
    (hform : (field opcode 9 0x7F, load, signed, halfword) ∈ [(0x29, false, false, true),
      (0x2B, true, true, false), (0x2D, true, false, true), (0x2F, true, true, true)]) :
    decode opcode = (.always,
        .transfer ⟨load, lowRegisterField opcode 0, if halfword then .halfword else .byte, true,
            signed⟩
          (offsetFrom (lowRegisterField opcode 3)) (.register (lowRegisterField opcode 6))) ∧
      (signed = true ∨ halfword = true) := by
  have hread {form : Word} (h : field opcode 9 0x7F = form) (hgroup : form.toNat / 2 ^ 3 = 5)
      (hset : form.toNat % 2 = 1) :
      decode opcode = (.always, decodeRegisterOffset opcode) ∧ bit opcode 9 = true ∧
        (field opcode 10 3).toNat = form.toNat / 2 % 2 ^ 2 := by
    have hdigit : opcode.toNat / 2 ^ 9 % 2 ^ 7 = form.toNat := digit_eq 9 rfl 7 rfl h
    exact ⟨decode_registerOffset (by omega), bit_set 9 rfl (by omega),
      (toNat_field opcode 10 2 rfl rfl).trans (by omega)⟩
  simp only [List.mem_cons, Prod.mk.injEq, List.not_mem_nil, or_false] at hform
  rcases hform with ⟨h, rfl, rfl, rfl⟩ | ⟨h, rfl, rfl, rfl⟩ | ⟨h, rfl, rfl, rfl⟩ |
      ⟨h, rfl, rfl, rfl⟩ <;>
    (obtain ⟨hdecode, h9, hcode⟩ := hread h rfl rfl
     rw [hdecode, decodeRegisterOffset, h9, hcode]
     exact ⟨rfl, by decide⟩)

theorem decode_transferAt {opcode : Word} (hform : field opcode 13 7 = 3) :
    decode opcode = (.always,
      .transfer ⟨bit opcode 11, lowRegisterField opcode 0,
          if bit opcode 12 then .byte else .word, true, false⟩
        (offsetFrom (lowRegisterField opcode 3))
        (.constant (field opcode 6 0x1F * if bit opcode 12 then 1 else 4))) := by
  rw [decode, hform]
  show (Condition.always, decodeConstantOffset opcode) = _
  rw [decodeConstantOffset, loadOrStore_eq]
  cases bit opcode 12 <;> rfl

theorem decode_halfwordTransferAt {opcode : Word} (hform : field opcode 12 0xF = 8) :
    decode opcode = (.always,
      .transfer ⟨bit opcode 11, lowRegisterField opcode 0, .halfword, true, false⟩
        (offsetFrom (lowRegisterField opcode 3)) (.constant (field opcode 6 0x1F * 2))) := by
  have hdigit : opcode.toNat / 2 ^ 12 % 2 ^ 4 = 8 := digit_eq 12 rfl 4 rfl hform
  have h13 : (field opcode 13 7).toNat = 4 := (toNat_field opcode 13 3 rfl rfl).trans (by omega)
  have h12 : bit opcode 12 = false := bit_clear 12 rfl (by omega)
  rw [decode, h13]
  show (Condition.always, decodeHalfwordGroup opcode) = _
  rw [decodeHalfwordGroup, h12, loadOrStore_eq, loadOrStore_eq]
  rfl

theorem decode_stackTransfer {opcode : Word} (hform : field opcode 12 0xF = 9) :
    decode opcode = (.always,
      .transfer ⟨bit opcode 11, lowRegisterField opcode 8, .word, true, false⟩
        (offsetFrom Register.sp) (.constant ((opcode &&& 0xFF) * 4))) := by
  have hdigit : opcode.toNat / 2 ^ 12 % 2 ^ 4 = 9 := digit_eq 12 rfl 4 rfl hform
  have h13 : (field opcode 13 7).toNat = 4 := (toNat_field opcode 13 3 rfl rfl).trans (by omega)
  have h12 : bit opcode 12 = true := bit_set 12 rfl (by omega)
  rw [decode, h13]
  show (Condition.always, decodeHalfwordGroup opcode) = _
  rw [decodeHalfwordGroup, h12, loadOrStore_eq, loadOrStore_eq]
  rfl

/-! ### The stack and lists of registers -/

theorem SameMeaning.blockTransfer {opcode : Word} {load : Bool} {list : UInt16} {how : Indexing}
    (hdecode : decode opcode = (.always, .blockTransfer load list how false)) (hlist : list ≠ 0)
    (hlow : list.toNat < 2 ^ 15) (hbase : how.base ≠ Register.pc) :
    SameMeaning opcode (Assembly.blockTransfer load list how) :=
  ⟨.blockTransfer load list how false, ⟨hlist, pc_not_mem hlow, hbase, rfl⟩, hdecode,
    Arm.decode_blockTransfer load list how⟩

theorem decode_miscellaneous {opcode : Word} (hform : opcode.toNat / 2 ^ 13 % 2 ^ 3 = 5) :
    decode opcode = (.always, decodeMiscellaneous opcode) := by
  have h13 : (field opcode 13 7).toNat = 5 := (toNat_field opcode 13 3 rfl rfl).trans hform
  rw [decode, h13]
  rfl

theorem decode_stackAddress {opcode : Word} (hform : field opcode 11 0x1F = 0x15) :
    decode opcode = (.always, .process .add false (lowRegisterField opcode 8) Register.sp
      (.rotated (opcode &&& 0xFF) 30)) := by
  have hdigit : opcode.toNat / 2 ^ 11 % 2 ^ 5 = 21 := digit_eq 11 rfl 5 rfl hform
  have h12 : bit opcode 12 = false := bit_clear 12 rfl (by omega)
  have h11 : bit opcode 11 = true := bit_set 11 rfl (by omega)
  rw [decode_miscellaneous (by omega), decodeMiscellaneous, h12, h11]
  rfl

theorem decode_moveStack {opcode : Word} (hform : field opcode 8 0xFF = 0xB0) :
    decode opcode = (.always, .process (if bit opcode 7 then .sub else .add) false Register.sp
      Register.sp (.rotated (opcode &&& 0x7F) 30)) := by
  have hdigit : opcode.toNat / 2 ^ 8 % 2 ^ 8 = 0xB0 := digit_eq 8 rfl 8 rfl hform
  have h12 : bit opcode 12 = true := bit_set 12 rfl (by omega)
  have h10 : bit opcode 10 = false := bit_clear 10 rfl (by omega)
  have h8 : field opcode 8 0xF = 0 := field_eq 8 rfl 4 rfl (by change _ = 0; omega)
  rw [decode_miscellaneous (by omega), decodeMiscellaneous, h12, h10, and_bits8_iff.mpr h8]
  rfl

theorem decode_push {opcode : Word} (hform : field opcode 9 0x7F = 0x5A) :
    decode opcode = (.always, .blockTransfer false (pushed opcode)
      ⟨Register.sp, false, true, true⟩ false) := by
  have hdigit : opcode.toNat / 2 ^ 9 % 2 ^ 7 = 0x5A := digit_eq 9 rfl 7 rfl hform
  have h12 : bit opcode 12 = true := bit_set 12 rfl (by omega)
  have h11 : bit opcode 11 = false := bit_clear 11 rfl (by omega)
  have h10 : bit opcode 10 = true := bit_set 10 rfl (by omega)
  have h9 : bit opcode 9 = false := bit_clear 9 rfl (by omega)
  rw [decode_miscellaneous (by omega), decodeMiscellaneous, h12, h10, h9]
  show (Condition.always, pushOrPop opcode) = _
  rw [pushOrPop, h11]
  rfl

theorem decode_pop {opcode : Word} (hform : field opcode 8 0xFF = 0xBC) :
    decode opcode = (.always, .blockTransfer true (opcode &&& 0xFF).toUInt16
      ⟨Register.sp, true, false, true⟩ false) := by
  have hdigit : opcode.toNat / 2 ^ 8 % 2 ^ 8 = 0xBC := digit_eq 8 rfl 8 rfl hform
  have h12 : bit opcode 12 = true := bit_set 12 rfl (by omega)
  have h11 : bit opcode 11 = true := bit_set 11 rfl (by omega)
  have h10 : bit opcode 10 = true := bit_set 10 rfl (by omega)
  have h9 : bit opcode 9 = false := bit_clear 9 rfl (by omega)
  have h8 : bit opcode 8 = false := bit_clear 8 rfl (by omega)
  rw [decode_miscellaneous (by omega), decodeMiscellaneous, h12, h10, h9]
  show (Condition.always, pushOrPop opcode) = _
  rw [pushOrPop, h11, h8]
  simp only [Bool.false_eq_true, if_false, UInt32.or_zero]
  rfl

theorem decode_transferList {opcode : Word} (hform : field opcode 12 0xF = 0xC) :
    decode opcode = (.always, .blockTransfer (bit opcode 11) (opcode &&& 0xFF).toUInt16
      ⟨lowRegisterField opcode 8, true, false, true⟩ false) := by
  have hdigit : opcode.toNat / 2 ^ 12 % 2 ^ 4 = 12 := digit_eq 12 rfl 4 rfl hform
  have h13 : (field opcode 13 7).toNat = 6 := (toNat_field opcode 13 3 rfl rfl).trans (by omega)
  have h12 : bit opcode 12 = false := bit_clear 12 rfl (by omega)
  rw [decode, h13]
  show decodeBranchGroup opcode = _
  rw [decodeBranchGroup, h12]
  rfl

theorem toNat_pushed_lt (opcode : Word) : (pushed opcode).toNat < 2 ^ 15 := by
  have hlow : (opcode &&& 0xFF).toNat < 2 ^ 8 := toNat_and_lt opcode rfl
  have hlink : (if bit opcode 8 then 0x4000 else 0 : Word).toNat < 2 ^ 15 := by
    split <;> decide
  rw [pushed, UInt32.toNat_toUInt16, UInt32.toNat_or]
  exact (Nat.mod_le ..).trans_lt (Nat.or_lt_two_pow (by omega) hlink)

theorem list_ne_zero {opcode : Word} (h : opcode &&& 0xFF ≠ 0) :
    (opcode &&& 0xFF).toUInt16 ≠ 0 := by
  rw [ne_eq, ← UInt16.toNat_inj, toNat_list]
  exact fun hzero => h (UInt32.toNat_inj.mp hzero)

/-! ## The meaning of the table -/

/-- An opcode and its equivalent mean the same. -/
theorem Equivalent.sameMeaning {opcode arm : Word} (h : Equivalent opcode arm) :
    SameMeaning opcode arm := by
  have low (k : Word) : lowRegisterField opcode k ≠ Register.pc := lowRegisterField_ne_pc opcode k
  have hbyte : (opcode &&& 0xFF).toNat < 2 ^ 8 := toNat_and_lt opcode rfl
  have hfive : (field opcode 6 0x1F).toNat < 2 ^ 5 := toNat_field_lt opcode 6 rfl
  have hlist : (opcode &&& 0xFF).toUInt16.toNat < 2 ^ 15 := by
    rw [toNat_list]
    omega
  cases h with
  | shift hform hshift =>
    exact .process (decode_shift hform hshift) (.inl rfl) (low 0) r0_ne_pc (low 3) hfive
  | sum hform =>
    refine .process (decode_sum hform) (.inr rfl) (low 0) (low 3) ?_ ?_
    · split
      · trivial
      · exact low 6
    · split
      · have hthree : (field opcode 6 7).toNat < 2 ^ 3 := toNat_field_lt opcode 6 rfl
        exact fits_constant (by omega)
      · exact fits_register _
  | moveConstant hform =>
    exact .process (decode_moveConstant hform) (.inl rfl) (low 8) r0_ne_pc trivial
      (fits_constant hbyte)
  | compareConstant hform =>
    exact .process (decode_compareConstant hform) (.inr rfl) r0_ne_pc (low 8) trivial
      (fits_constant hbyte)
  | sumConstant hform =>
    obtain ⟨hdecode, hkeeps⟩ := decode_sumConstant hform
    exact .process hdecode (.inl hkeeps) (low 8) (low 8) trivial (fits_constant hbyte)
  | operate hform =>
    obtain ⟨hdecode, hkeeps⟩ := decode_operate hform
    exact .process hdecode (.inl hkeeps) (low 0) (low 0) (low 3) (fits_register _)
  | shiftBy hform =>
    exact .process (decode_shiftBy hform) (.inl rfl) (low 0) r0_ne_pc ⟨low 0, low 3⟩ trivial
  | test hform =>
    exact .process (decode_test hform) (.inr rfl) r0_ne_pc (low 0) (low 3) (fits_register _)
  | negate hform =>
    exact .process (decode_negate hform) (.inl rfl) (low 0) (low 3) trivial
      (fits_constant (by decide))
  | multiply hform =>
    exact ⟨.multiply true (lowRegisterField opcode 0) (lowRegisterField opcode 3)
      (lowRegisterField opcode 0) none, ⟨low 3, low 0, nofun⟩, decode_multiply hform,
      Arm.decode_multiply ..⟩
  | complement hform =>
    exact .process (decode_complement hform) (.inl rfl) (low 0) r0_ne_pc (low 3) (fits_register _)
  | addHigh hform hd hs =>
    exact .process (decode_addHigh hform) (.inl rfl) hd hd hs (fits_register _)
  | compareHigh hform hd hs =>
    exact .process (decode_compareHigh hform) (.inr rfl) r0_ne_pc hd hs (fits_register _)
  | moveHigh hform hd hs =>
    exact .process (decode_moveHigh hform) (.inl rfl) hd r0_ne_pc hs (fits_register _)
  | transfer hform h9 =>
    exact .wordTransfer (decode_transfer hform h9) (low 0) (low 3) (low 6) (fitsWord_register _)
  | signedTransfer hform =>
    obtain ⟨hdecode, hkind⟩ := decode_signedTransfer hform
    exact .halfwordTransfer hdecode hkind (low 0) (low 3) (low 6) ⟨rfl, rfl⟩
  | transferAt hform =>
    refine .wordTransfer (decode_transferAt hform) (low 0) (low 3) trivial
      ⟨(toNat_mul_le ..).trans_lt ?_, rfl⟩
    have hfactor : (if bit opcode 12 then 1 else 4 : Word).toNat ≤ 4 := by split <;> decide
    exact (Nat.mul_le_mul (Nat.le_of_lt hfive) hfactor).trans_lt (by decide)
  | halfwordTransferAt hform =>
    refine .halfwordTransfer (decode_halfwordTransferAt hform) (.inr rfl) (low 0) (low 3) trivial
      ⟨(toNat_mul_le ..).trans_lt ?_, rfl⟩
    exact (Nat.mul_le_mul_right 2 (Nat.le_of_lt hfive)).trans_lt (by decide)
  | stackTransfer hform =>
    refine .wordTransfer (decode_stackTransfer hform) (low 8) sp_ne_pc trivial
      ⟨(toNat_mul_le ..).trans_lt ?_, rfl⟩
    exact (Nat.mul_le_mul_right 4 (Nat.le_of_lt hbyte)).trans_lt (by decide)
  | stackAddress hform =>
    exact .process (decode_stackAddress hform) (.inl rfl) (low 8) sp_ne_pc trivial
      ⟨hbyte, by decide, by decide⟩
  | moveStack hform =>
    have hseven : (opcode &&& 0x7F).toNat < 2 ^ 7 := toNat_and_lt opcode rfl
    refine .process (decode_moveStack hform) (.inl ?_) sp_ne_pc sp_ne_pc trivial
      ⟨by omega, by decide, by decide⟩
    split <;> rfl
  | push hform hpushed =>
    exact .blockTransfer (decode_push hform) hpushed (toNat_pushed_lt opcode) sp_ne_pc
  | pop hform hsome =>
    exact .blockTransfer (decode_pop hform) (list_ne_zero hsome) hlist sp_ne_pc
  | transferList hform hsome =>
    exact .blockTransfer (decode_transferList hform) (list_ne_zero hsome) hlist (low 8)

/-! ## The extent of the table -/

theorem exists_shiftGroup {opcode : Word} (h13 : opcode.toNat / 2 ^ 13 % 2 ^ 3 = 0) :
    ∃ arm, Equivalent opcode arm := by
  by_cases h11 : field opcode 11 3 = 3
  · have hdigit : opcode.toNat / 2 ^ 11 % 2 ^ 2 = 3 := digit_eq 11 rfl 2 rfl h11
    exact ⟨_, .sum (field_eq 11 rfl 5 rfl (by change _ = 3; omega))⟩
  · exact ⟨_, .shift (field_eq 13 rfl 3 rfl h13) h11⟩

theorem exists_constantGroup {opcode : Word} (h13 : opcode.toNat / 2 ^ 13 % 2 ^ 3 = 1) :
    ∃ arm, Equivalent opcode arm := by
  have hform {form : Word} (h : opcode.toNat / 2 ^ 11 % 2 ^ 5 = form.toNat) :
      field opcode 11 0x1F = form := field_eq 11 rfl 5 rfl h
  obtain h | h | h | h : opcode.toNat / 2 ^ 11 % 2 ^ 5 = 4 ∨ opcode.toNat / 2 ^ 11 % 2 ^ 5 = 5 ∨
      opcode.toNat / 2 ^ 11 % 2 ^ 5 = 6 ∨ opcode.toNat / 2 ^ 11 % 2 ^ 5 = 7 := by omega
  · exact ⟨_, .moveConstant (hform h)⟩
  · exact ⟨_, .compareConstant (hform h)⟩
  · have hadd : field opcode 11 0x1F = 6 := hform h
    exact ⟨_, .sumConstant (by rw [hadd]; exact List.mem_cons_self)⟩
  · have hsub : field opcode 11 0x1F = 7 := hform h
    exact ⟨_, .sumConstant (by rw [hsub]; exact List.mem_cons_of_mem _ List.mem_cons_self)⟩

theorem exists_registerOperation {opcode : Word} (h10 : opcode.toNat / 2 ^ 10 % 2 ^ 6 = 16) :
    ∃ arm, Equivalent opcode arm := by
  have hlt : opcode.toNat / 2 ^ 6 % 2 ^ 4 < 2 ^ 4 := Nat.mod_lt _ (by decide)
  have hform : field opcode 6 0x3FF =
      UInt32.ofNat (0x100 + opcode.toNat / 2 ^ 6 % 2 ^ 4) := by
    refine field_eq 6 rfl 10 rfl ?_
    rw [UInt32.toNat_ofNat']
    omega
  have hoperate (operation : Operation) := @Equivalent.operate opcode operation
  have hshift (shift : Shift) := @Equivalent.shiftBy opcode shift
  have htest (operation : Operation) := @Equivalent.test opcode operation
  generalize opcode.toNat / 2 ^ 6 % 2 ^ 4 = code at hlt hform
  rw [hform] at hoperate hshift htest
  interval_cases code
  · exact ⟨_, hoperate .and (by decide)⟩
  · exact ⟨_, hoperate .eor (by decide)⟩
  · exact ⟨_, hshift .lsl (by decide)⟩
  · exact ⟨_, hshift .lsr (by decide)⟩
  · exact ⟨_, hshift .asr (by decide)⟩
  · exact ⟨_, hoperate .adc (by decide)⟩
  · exact ⟨_, hoperate .sbc (by decide)⟩
  · exact ⟨_, hshift .ror (by decide)⟩
  · exact ⟨_, htest .tst (by decide)⟩
  · exact ⟨_, .negate hform⟩
  · exact ⟨_, htest .cmp (by decide)⟩
  · exact ⟨_, htest .cmn (by decide)⟩
  · exact ⟨_, hoperate .orr (by decide)⟩
  · exact ⟨_, .multiply hform⟩
  · exact ⟨_, hoperate .bic (by decide)⟩
  · exact ⟨_, .complement hform⟩

theorem exists_highRegister {opcode : Word} (h10 : opcode.toNat / 2 ^ 10 % 2 ^ 6 = 17)
    (hp : (decode opcode).2.Portable) : ∃ arm, Equivalent opcode arm := by
  have hform {form : Word} (h : opcode.toNat / 2 ^ 8 % 2 ^ 8 = form.toNat) :
      field opcode 8 0xFF = form := field_eq 8 rfl 8 rfl h
  obtain h | h | h | h : opcode.toNat / 2 ^ 8 % 2 ^ 8 = 0x44 ∨
      opcode.toNat / 2 ^ 8 % 2 ^ 8 = 0x45 ∨ opcode.toNat / 2 ^ 8 % 2 ^ 8 = 0x46 ∨
      opcode.toNat / 2 ^ 8 % 2 ^ 8 = 0x47 := by omega
  · rw [decode_addHigh (hform h)] at hp
    exact ⟨_, .addHigh (hform h) hp.1 hp.2.2⟩
  · rw [decode_compareHigh (hform h)] at hp
    exact ⟨_, .compareHigh (hform h) hp.2.1 hp.2.2⟩
  · rw [decode_moveHigh (hform h)] at hp
    exact ⟨_, .moveHigh (hform h) hp.1 hp.2.2⟩
  · have hbranch : field opcode 8 0xFF = 0x47 := hform h
    obtain ⟨hdecode, hcode⟩ := decode_highRegister hbranch rfl
    rw [hdecode, decodeHighRegister, hcode] at hp
    exact absurd hp id

theorem exists_registerOffset {opcode : Word} (h12 : opcode.toNat / 2 ^ 12 % 2 ^ 4 = 5) :
    ∃ arm, Equivalent opcode arm := by
  have hform (form : Word) (h : opcode.toNat / 2 ^ 9 % 2 ^ 7 = form.toNat) :
      field opcode 9 0x7F = form := field_eq 9 rfl 7 rfl h
  have hsigned (load signed halfword : Bool) :=
    @Equivalent.signedTransfer opcode load signed halfword
  obtain h | h | h | h | h : opcode.toNat / 2 ^ 9 % 2 = 0 ∨ opcode.toNat / 2 ^ 9 % 2 ^ 7 = 0x29 ∨
      opcode.toNat / 2 ^ 9 % 2 ^ 7 = 0x2B ∨ opcode.toNat / 2 ^ 9 % 2 ^ 7 = 0x2D ∨
      opcode.toNat / 2 ^ 9 % 2 ^ 7 = 0x2F := by omega
  · exact ⟨_, .transfer (field_eq 12 rfl 4 rfl h12) (bit_clear 9 rfl h)⟩
  · exact ⟨_, hsigned false false true (by rw [hform 0x29 h]; decide)⟩
  · exact ⟨_, hsigned true true false (by rw [hform 0x2B h]; decide)⟩
  · exact ⟨_, hsigned true false true (by rw [hform 0x2D h]; decide)⟩
  · exact ⟨_, hsigned true true true (by rw [hform 0x2F h]; decide)⟩

theorem exists_registerGroup {opcode : Word} (h13 : opcode.toNat / 2 ^ 13 % 2 ^ 3 = 2)
    (hp : (decode opcode).2.Portable) : ∃ arm, Equivalent opcode arm := by
  obtain h | h | h | h : opcode.toNat / 2 ^ 12 % 2 ^ 4 = 5 ∨ opcode.toNat / 2 ^ 11 % 2 ^ 5 = 9 ∨
      opcode.toNat / 2 ^ 10 % 2 ^ 6 = 17 ∨ opcode.toNat / 2 ^ 10 % 2 ^ 6 = 16 := by omega
  · exact exists_registerOffset h
  · have hgroup : (field opcode 13 7).toNat = 2 := (toNat_field opcode 13 3 rfl rfl).trans h13
    have h12 : bit opcode 12 = false := bit_clear 12 rfl (by omega)
    have h11 : bit opcode 11 = true := bit_set 11 rfl (by omega)
    rw [decode, hgroup] at hp
    change (decodeRegisterGroup opcode).Portable at hp
    rw [decodeRegisterGroup, h12, h11] at hp
    exact absurd hp id
  · exact exists_highRegister h hp
  · exact exists_registerOperation h

theorem pc_mem_of_pop (opcode : Word) :
    Register.pc ∈ registersOf (opcode &&& 0xFF ||| 0x8000).toUInt16 := by
  have hlow : (opcode &&& 0xFF).toNat < 2 ^ 8 := toNat_and_lt opcode rfl
  have hor : (opcode &&& 0xFF ||| 0x8000).toNat = 2 ^ 15 + (opcode &&& 0xFF).toNat := by
    rw [UInt32.toNat_or, Nat.or_comm]
    exact (Nat.shiftLeft_add_eq_or_of_lt (show _ < 2 ^ 15 by omega) 1).symm
  refine List.mem_filter.mpr ⟨List.mem_finRange _, bit_set 15 rfl ?_⟩
  rw [UInt16.toNat_toUInt32, UInt32.toNat_toUInt16, hor]
  omega

theorem exists_stackGroup {opcode : Word} (h12 : opcode.toNat / 2 ^ 12 % 2 ^ 4 = 11)
    (hp : (decode opcode).2.Portable) : ∃ arm, Equivalent opcode arm := by
  have h12' : bit opcode 12 = true := bit_set 12 rfl (by omega)
  have hform (form : Word) (h : opcode.toNat / 2 ^ 8 % 2 ^ 8 = form.toNat) :
      field opcode 8 0xFF = form := field_eq 8 rfl 8 rfl h
  have hmiscellaneous : decode opcode = (.always, decodeMiscellaneous opcode) :=
    decode_miscellaneous (by omega)
  obtain h | h | h | h | ⟨h10, h9⟩ | ⟨h10, h8⟩ : opcode.toNat / 2 ^ 9 % 2 ^ 7 = 0x5A ∨
      opcode.toNat / 2 ^ 8 % 2 ^ 8 = 0xBC ∨ opcode.toNat / 2 ^ 8 % 2 ^ 8 = 0xBD ∨
      opcode.toNat / 2 ^ 8 % 2 ^ 8 = 0xB0 ∨
      (opcode.toNat / 2 ^ 10 % 2 = 1 ∧ opcode.toNat / 2 ^ 9 % 2 = 1) ∨
      (opcode.toNat / 2 ^ 10 % 2 = 0 ∧ opcode.toNat / 2 ^ 8 % 2 ^ 4 ≠ 0) := by omega
  · have hpush : field opcode 9 0x7F = 0x5A := field_eq 9 rfl 7 rfl h
    rw [decode_push hpush] at hp
    exact ⟨_, .push hpush hp.1⟩
  · rw [decode_pop (hform 0xBC h)] at hp
    exact ⟨_, .pop (hform 0xBC h) fun hzero => hp.1 (by rw [hzero]; rfl)⟩
  · have h11 : bit opcode 11 = true := bit_set 11 rfl (by omega)
    have h10 : bit opcode 10 = true := bit_set 10 rfl (by omega)
    have h9 : bit opcode 9 = false := bit_clear 9 rfl (by omega)
    have h8 : bit opcode 8 = true := bit_set 8 rfl (by omega)
    rw [hmiscellaneous, decodeMiscellaneous, h12', h10, h9] at hp
    change (pushOrPop opcode).Portable at hp
    rw [pushOrPop, h11, h8] at hp
    exact absurd (pc_mem_of_pop opcode) hp.2.1
  · exact ⟨_, .moveStack (hform 0xB0 h)⟩
  · rw [hmiscellaneous, decodeMiscellaneous, h12', bit_set 10 rfl h10, bit_set 9 rfl h9] at hp
    exact absurd hp id
  · have h8 : opcode &&& 0xF00 ≠ 0 := fun hzero =>
      h8 (digit_eq 8 rfl 4 rfl (and_bits8_iff.mp hzero))
    rw [hmiscellaneous, decodeMiscellaneous, h12', bit_clear 10 rfl h10] at hp
    simp only [if_true, Bool.false_eq_true, if_false, if_neg h8] at hp
    exact absurd hp id

theorem exists_miscellaneous {opcode : Word} (h13 : opcode.toNat / 2 ^ 13 % 2 ^ 3 = 5)
    (hp : (decode opcode).2.Portable) : ∃ arm, Equivalent opcode arm := by
  obtain h | h | h : opcode.toNat / 2 ^ 12 % 2 ^ 4 = 11 ∨ opcode.toNat / 2 ^ 11 % 2 ^ 5 = 21 ∨
      opcode.toNat / 2 ^ 11 % 2 ^ 5 = 20 := by omega
  · exact exists_stackGroup h hp
  · exact ⟨_, .stackAddress (field_eq 11 rfl 5 rfl h)⟩
  · have h12 : bit opcode 12 = false := bit_clear 12 rfl (by omega)
    have h11 : bit opcode 11 = false := bit_clear 11 rfl (by omega)
    rw [decode_miscellaneous h13, decodeMiscellaneous, h12, h11] at hp
    exact absurd hp id

theorem exists_branchGroup {opcode : Word} (h13 : opcode.toNat / 2 ^ 13 % 2 ^ 3 = 6)
    (hp : (decode opcode).2.Portable) : ∃ arm, Equivalent opcode arm := by
  have hgroup : (field opcode 13 7).toNat = 6 := (toNat_field opcode 13 3 rfl rfl).trans h13
  by_cases h12 : bit opcode 12 = true
  · rw [decode, hgroup] at hp
    change (decodeBranchGroup opcode).2.Portable at hp
    rw [decodeBranchGroup, h12] at hp
    simp only [if_true] at hp
    split at hp <;> exact absurd hp id
  · have hbit : (bit opcode 12).toNat = opcode.toNat / 2 ^ 12 % 2 := toNat_bit 12 rfl
    rw [Bool.eq_false_iff.mpr h12, Bool.toNat_false] at hbit
    have hform : field opcode 12 0xF = 0xC := field_eq 12 rfl 4 rfl (by change _ = 12; omega)
    rw [decode_transferList hform] at hp
    exact ⟨_, .transferList hform fun hzero => hp.1 (by rw [hzero]; rfl)⟩

theorem not_portable_longBranch {opcode : Word} (h13 : opcode.toNat / 2 ^ 13 % 2 ^ 3 = 7) :
    ¬ (decode opcode).2.Portable := by
  have hgroup : (field opcode 13 7).toNat = 7 := (toNat_field opcode 13 3 rfl rfl).trans h13
  rw [decode, hgroup]
  change ¬ (decodeLongBranch opcode).Portable
  unfold decodeLongBranch
  split_ifs <;> exact id

/-- **The extent of the table.** The short forms are just the 16-bit opcodes that are decoded to
portable instructions. -/
theorem exists_equivalent_iff {opcode : Word} :
    (∃ arm, Equivalent opcode arm) ↔ (decode opcode).2.Portable := by
  constructor
  · rintro ⟨arm, h⟩
    obtain ⟨i, hi, hdecode, -⟩ := h.sameMeaning
    rw [hdecode]
    exact hi
  · intro hp
    obtain h | h | h | h | h | h | h | h :
        opcode.toNat / 2 ^ 13 % 2 ^ 3 = 0 ∨ opcode.toNat / 2 ^ 13 % 2 ^ 3 = 1 ∨
        opcode.toNat / 2 ^ 13 % 2 ^ 3 = 2 ∨ opcode.toNat / 2 ^ 13 % 2 ^ 3 = 3 ∨
        opcode.toNat / 2 ^ 13 % 2 ^ 3 = 4 ∨ opcode.toNat / 2 ^ 13 % 2 ^ 3 = 5 ∨
        opcode.toNat / 2 ^ 13 % 2 ^ 3 = 6 ∨ opcode.toNat / 2 ^ 13 % 2 ^ 3 = 7 := by omega
    · exact exists_shiftGroup h
    · exact exists_constantGroup h
    · exact exists_registerGroup h hp
    · exact ⟨_, .transferAt (field_eq 13 rfl 3 rfl h)⟩
    · obtain h | h : opcode.toNat / 2 ^ 12 % 2 ^ 4 = 8 ∨ opcode.toNat / 2 ^ 12 % 2 ^ 4 = 9 := by
        omega
      · exact ⟨_, .halfwordTransferAt (field_eq 12 rfl 4 rfl h)⟩
      · exact ⟨_, .stackTransfer (field_eq 12 rfl 4 rfl h)⟩
    · exact exists_miscellaneous h hp
    · exact exists_branchGroup h hp
    · exact absurd hp (not_portable_longBranch h)

end Thumb

/-! ## Refinement -/

namespace Processor

/-- **The short forms mean their equivalents.** Let one processor execute a 16-bit opcode and
another one its 32-bit equivalent, with the same registers apart from the program counter, the same
flags and the same cost of the last fetch. They end so, for the same cycles, and leave the same bus,
with the same record of what was read and written, where, in which width and in which order. -/
theorem thumb_refines_arm {β : Type} [Bus β] {p q : Processor} (h : Twins p q)
    (hp : p.thumb = true) (hq : q.thumb = false)
    (he : Thumb.Equivalent p.pipeline.executing q.pipeline.executing) (bus : Recorded β) :
    (p.executeCurrent bus).Twins (q.executeCurrent bus) := by
  obtain ⟨i, hi, hthumb, harm⟩ := he.sameMeaning
  have hpi : p.current = (.always, i) := (if_pos hp).trans hthumb
  have hqi : q.current = (.always, i) := (if_neg (Bool.eq_false_iff.mp hq)).trans harm
  have hpx : p.executeCurrent bus = p.execute bus i := by
    rw [executeCurrent_eq, hpi]
    rfl
  have hqx : q.executeCurrent bus = q.execute bus i := by
    rw [executeCurrent_eq, hqi]
    rfl
  rw [hpx, hqx]
  exact execute_twins h bus hi

/-- A processor about to execute `PUSH {r0, lr}`. -/
def pushing : Processor :=
  { powerOn with status := powerOn.status.setThumb true, pipeline := ⟨0xB501, 0, 0⟩ }

/-- A processor about to execute `STMDB SP!, {r0, lr}`. -/
def storing : Processor :=
  { powerOn with pipeline := ⟨0xE92D4001, 0, 0⟩ }

/-- Memory that is never read. -/
def unread : Recorded (Listing fun _ _ => 0) := ⟨⟨⟩, []⟩

/-- Both store the two registers below the stack pointer. -/
theorem thumb_refines_arm_push :
    Twins pushing storing ∧ pushing.thumb = true ∧ storing.thumb = false ∧
      Thumb.Equivalent pushing.pipeline.executing storing.pipeline.executing ∧
      (pushing.executeCurrent unread).Twins (storing.executeCurrent unread) ∧
      (storing.executeCurrent unread).bus.accesses =
        [.write 0xFFFFFFFC 0 .word, .write 0xFFFFFFF8 0 .word] := by
  have htwins : Twins pushing storing := ⟨by decide +kernel, by decide, rfl⟩
  have hp : pushing.thumb = true := by decide
  have hq : storing.thumb = false := by decide
  have hequivalent : Thumb.Equivalent pushing.pipeline.executing storing.pipeline.executing := by
    have hopcode : Arm.Assembly.blockTransfer false (Thumb.pushed 0xB501)
        ⟨Register.sp, false, true, true⟩ = 0xE92D4001 := by decide +kernel
    show Thumb.Equivalent 0xB501 0xE92D4001
    rw [← hopcode]
    exact .push (by decide) (by decide)
  exact ⟨htwins, hp, hq, hequivalent, thumb_refines_arm htwins hp hq hequivalent unread,
    by decide +kernel⟩

end Processor

end Handheld
