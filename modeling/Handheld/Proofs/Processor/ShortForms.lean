import Handheld.Proofs.Processor.Decode.Thumb
import Handheld.Proofs.Processor.Assembly

/-!
# The short forms

Most 16-bit opcodes are short forms of 32-bit opcodes that hold always. Here the table of the
short forms is written down from the fields of both, apart from any decoding.

1. `Thumb.Equivalent` is the table, one case for each form.
2. The registers and constants of a short form fit in the fields of its equivalent
   (`fits_register`, `fits_constant`), and its lists leave out the program counter
   (`pc_not_mem`).
-/

namespace Handheld

namespace Thumb

open Arm (Assembly.process Assembly.multiply Assembly.wordTransfer Assembly.halfwordTransfer
  Assembly.blockTransfer)

/-! ## The table -/

/-- An address at a base plus an offset, which leaves the base. -/
def offsetFrom (base : Register) : Indexing := ⟨base, true, true, false⟩

/-- The register whose highest bit is apart from the other three. -/
def splitRegisterField (opcode high low : Word) : Register :=
  Register.ofNat (8 * (bit opcode high).toNat + (field opcode low 7).toNat)

/-- The registers of a push: some of the first eight, and perhaps the link register. -/
def pushed (opcode : Word) : UInt16 :=
  (opcode &&& 0xFF ||| if bit opcode 8 then 0x4000 else 0).toUInt16

/-- The 32-bit opcode of which a 16-bit opcode is a short form. -/
inductive Equivalent (opcode : Word) : Word → Prop
  /-- A shift by a constant: `MOVS Rd, Rs, shift #n`. -/
  | shift (hform : field opcode 13 7 = 0) (hshift : field opcode 11 3 ≠ 3) :
    Equivalent opcode (Assembly.process .mov true (lowRegisterField opcode 0) Register.r0
      (.shifted (lowRegisterField opcode 3) (Shift.ofCode (opcode >>> 11)) (field opcode 6 0x1F)))
  /-- A sum or a difference: `ADDS Rd, Rs, Rn`, `ADDS Rd, Rs, #n`, and `SUBS` in the same way. -/
  | sum (hform : field opcode 11 0x1F = 3) :
    Equivalent opcode (Assembly.process (if bit opcode 9 then .sub else .add) true
      (lowRegisterField opcode 0) (lowRegisterField opcode 3)
      (if bit opcode 10 then .constant (field opcode 6 7)
        else .register (lowRegisterField opcode 6)))
  /-- A constant: `MOVS Rd, #n`. -/
  | moveConstant (hform : field opcode 11 0x1F = 4) :
    Equivalent opcode (Assembly.process .mov true (lowRegisterField opcode 8) Register.r0
      (.constant (opcode &&& 0xFF)))
  /-- A comparison with a constant: `CMP Rd, #n`. -/
  | compareConstant (hform : field opcode 11 0x1F = 5) :
    Equivalent opcode (Assembly.process .cmp true Register.r0 (lowRegisterField opcode 8)
      (.constant (opcode &&& 0xFF)))
  /-- A sum or a difference with a constant: `ADDS Rd, Rd, #n` and `SUBS Rd, Rd, #n`. -/
  | sumConstant {operation : Operation}
    (hform : (field opcode 11 0x1F, operation) ∈ [(6, .add), (7, .sub)]) :
    Equivalent opcode (Assembly.process operation true (lowRegisterField opcode 8)
      (lowRegisterField opcode 8) (.constant (opcode &&& 0xFF)))
  /-- An operation on a register: `ANDS Rd, Rd, Rs` and its like. -/
  | operate {operation : Operation}
    (hform : (field opcode 6 0x3FF, operation) ∈ [(0x100, .and), (0x101, .eor), (0x105, .adc),
      (0x106, .sbc), (0x10C, .orr), (0x10E, .bic)]) :
    Equivalent opcode (Assembly.process operation true (lowRegisterField opcode 0)
      (lowRegisterField opcode 0) (.register (lowRegisterField opcode 3)))
  /-- A shift by a register: `MOVS Rd, Rd, shift Rs`. -/
  | shiftBy {shift : Shift}
    (hform : (field opcode 6 0x3FF, shift) ∈ [(0x102, .lsl), (0x103, .lsr), (0x104, .asr),
      (0x107, .ror)]) :
    Equivalent opcode (Assembly.process .mov true (lowRegisterField opcode 0) Register.r0
      (.shiftedBy (lowRegisterField opcode 0) shift (lowRegisterField opcode 3)))
  /-- A test: `TST Rd, Rs` and its like. -/
  | test {operation : Operation}
    (hform : (field opcode 6 0x3FF, operation) ∈ [(0x108, .tst), (0x10A, .cmp), (0x10B, .cmn)]) :
    Equivalent opcode (Assembly.process operation true Register.r0 (lowRegisterField opcode 0)
      (.register (lowRegisterField opcode 3)))
  /-- A change of sign: `RSBS Rd, Rs, #0`. -/
  | negate (hform : field opcode 6 0x3FF = 0x109) :
    Equivalent opcode (Assembly.process .rsb true (lowRegisterField opcode 0)
      (lowRegisterField opcode 3) (.constant 0))
  /-- A product: `MULS Rd, Rs, Rd`. -/
  | multiply (hform : field opcode 6 0x3FF = 0x10D) :
    Equivalent opcode (Assembly.multiply true (lowRegisterField opcode 0)
      (lowRegisterField opcode 3) (lowRegisterField opcode 0))
  /-- A complement: `MVNS Rd, Rs`. -/
  | complement (hform : field opcode 6 0x3FF = 0x10F) :
    Equivalent opcode (Assembly.process .mvn true (lowRegisterField opcode 0) Register.r0
      (.register (lowRegisterField opcode 3)))
  /-- A sum of any registers but the program counter: `ADD Rd, Rd, Rs`. -/
  | addHigh (hform : field opcode 8 0xFF = 0x44) (hd : splitRegisterField opcode 7 0 ≠ Register.pc)
    (hs : splitRegisterField opcode 6 3 ≠ Register.pc) :
    Equivalent opcode (Assembly.process .add false (splitRegisterField opcode 7 0)
      (splitRegisterField opcode 7 0) (.register (splitRegisterField opcode 6 3)))
  /-- A comparison of any registers but the program counter: `CMP Rd, Rs`. -/
  | compareHigh (hform : field opcode 8 0xFF = 0x45)
    (hd : splitRegisterField opcode 7 0 ≠ Register.pc)
    (hs : splitRegisterField opcode 6 3 ≠ Register.pc) :
    Equivalent opcode (Assembly.process .cmp true Register.r0 (splitRegisterField opcode 7 0)
      (.register (splitRegisterField opcode 6 3)))
  /-- A copy of any register but the program counter: `MOV Rd, Rs`. -/
  | moveHigh (hform : field opcode 8 0xFF = 0x46)
    (hd : splitRegisterField opcode 7 0 ≠ Register.pc)
    (hs : splitRegisterField opcode 6 3 ≠ Register.pc) :
    Equivalent opcode (Assembly.process .mov false (splitRegisterField opcode 7 0) Register.r0
      (.register (splitRegisterField opcode 6 3)))
  /-- A transfer at a register: `LDR Rd, [Rb, Ro]`, and `LDRB`, `STR` and `STRB` in the same way. -/
  | transfer (hform : field opcode 12 0xF = 5) (h9 : bit opcode 9 = false) :
    Equivalent opcode (Assembly.wordTransfer (bit opcode 11) (bit opcode 10)
      (lowRegisterField opcode 0) (offsetFrom (lowRegisterField opcode 3))
      (.register (lowRegisterField opcode 6)))
  /-- A halfword or a signed value at a register: `STRH Rd, [Rb, Ro]`, and `LDRSB`, `LDRH` and
  `LDRSH` in the same way. -/
  | signedTransfer {load signed halfword : Bool}
    (hform : (field opcode 9 0x7F, load, signed, halfword) ∈ [(0x29, false, false, true),
      (0x2B, true, true, false), (0x2D, true, false, true), (0x2F, true, true, true)]) :
    Equivalent opcode (Assembly.halfwordTransfer load signed halfword (lowRegisterField opcode 0)
      (offsetFrom (lowRegisterField opcode 3)) (.register (lowRegisterField opcode 6)))
  /-- A transfer at a constant: `LDR Rd, [Rb, #n]`, and `LDRB`, `STR` and `STRB` in the same way. -/
  | transferAt (hform : field opcode 13 7 = 3) :
    Equivalent opcode (Assembly.wordTransfer (bit opcode 11) (bit opcode 12)
      (lowRegisterField opcode 0) (offsetFrom (lowRegisterField opcode 3))
      (.constant (field opcode 6 0x1F * if bit opcode 12 then 1 else 4)))
  /-- A halfword at a constant: `LDRH Rd, [Rb, #n]` and `STRH Rd, [Rb, #n]`. -/
  | halfwordTransferAt (hform : field opcode 12 0xF = 8) :
    Equivalent opcode (Assembly.halfwordTransfer (bit opcode 11) false true
      (lowRegisterField opcode 0) (offsetFrom (lowRegisterField opcode 3))
      (.constant (field opcode 6 0x1F * 2)))
  /-- A word on the stack: `LDR Rd, [SP, #n]` and `STR Rd, [SP, #n]`. -/
  | stackTransfer (hform : field opcode 12 0xF = 9) :
    Equivalent opcode (Assembly.wordTransfer (bit opcode 11) false (lowRegisterField opcode 8)
      (offsetFrom Register.sp) (.constant ((opcode &&& 0xFF) * 4)))
  /-- An address on the stack: `ADD Rd, SP, #n`. -/
  | stackAddress (hform : field opcode 11 0x1F = 0x15) :
    Equivalent opcode (Assembly.process .add false (lowRegisterField opcode 8) Register.sp
      (.rotated (opcode &&& 0xFF) 30))
  /-- A change of the stack pointer: `ADD SP, SP, #n` and `SUB SP, SP, #n`. -/
  | moveStack (hform : field opcode 8 0xFF = 0xB0) :
    Equivalent opcode (Assembly.process (if bit opcode 7 then .sub else .add) false Register.sp
      Register.sp (.rotated (opcode &&& 0x7F) 30))
  /-- A push of some registers: `STMDB SP!, {..}`. -/
  | push (hform : field opcode 9 0x7F = 0x5A) (hlist : pushed opcode ≠ 0) :
    Equivalent opcode (Assembly.blockTransfer false (pushed opcode) ⟨Register.sp, false, true, true⟩)
  /-- A pop of some registers, without the program counter: `LDMIA SP!, {..}`. -/
  | pop (hform : field opcode 8 0xFF = 0xBC) (hlist : opcode &&& 0xFF ≠ 0) :
    Equivalent opcode (Assembly.blockTransfer true (opcode &&& 0xFF).toUInt16
      ⟨Register.sp, true, false, true⟩)
  /-- A list of some registers: `LDMIA Rb!, {..}` and `STMIA Rb!, {..}`. -/
  | transferList (hform : field opcode 12 0xF = 0xC) (hlist : opcode &&& 0xFF ≠ 0) :
    Equivalent opcode (Assembly.blockTransfer (bit opcode 11) (opcode &&& 0xFF).toUInt16
      ⟨lowRegisterField opcode 8, true, false, true⟩)

/-! ## Registers and constants -/

theorem r0_ne_pc : Register.r0 ≠ Register.pc := by decide

theorem sp_ne_pc : Register.sp ≠ Register.pc := by decide

theorem fits_register (register : Register) : Arm.Assembly.Fits (.register register) := by
  show (0 : Word).toNat < 2 ^ 5
  decide

theorem fitsWord_register (register : Register) : Arm.Assembly.FitsWord (.register register) := by
  show (0 : Word).toNat < 2 ^ 5
  decide

theorem fits_constant {constant : Word} (h : constant.toNat < 2 ^ 8) :
    Arm.Assembly.Fits (.constant constant) :=
  ⟨h, by decide, by decide⟩

theorem toNat_and_lt (opcode : Word) {m : Word} {j : Nat} (hm : m.toNat = 2 ^ j - 1) :
    (opcode &&& m).toNat < 2 ^ j := by
  rw [UInt32.toNat_and, hm, Nat.and_two_pow_sub_one_eq_mod]
  exact Nat.mod_lt _ (Nat.two_pow_pos j)

theorem toNat_field_lt (opcode k : Word) {m : Word} {j : Nat} (hm : m.toNat = 2 ^ j - 1) :
    (field opcode k m).toNat < 2 ^ j :=
  toNat_and_lt _ hm

theorem toNat_mul_le (a b : Word) : (a * b).toNat ≤ a.toNat * b.toNat := by
  rw [UInt32.toNat_mul]
  exact Nat.mod_le ..

theorem ofNat_split_high {opcode : Word} :
    Register.ofNat ((opcode &&& 7) ||| field opcode 4 8).toNat = splitRegisterField opcode 7 0 := by
  have hlow : (opcode &&& 7).toNat = opcode.toNat % 2 ^ 3 := by
    rw [UInt32.toNat_and]
    exact Nat.and_two_pow_sub_one_eq_mod _ 3
  have hhigh : (field opcode 4 8).toNat = (opcode.toNat / 2 ^ 7 % 2) <<< 3 := by
    have h : field opcode 4 8 = field (opcode >>> 4) 3 1 <<< 3 := and_shiftLeft (opcode >>> 4) 1 3
    rw [h, UInt32.toNat_shiftLeft, toNat_field _ 3 1 rfl rfl, toNat_shiftRight 4 rfl,
      Nat.div_div_eq_div_mul]
    change (opcode.toNat / 2 ^ 7 % 2) <<< 3 % 2 ^ 32 = _
    rw [Nat.shiftLeft_eq]
    exact Nat.mod_eq_of_lt (by omega)
  rw [splitRegisterField, toNat_bit 7 rfl, toNat_field opcode 0 3 rfl rfl, UInt32.toNat_or, hlow,
    hhigh, Nat.or_comm, ← Nat.shiftLeft_add_eq_or_of_lt (Nat.mod_lt _ (by decide)),
    Nat.shiftLeft_eq, Nat.mul_comm, Nat.pow_zero, Nat.div_one]

theorem registerField_split {opcode : Word} :
    registerField opcode 3 = splitRegisterField opcode 6 3 := by
  apply Fin.ext
  show (opcode >>> 3).toNat % 16 = (8 * (bit opcode 6).toNat + (field opcode 3 7).toNat) % 16
  rw [toNat_bit 6 rfl, toNat_field opcode 3 3 rfl rfl, toNat_shiftRight 3 rfl]
  omega

theorem pc_not_mem {list : UInt16} (h : list.toNat < 2 ^ 15) : Register.pc ∉ registersOf list := by
  intro hmem
  have hbit : bit list.toUInt32 15 = true := (List.mem_filter.mp hmem).2
  have hclear : bit list.toUInt32 15 = false := by
    refine bit_clear 15 rfl ?_
    rw [UInt16.toNat_toUInt32]
    omega
  cases hclear.symm.trans hbit

theorem toNat_list (opcode : Word) : (opcode &&& 0xFF).toUInt16.toNat = (opcode &&& 0xFF).toNat := by
  have h : (opcode &&& 0xFF).toNat < 2 ^ 8 := toNat_and_lt opcode rfl
  rw [UInt32.toNat_toUInt16]
  exact Nat.mod_eq_of_lt (by omega)

end Thumb

end Handheld
