import Handheld.Proofs.Processor.Opcodes
import Handheld.Proofs.Processor.Traps
import Handheld.Proofs.Processor.UserSlot

/-!
# Calls

A call puts the way back into the link register, and a subroutine returns by going there. A 16-bit
call is made of two instructions, which put its offset together through the link register, and no
interrupt comes between them.

1. `Thumb.decode_callStart`, `Thumb.decode_callEnd` and `Arm.decodeBody_call` are the opcodes of
   calls.
2. `Called` is what a call leaves. `Course.run_locked` says that interrupts are refused before the
   second half, and `Called.exchange` and `Called.move` are the two ways to return.
3. `calls_return` puts these together.
-/

namespace Handheld

/-! ## Offsets -/

theorem ofInt_shiftLeft (value : Int) {k : Nat} (h : k < 32) :
    UInt32.ofInt value <<< UInt32.ofNat k = UInt32.ofInt (2 ^ k * value) := by
  have hk : ((UInt32.ofNat k).toBitVec % 32).toNat = k := by
    show k % 2 ^ 32 % 32 = k
    omega
  apply UInt32.eq_of_toBitVec_eq
  have htwo : BitVec.twoPow 32 k = BitVec.ofInt 32 (2 ^ k) := by
    apply BitVec.eq_of_toNat_eq
    rw [BitVec.toNat_twoPow, BitVec.toNat_ofInt]
    norm_cast
  rw [UInt32.toBitVec_shiftLeft, BitVec.shiftLeft_eq', hk, BitVec.shiftLeft_eq_mul_twoPow,
    toBitVec_ofInt, toBitVec_ofInt, BitVec.ofInt_mul, BitVec.mul_comm, htwo]

/-- The two halves of the offset of a call, put together. -/
theorem toInt_halves (high low : BitVec 11) :
    (high ++ low ++ 0#1).toInt = 2 ^ 12 * high.toInt + 2 * low.toNat := by
  rw [BitVec.toInt_append, BitVec.toInt_append]
  show 2 ^ 1 * (2 ^ 11 * high.toInt + low.toNat) + 0 = 2 ^ 12 * high.toInt + 2 * (low.toNat : Int)
  ring

namespace Width

theorem ofInt_mod (width : Width) (value : Int) :
    UInt32.ofInt (width.bytes.toNat * value) % width.bytes = 0 := by
  rw [mod_bytes_iff, toNat_ofInt]
  cases width
  · exact Nat.mod_one _
  · show (2 * value % 2 ^ 32).toNat % 2 = 0
    omega
  · show (4 * value % 2 ^ 32).toNat % 4 = 0
    omega

end Width

/-! ## Opcodes -/

namespace Thumb

/-- The first half of a call, with the upper half of its offset. -/
def callStart (high : BitVec 11) : Word := 0xF000 ||| UInt32.ofNat high.toNat

/-- The second half of a call, with the lower half of its offset. -/
def callEnd (low : BitVec 11) : Word := 0xF800 ||| UInt32.ofNat low.toNat

/-- The return `BX lr`. -/
def exchangeLink : Word := 0x4770

/-- A prefix of five bits stands before a field of eleven. -/
theorem toNat_prefixed {code : Word} {k : Nat} (hcode : code.toNat = k <<< 11)
    (offset : BitVec 11) :
    (code ||| UInt32.ofNat offset.toNat).toNat = k * 2 ^ 11 + offset.toNat := by
  have hlt := offset.isLt
  rw [UInt32.toNat_or, UInt32.toNat_ofNat_of_lt' (show offset.toNat < 2 ^ 32 by omega), hcode,
    ← Nat.shiftLeft_add_eq_or_of_lt hlt, Nat.shiftLeft_eq]

theorem toNat_callStart (high : BitVec 11) :
    (callStart high).toNat = 0x1E * 2 ^ 11 + high.toNat :=
  toNat_prefixed rfl high

theorem toNat_callEnd (low : BitVec 11) : (callEnd low).toNat = 0x1F * 2 ^ 11 + low.toNat :=
  toNat_prefixed rfl low

/-- Both halves belong to the group of long branches. -/
theorem decode_longBranch {opcode : Word} (h : opcode.toNat / 2 ^ 13 % 2 ^ 3 = 7) :
    decode opcode = (.always, decodeLongBranch opcode) := by
  have hg : (field opcode 13 7).toNat = 7 := (toNat_field opcode 13 3 rfl rfl).trans h
  unfold decode
  rw [hg]
  rfl

theorem decode_callStart (high : BitVec 11) :
    decode (callStart high) = (.always, .longBranchStart (UInt32.ofInt (2 ^ 12 * high.toInt))) := by
  have h := toNat_callStart high
  have hlt := high.isLt
  have hoffset : signExtend 11 (callStart high) = UInt32.ofInt high.toInt :=
    signExtend_eq 21 (by decide) rfl rfl (by omega)
  rw [decode_longBranch (by omega)]
  unfold decodeLongBranch
  rw [bit_set 12 rfl (by omega), bit_clear 11 rfl (by omega), if_pos rfl,
    if_neg Bool.false_ne_true, hoffset]
  exact congrArg (fun offset => (Condition.always, Instruction.longBranchStart offset))
    (ofInt_shiftLeft high.toInt (show 12 < 32 by decide))

theorem decode_callEnd (low : BitVec 11) :
    decode (callEnd low) = (.always, .longBranchEnd (UInt32.ofInt (2 * low.toNat))) := by
  have h := toNat_callEnd low
  have hlt := low.isLt
  have hoffset : callEnd low &&& 0x7FF = UInt32.ofInt low.toNat := by
    refine and_eq_of_toNat 11 rfl ?_
    rw [toNat_ofInt]
    omega
  rw [decode_longBranch (by omega)]
  unfold decodeLongBranch
  rw [bit_set 12 rfl (by omega), bit_set 11 rfl (by omega), if_pos rfl, if_pos rfl, hoffset]
  exact congrArg (fun offset => (Condition.always, Instruction.longBranchEnd offset))
    (ofInt_shiftLeft low.toNat (show 1 < 32 by decide))

theorem decode_exchangeLink : decode exchangeLink = (.always, .branchExchange Register.lr) := by
  decide +kernel

end Thumb

namespace Arm

/-- The opcode of a condition code and the bits below it. -/
def conditional (code : BitVec 4) (body : BitVec 28) : Word := UInt32.ofBitVec (code ++ body)

/-- The bits of a call. -/
def call (offset : BitVec 24) : BitVec 28 := 0xB#4 ++ offset

/-- The bits of the return `MOV pc, lr`. -/
def moveLink : BitVec 28 := 0x1A0F00E

/-- The bits of the return `BX lr`. -/
def exchangeLink : BitVec 28 := 0x12FFF1E

theorem toNat_conditional (code : BitVec 4) (body : BitVec 28) :
    (conditional code body).toNat = code.toNat * 2 ^ 28 + body.toNat := by
  show (code ++ body).toNat = _
  rw [BitVec.toNat_append, ← Nat.shiftLeft_add_eq_or_of_lt body.isLt, Nat.shiftLeft_eq]

theorem toNat_call (offset : BitVec 24) : (call offset).toNat = 0xB * 2 ^ 24 + offset.toNat := by
  unfold call
  rw [BitVec.toNat_append, ← Nat.shiftLeft_add_eq_or_of_lt offset.isLt, Nat.shiftLeft_eq]
  rfl

theorem decodeBody_call (code : BitVec 4) (offset : BitVec 24) :
    decodeBody (conditional code (call offset)) =
      .branch (UInt32.ofInt (4 * offset.toInt)) true := by
  have h := toNat_conditional code (call offset)
  rw [toNat_call] at h
  have hlt := offset.isLt
  have hgroup : (field (conditional code (call offset)) 25 7).toNat = 5 :=
    (toNat_field _ 25 3 rfl rfl).trans (by omega)
  have hoffset : signExtend 24 (conditional code (call offset)) = UInt32.ofInt offset.toInt :=
    signExtend_eq 8 (by decide) rfl rfl (by omega)
  unfold decodeBody
  rw [hgroup]
  show Instruction.branch _ _ = _
  rw [hoffset, bit_set 24 rfl (by omega)]
  exact congrArg (fun offset => Instruction.branch offset true)
    (ofInt_shiftLeft offset.toInt (show 2 < 32 by decide))

theorem decodeBody_moveLink : ∀ code, decodeBody (conditional code moveLink) =
    .process .mov false Register.pc Register.r0 (.shifted Register.lr .lsl 0) := by
  decide +kernel

theorem decodeBody_exchangeLink : ∀ code, decodeBody (conditional code exchangeLink) =
    .branchExchange Register.lr := by
  decide +kernel

end Arm

/-! ## Stepping over an opcode -/

namespace Processor

variable {β : Type} [Bus β] {program : Word → Width → Word}

/-- A 16-bit opcode that holds always is executed. -/
theorem Coherent.retires_thumb {p : Processor} (h : Coherent program p) (ht : p.thumb = true)
    {opcode : Word} (ho : program p.nextPc .halfword &&& 0xFFFF = opcode) {i : Instruction}
    (hd : Thumb.decode opcode = (.always, i)) (bus : β) : p.Retires bus i := by
  have hcurrent : (p.advance bus).1.current = (.always, i) := by
    have hthumb : (p.advance bus).1.thumb = true := ht
    unfold current
    rw [hthumb, if_pos rfl, (h.executing_advance bus).1, width_of_thumb ht, ← hd, ← ho]
    rfl
  unfold Retires
  rw [hcurrent]
  exact ⟨rfl, rfl⟩

/-- A 32-bit opcode is executed where its condition holds. -/
theorem Coherent.retires_arm {p : Processor} (h : Coherent program p) (ht : p.thumb = false)
    {opcode : Word} (ho : program p.nextPc .word = opcode)
    (hc : (Arm.decode opcode).1.holds p.status.flags = true) {i : Instruction}
    (hd : Arm.decodeBody opcode = i) (bus : β) : p.Retires bus i := by
  have hopcode : p.pipeline.decoded = opcode := by
    have he := (h.executing_advance bus).1
    rw [width_of_arm ht, ho] at he
    exact he.trans UInt32.and_neg_one
  exact Processor.retires_arm ht (hopcode.symm ▸ hc) (hopcode.symm ▸ hd)

/-! ## Calls -/

/-- What a call leaves: the program goes on at its target, with the way back in the link register,
and interrupts are let in. -/
structure Called (program : Word → Width → Word) (target link : Word) (thumb : Bool)
    (q : Processor) : Prop where
  coherent : Coherent program q
  nextPc : q.nextPc = target
  link : q.get Register.lr = link
  thumb : q.thumb = thumb
  unlocked : q.locked = false

theorem Called.spend {target link : Word} {thumb : Bool} {q : Processor}
    (h : Called program target link thumb q) (cycles : UInt32) :
    Called program target link thumb (q.spend cycles) :=
  ⟨h.coherent.spend cycles, h.nextPc, h.link, h.thumb, h.unlocked⟩

theorem branchLink_called (hM : Fetches β program) {p : Processor} {thumb : Bool}
    (ht : p.thumb = thumb) (hl : p.locked = false) (bus : β) {target : Word}
    (ha : target % p.width.bytes = 0) (link : Word) :
    Called program target link thumb (p.branchLink bus target link).processor := by
  refine ⟨refill_coherent hM _ bus target, ?_, ?_, ht, hl⟩
  · exact (nextPc_refill (p.set Register.lr link) bus target).trans (Width.align_of_mod ha)
  · have hset := get_set p Register.lr Register.lr link
    rw [if_pos rfl] at hset
    exact (get_refill (p.set Register.lr link) bus target Register.lr_ne_pc).trans hset

/-- What the first half of a call at an address leaves: half of the offset in the link register, and
interrupts locked out. -/
structure Halfway (program : Word → Width → Word) (address : Word) (high : BitVec 11)
    (q : Processor) : Prop where
  coherent : Coherent program q
  thumb : q.thumb = true
  locked : q.locked = true
  nextPc : q.nextPc = address + 2
  link : q.get Register.lr = address + 4 + UInt32.ofInt (2 ^ 12 * high.toInt)

theorem step_halfway (hM : Fetches β program) {p : Processor} (hp : Coherent program p)
    (ht : p.thumb = true) {high : BitVec 11}
    (ho : program p.nextPc .halfword &&& 0xFFFF = Thumb.callStart high) (bus : β) :
    Halfway program p.nextPc high (p.step bus).processor := by
  have hw : p.width.bytes = 2 := congrArg Width.bytes (width_of_thumb ht)
  have hpc : (p.advance bus).1.pc = p.nextPc + 4 := by
    rw [(hp.executing_advance bus).2, hw]
    rfl
  have hset := get_set (p.advance bus).1 Register.lr Register.lr
    ((p.advance bus).1.pc + UInt32.ofInt (2 ^ 12 * high.toInt))
  have hkept : ((p.advance bus).1.set Register.lr
      ((p.advance bus).1.pc + UInt32.ofInt (2 ^ 12 * high.toInt))).pc = (p.advance bus).1.pc :=
    RegisterFile.pc_set_of_ne _ _ Register.lr_ne_pc
  rw [step_of_retires (hp.retires_thumb ht ho (Thumb.decode_callStart high) bus)]
  refine ⟨(advance_coherent hM hp bus).congr hkept rfl rfl, ht, rfl, ?_, ?_⟩
  · have hnext := nextPc_advance p bus
    rw [hw] at hnext
    exact (congrArg (· - p.width.bytes) hkept).trans hnext
  · rw [if_pos rfl] at hset
    refine hset.trans ?_
    rw [hpc]

theorem Halfway.step (hM : Fetches β program) {address : Word} {high : BitVec 11} {q : Processor}
    (h : Halfway program address high q) (ha : address % Width.halfword.bytes = 0) {low : BitVec 11}
    (ho : program (address + 2) .halfword &&& 0xFFFF = Thumb.callEnd low) (bus : β) :
    Called program (address + 4 + UInt32.ofInt (high ++ low ++ 0#1).toInt) ((address + 4) ||| 1)
      true (q.step bus).processor := by
  have hw : q.width = .halfword := width_of_thumb h.thumb
  have hthumb : (q.advance bus).1.thumb = true := h.thumb
  have hlr : (q.advance bus).1.get Register.lr = address + 4 + _ :=
    (get_advance q bus Register.lr_ne_pc).trans h.link
  have hnext : (q.advance bus).1.nextPc = address + 4 := by
    rw [nextPc_advance, h.nextPc, hw, UInt32.add_assoc]
    rfl
  have htarget : address + 4 + UInt32.ofInt (2 ^ 12 * high.toInt) + UInt32.ofInt (2 * low.toNat) =
      address + 4 + UInt32.ofInt (high ++ low ++ 0#1).toInt := by
    rw [toInt_halves, UInt32.ofInt_add, UInt32.add_assoc]
  have heven : (address + 4 + UInt32.ofInt (high ++ low ++ 0#1).toInt) % q.width.bytes = 0 := by
    have hoffset : (high ++ low ++ 0#1).toInt = 2 * (2 ^ 11 * high.toInt + low.toNat) := by
      rw [toInt_halves]
      ring
    rw [hw, hoffset]
    exact Width.add_mod (Width.add_mod ha (by decide)) (Width.ofInt_mod .halfword _)
  have hopcode : program q.nextPc .halfword &&& 0xFFFF = Thumb.callEnd low := by
    rw [h.nextPc]
    exact ho
  rw [step_of_retires (h.coherent.retires_thumb h.thumb hopcode (Thumb.decode_callEnd low) bus)]
  show Called program _ _ _ (spend (branchLink _ _ ((q.advance bus).1.get Register.lr + _)
    ((q.advance bus).1.nextPc ||| 1)).processor _)
  rw [hlr, htarget, hnext]
  exact (branchLink_called hM hthumb rfl _ heven _).spend _

theorem step_called (hM : Fetches β program) {p : Processor} (hp : Coherent program p)
    (ht : p.thumb = false) {code : BitVec 4} {offset : BitVec 24}
    (ho : program p.nextPc .word = Arm.conditional code (Arm.call offset))
    (hc : (Arm.decode (Arm.conditional code (Arm.call offset))).1.holds p.status.flags = true)
    (bus : β) :
    Called program (p.nextPc + 8 + UInt32.ofInt (4 * offset.toInt)) (p.nextPc + 4) false
      (p.step bus).processor := by
  have hw : p.width = .word := width_of_arm ht
  have hthumb : (p.advance bus).1.thumb = false := ht
  have hpc : (p.advance bus).1.pc = p.nextPc + 8 := by
    rw [(hp.executing_advance bus).2, hw]
    rfl
  have hnext : (p.advance bus).1.nextPc = p.nextPc + 4 := by
    rw [nextPc_advance, hw]
    rfl
  have haligned : (p.nextPc + 8 + UInt32.ofInt (4 * offset.toInt)) % p.width.bytes = 0 := by
    have hmod := hp.nextPc_mod
    rw [hw] at hmod ⊢
    exact Width.add_mod (Width.add_mod hmod (by decide)) (Width.ofInt_mod .word _)
  rw [step_of_retires (hp.retires_arm ht ho hc (Arm.decodeBody_call code offset) bus)]
  show Called program _ _ _ (spend (branchLink _ _ ((p.advance bus).1.pc + _)
    (p.advance bus).1.nextPc).processor _)
  rw [hpc, hnext]
  exact (branchLink_called hM hthumb rfl _ haligned _).spend _

/-! ## Returns -/

theorem thumb_branchExchange (p : Processor) (bus : β) (address : Word) :
    (p.branchExchange bus address).processor.thumb = bit address 0 :=
  p.status.thumb_setThumb (bit address 0)

/-- An exchange goes on at its address, rounded down to the width of the opcodes there. -/
theorem nextPc_branchExchange (p : Processor) (bus : β) (address : Word) :
    (p.branchExchange bus address).processor.nextPc =
      (if bit address 0 then Width.halfword else .word).align address := by
  have hw : (p.branchExchange bus address).processor.width =
      if bit address 0 then .halfword else .word := by
    unfold width
    rw [thumb_branchExchange]
  rw [← hw]
  exact nextPc_refill _ bus address

theorem step_exchange {p : Processor} {bus : β} (hi : p.Retires bus (.branchExchange Register.lr)) :
    (p.step bus).processor.nextPc =
        (if bit (p.get Register.lr) 0 then Width.halfword else .word).align (p.get Register.lr) ∧
      (p.step bus).processor.thumb = bit (p.get Register.lr) 0 := by
  have hlr := get_advance p bus Register.lr_ne_pc
  have hnext := nextPc_branchExchange (p.advance bus).1 (p.advance bus).2
    ((p.advance bus).1.get Register.lr)
  have hthumb := thumb_branchExchange (p.advance bus).1 (p.advance bus).2
    ((p.advance bus).1.get Register.lr)
  rw [step_of_retires hi, ← hlr]
  exact ⟨hnext, hthumb⟩

theorem step_move {p : Processor} {bus : β}
    (hi : p.Retires bus
      (.process .mov false Register.pc Register.r0 (.shifted Register.lr .lsl 0))) :
    (p.step bus).processor.nextPc = p.width.align (p.get Register.lr) ∧
      (p.step bus).processor.thumb = p.thumb := by
  have hpc : ((p.advance bus).1.set Register.pc ((p.advance bus).1.get Register.lr)).pc =
      p.get Register.lr :=
    (pc_set (p.advance bus).1 rfl _).trans (get_advance p bus Register.lr_ne_pc)
  have hnext := nextPc_refill
    ((p.advance bus).1.set Register.pc ((p.advance bus).1.get Register.lr)) (p.advance bus).2
    ((p.advance bus).1.set Register.pc ((p.advance bus).1.get Register.lr)).pc
  rw [step_of_retires hi]
  exact ⟨hnext.trans (congrArg p.width.align hpc), rfl⟩

/-- The way back of a 16-bit call has its lowest bit set. -/
theorem align_link {address : Word} (h : address % Width.halfword.bytes = 0) :
    bit (address ||| 1) 0 = true ∧ Width.halfword.align (address ||| 1) = address := by
  constructor
  · unfold bit
    rw [UInt32.shiftRight_zero, or_and, UInt32.and_self, and_or_self]
    rfl
  · have hclear : (1 : Word) &&& ~~~(Width.halfword.bytes - 1) = 0 := by decide
    rw [Width.align, or_and, hclear, UInt32.or_zero]
    exact Width.align_of_mod h

theorem bit_of_mod {address : Word} (h : address % Width.word.bytes = 0) : bit address 0 = false := by
  have hmod : address.toNat % 4 = 0 := congrArg UInt32.toNat h
  exact bit_clear 0 rfl (by omega)

/-- `BX lr` at the target of a 16-bit call. -/
theorem Called.exchange_thumb {target address : Word} {q : Processor}
    (h : Called program target (address ||| 1) true q) (ha : address % Width.halfword.bytes = 0)
    (ho : program q.nextPc .halfword &&& 0xFFFF = Thumb.exchangeLink) (bus : β) :
    (q.step bus).processor.nextPc = address ∧ (q.step bus).processor.thumb = true := by
  obtain ⟨hbit, halign⟩ := align_link ha
  obtain ⟨hnext, hthumb⟩ :=
    step_exchange (h.coherent.retires_thumb h.thumb ho Thumb.decode_exchangeLink bus)
  rw [h.link, hbit] at hnext hthumb
  exact ⟨hnext.trans halign, hthumb⟩

/-- `BX lr` at the target of a 32-bit call. -/
theorem Called.exchange {target address : Word} {q : Processor}
    (h : Called program target address false q) (ha : address % Width.word.bytes = 0) {code : BitVec 4}
    (ho : program q.nextPc .word = Arm.conditional code Arm.exchangeLink)
    (hc : (Arm.decode (Arm.conditional code Arm.exchangeLink)).1.holds q.status.flags = true)
    (bus : β) :
    (q.step bus).processor.nextPc = address ∧ (q.step bus).processor.thumb = false := by
  obtain ⟨hnext, hthumb⟩ := step_exchange
    (h.coherent.retires_arm h.thumb ho hc (Arm.decodeBody_exchangeLink code) bus)
  rw [h.link, bit_of_mod ha] at hnext hthumb
  exact ⟨hnext.trans (Width.align_of_mod ha), hthumb⟩

/-- `MOV pc, lr` at the target of a 32-bit call. -/
theorem Called.move {target address : Word} {q : Processor}
    (h : Called program target address false q) (ha : address % Width.word.bytes = 0) {code : BitVec 4}
    (ho : program q.nextPc .word = Arm.conditional code Arm.moveLink)
    (hc : (Arm.decode (Arm.conditional code Arm.moveLink)).1.holds q.status.flags = true)
    (bus : β) :
    (q.step bus).processor.nextPc = address ∧ (q.step bus).processor.thumb = false := by
  obtain ⟨hnext, hthumb⟩ := step_move
    (h.coherent.retires_arm h.thumb ho hc (Arm.decodeBody_moveLink code) bus)
  rw [h.link, width_of_arm h.thumb] at hnext
  exact ⟨hnext.trans (Width.align_of_mod ha), hthumb.trans h.thumb⟩

end Processor

/-! ## Interrupts between the halves -/

/-- Locked out, interrupts are refused, however often and in whatever order they are requested. -/
theorem Course.run_locked {β : Type} [Bus β] {requests : List Command}
    (h : ∀ request ∈ requests, request = .requestInterrupt ∨ request = .requestFastInterrupt) :
    ∀ {course : Course β}, course.processor.locked = true →
      course.run requests =
        { course with costs := List.replicate requests.length 0 ++ course.costs } := by
  induction requests with
  | nil => exact fun _ => rfl
  | cons request rest ih =>
    intro course hl
    have hafter : course.after request = ⟨course.processor, course.bus, 0 :: course.costs⟩ := by
      unfold after
      rcases h request List.mem_cons_self with rfl | rfl
      · simp only [Command.run, Processor.requestInterrupt, hl, Bool.or_true, if_true]
      · simp only [Command.run, Processor.requestFastInterrupt, hl, Bool.or_true, if_true]
    have hrest := ih (fun other hm => h other (List.mem_cons_of_mem _ hm))
      (show (Course.mk course.processor course.bus (0 :: course.costs)).processor.locked = true
        from hl)
    show (course.after request).run rest = _
    rw [hafter, hrest, List.length_cons, List.replicate_succ', List.append_assoc]
    rfl

namespace Processor

variable {β : Type} [Bus β] {program : Word → Width → Word}

/-- **Calls return.** After the first half of a 16-bit call any requests of interrupts are refused
and change nothing. The second half goes on at the address after the call plus the offset of both,
with the way back in the link register and interrupts let in again, and `BX lr` at the target takes
that way. A 32-bit call whose condition holds goes on at its target in one step, and there both
`MOV pc, lr` and `BX lr` return. -/
theorem calls_return (hM : Fetches β program) {p : Processor} (hp : Coherent program p)
    (bus : β) :
    (∀ high low : BitVec 11, p.thumb = true →
      program p.nextPc .halfword &&& 0xFFFF = Thumb.callStart high →
      program (p.nextPc + 2) .halfword &&& 0xFFFF = Thumb.callEnd low →
      ∀ (out : β) (requests : List Command),
        (∀ request ∈ requests, request = .requestInterrupt ∨ request = .requestFastInterrupt) →
        let between := (Course.start (p.step bus).processor out).run requests
        let q := (between.processor.step between.bus).processor
        between = ⟨(p.step bus).processor, out, List.replicate requests.length 0⟩ ∧
          Called program (p.nextPc + 4 + UInt32.ofInt (high ++ low ++ 0#1).toInt)
            ((p.nextPc + 4) ||| 1) true q ∧
          (program q.nextPc .halfword &&& 0xFFFF = Thumb.exchangeLink → ∀ later : β,
            (q.step later).processor.nextPc = p.nextPc + 4 ∧
              (q.step later).processor.thumb = true)) ∧
    ∀ (code : BitVec 4) (offset : BitVec 24), p.thumb = false →
      program p.nextPc .word = Arm.conditional code (Arm.call offset) →
      (Arm.decode (Arm.conditional code (Arm.call offset))).1.holds p.status.flags = true →
      let q := (p.step bus).processor
      Called program (p.nextPc + 8 + UInt32.ofInt (4 * offset.toInt)) (p.nextPc + 4) false q ∧
        ∀ (again : BitVec 4) (body : BitVec 28), body = Arm.moveLink ∨ body = Arm.exchangeLink →
          program q.nextPc .word = Arm.conditional again body →
          (Arm.decode (Arm.conditional again body)).1.holds q.status.flags = true → ∀ later : β,
            (q.step later).processor.nextPc = p.nextPc + 4 ∧
              (q.step later).processor.thumb = false := by
  refine ⟨fun high low ht hstart hend out requests hrequests => ?_,
    fun code offset ht ho hc => ?_⟩
  · have heven : p.nextPc % Width.halfword.bytes = 0 := by
      have hmod := hp.nextPc_mod
      rwa [width_of_thumb ht] at hmod
    have hback : (p.nextPc + 4) % Width.halfword.bytes = 0 := Width.add_mod heven (by decide)
    have hhalfway := step_halfway hM hp ht hstart bus
    intro between q
    have hbetween : between = ⟨(p.step bus).processor, out, List.replicate requests.length 0⟩ := by
      refine (Course.run_locked hrequests hhalfway.locked).trans ?_
      simp only [Course.start, List.append_nil]
    have hkept : (p.step bus).processor = between.processor :=
      (congrArg Course.processor hbetween).symm
    have hcalled := hhalfway.step hM heven hend between.bus
    rw [hkept] at hcalled
    exact ⟨hbetween, hcalled, hcalled.exchange_thumb hback⟩
  · have haligned : (p.nextPc + 4) % Width.word.bytes = 0 := by
      have hmod := hp.nextPc_mod
      rw [width_of_arm ht] at hmod
      exact Width.add_mod hmod (by decide)
    have hcalled := step_called hM hp ht ho hc bus
    refine ⟨hcalled, fun again body hbody hreturn hholds => ?_⟩
    rcases hbody with rfl | rfl
    · exact hcalled.move haligned hreturn hholds
    · exact hcalled.exchange haligned hreturn hholds

/-- Two calls that lead backwards, each to a return. -/
def callProgram (address : Word) (_ : Width) : Word :=
  if address = 0x100 then Thumb.callStart 0x7FF
  else if address = 0x102 then Thumb.callEnd 0x7F0
  else if address = 0xE4 then Thumb.exchangeLink
  else if address = 0x200 then Arm.conditional 0xE (Arm.call 0xFFFFFC)
  else Arm.conditional 0xE Arm.moveLink

/-- A processor in system mode, which lets interrupts in, about to run the program at an address. -/
def atCalls (address : Word) : Processor :=
  ((powerOn.writeStatus 0x1F).jump (⟨⟩ : Listing callProgram) address).processor

/-- Both calls and their returns, with both interrupts requested in the midst of the first. -/
theorem calls_return_listing :
    let on : Listing callProgram := ⟨⟩
    let p := atCalls 0x101
    let between := (Course.start (p.step on).processor on).run
      [.requestInterrupt, .requestFastInterrupt]
    let q := (between.processor.step between.bus).processor
    let r := ((atCalls 0x200).step on).processor
    p.status.irqDisabled = false ∧ p.status.fiqDisabled = false ∧
      between = ⟨(p.step on).processor, on, [0, 0]⟩ ∧
      q.nextPc = 0xE4 ∧ q.get Register.lr = 0x105 ∧ (q.step on).processor.nextPc = 0x104 ∧
      r.nextPc = 0x1F8 ∧ r.get Register.lr = 0x204 ∧ (r.step on).processor.nextPc = 0x204 := by
  intro on p between q r
  have hM := Listing.fetches callProgram
  have hthumb : Coherent callProgram p := refill_coherent hM _ on 0x101
  have harm : Coherent callProgram (atCalls 0x200) := refill_coherent hM _ on 0x200
  obtain ⟨hbetween, hcalled, hreturn⟩ := (calls_return hM hthumb on).1 0x7FF 0x7F0
    (by decide +kernel) (by decide +kernel) (by decide +kernel) on
    [.requestInterrupt, .requestFastInterrupt] (by decide)
  obtain ⟨hcalled', hreturn'⟩ := (calls_return hM harm on).2 0xE 0xFFFFFC (by decide +kernel)
    (by decide +kernel) (by decide +kernel)
  refine ⟨by decide +kernel, by decide +kernel, hbetween, hcalled.nextPc.trans ?_,
    hcalled.link.trans ?_, (hreturn ?_ on).1.trans ?_, hcalled'.nextPc.trans ?_,
    hcalled'.link.trans ?_, (hreturn' 0xE _ (.inl rfl) ?_ ?_ on).1.trans ?_⟩
  all_goals decide +kernel

end Processor

end Handheld
