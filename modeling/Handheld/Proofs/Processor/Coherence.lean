import Handheld.Proofs.Processor.Effect

/-!
# The pipeline and the program

On a bus whose opcode fetches are answered from a fixed program the pipeline holds what the
program has at the program counter and before it.

1. `Coherent` is that invariant. A refill establishes it whatever was there before
   (`refill_coherent`), and moving on keeps it and brings the next instruction to execution
   (`advance_coherent`, `executing_advance`).
2. `Settled` adds that the bus was last told of the word in the fetch slot. `Effect.settled` keeps
   it for every instruction but those that `Strays` names.
3. `pipeline_coherent` is the invariant for every state that a program reaches.
-/

namespace Handheld

/-! ## Programs -/

/-- Every opcode fetch of a bus is answered from a fixed program. -/
def Fetches (β : Type) [Bus β] (program : Word → Width → Word) : Prop :=
  ∀ (bus : β) (address : Word) (width : Width),
    (Bus.fetch bus address width).1.data = program address width

/-- A bus together with the last word that it was told to latch. -/
structure Latching (β : Type) where
  bus : β
  latched : Option Word

instance {β : Type} [Bus β] : Bus (Latching β) where
  read bus address width :=
    ((Bus.read bus.bus address width).1, { bus with bus := (Bus.read bus.bus address width).2 })
  write bus address value width :=
    ((Bus.write bus.bus address value width).1,
      { bus with bus := (Bus.write bus.bus address value width).2 })
  fetch bus address width :=
    ((Bus.fetch bus.bus address width).1, { bus with bus := (Bus.fetch bus.bus address width).2 })
  latch bus word := ⟨Bus.latch bus.bus word, some word⟩

theorem Fetches.latching {β : Type} [Bus β] {program : Word → Width → Word}
    (h : Fetches β program) : Fetches (Latching β) program :=
  fun bus => h bus.bus

/-- A bus that answers from a fixed program and ignores every write. -/
structure Listing (program : Word → Width → Word)

instance (program : Word → Width → Word) : Bus (Listing program) where
  read bus address width := (Read.single (program address width), bus)
  write bus _ _ _ := (Timing.single, bus)
  fetch bus address width := (Read.single (program address width), bus)
  latch bus _ := bus

theorem Listing.fetches (program : Word → Width → Word) : Fetches (Listing program) program :=
  fun _ _ _ => rfl

/-! ## Decoded instructions -/

namespace Arm

theorem decodeBody_ne_loadAddress (opcode : Word) (destination : Register) (offset : Word) :
    decodeBody opcode ≠ .loadAddress destination offset := by
  unfold decodeBody
  split
  · unfold decodeRegisterGroup decodeMultiply statusTransfer
    split_ifs <;> nofun
  · unfold decodeConstantGroup statusTransfer
    split_ifs <;> nofun
  · nofun
  · split_ifs <;> nofun
  · nofun
  · nofun
  · nofun
  · unfold decodeCoprocessorGroup
    split_ifs <;> nofun

end Arm

namespace Thumb

theorem loadAddress_of_decodeMiscellaneous {opcode : Word} {destination : Register} {offset : Word}
    (h : decodeMiscellaneous opcode = .loadAddress destination offset) :
    destination ≠ Register.pc := by
  revert h
  unfold decodeMiscellaneous pushOrPop
  cases bit opcode 12 <;> cases bit opcode 11
  · intro h
    cases h
    exact lowRegisterField_ne_pc opcode 8
  · nofun
  · rw [if_pos rfl]
    split_ifs <;> nofun
  · rw [if_pos rfl]
    split_ifs <;> nofun

/-- An address relative to the program counter goes into one of the low registers. -/
theorem loadAddress_of_decode {opcode : Word} {destination : Register} {offset : Word}
    (h : (decode opcode).2 = .loadAddress destination offset) : destination ≠ Register.pc := by
  revert h
  unfold decode
  split
  · unfold decodeShiftGroup
    dsimp only
    split_ifs <;> nofun
  · unfold decodeConstantGroup
    dsimp only
    split <;> nofun
  · unfold decodeRegisterGroup decodeRegisterOffset decodeHighRegister decodeRegisterOperation
      transferAt
    dsimp only
    split_ifs
    · nofun
    · nofun
    · split <;> nofun
    · split <;> nofun
  · nofun
  · unfold decodeHalfwordGroup transferAt
    split_ifs <;> nofun
  · exact loadAddress_of_decodeMiscellaneous
  · unfold decodeBranchGroup
    split_ifs
    · split <;> nofun
    · nofun
  · unfold decodeLongBranch
    split_ifs <;> nofun

end Thumb

namespace Processor

theorem loadAddress_of_current {p : Processor} {destination : Register} {offset : Word}
    (h : p.current.2 = .loadAddress destination offset) : destination ≠ Register.pc := by
  unfold current at h
  split at h
  · exact Thumb.loadAddress_of_decode h
  · exact absurd h (Arm.decodeBody_ne_loadAddress _ _ _)

/-! ## Coherence -/

/-- The program counter is aligned, and the pipeline holds the opcodes at it and before it. -/
structure Coherent (program : Word → Width → Word) (p : Processor) : Prop where
  aligned : p.pc % p.width.bytes = 0
  decoded : p.pipeline.decoded = program (p.pc - p.width.bytes) p.width &&& p.width.mask
  fetched : p.pipeline.fetched = program p.pc p.width &&& p.width.mask

theorem width_congr {p q : Processor} (h : q.thumb = p.thumb) : q.width = p.width := by
  unfold width
  rw [h]

theorem width_of_thumb {p : Processor} (h : p.thumb = true) : p.width = .halfword := by
  unfold width
  rw [h]
  rfl

theorem width_of_arm {p : Processor} (h : p.thumb = false) : p.width = .word := by
  unfold width
  rw [h]
  rfl

section Generic

variable {β : Type} [Bus β] {program : Word → Width → Word}

theorem pc_refill (p : Processor) (bus : β) (address : Word) :
    (p.refill bus address).processor.pc = p.width.align address + p.width.bytes :=
  RegisterFile.pc_setPc ..

/-- The program goes on at the address, rounded down to the width. -/
theorem nextPc_refill (p : Processor) (bus : β) (address : Word) :
    (p.refill bus address).processor.nextPc = p.width.align address := by
  show (p.refill bus address).processor.pc - p.width.bytes = _
  rw [pc_refill, UInt32.add_sub_cancel]

theorem decoded_refill (hM : Fetches β program) (p : Processor) (bus : β) (address : Word) :
    (p.refill bus address).processor.pipeline.decoded =
      program (p.width.align address) p.width &&& p.width.mask :=
  congrArg (· &&& p.width.mask) (hM bus _ _)

/-- A refill brings the program at its address into the pipeline. -/
theorem refill_coherent (hM : Fetches β program) (p : Processor) (bus : β) (address : Word) :
    Coherent program (p.refill bus address).processor := by
  have hw : (p.refill bus address).processor.width = p.width := rfl
  refine ⟨?_, ?_, ?_⟩
  · rw [hw, pc_refill]
    exact Width.add_bytes_mod (p.width.align_mod address)
  · rw [hw, pc_refill, UInt32.add_sub_cancel]
    exact decoded_refill hM p bus address
  · rw [hw, pc_refill]
    exact congrArg (· &&& p.width.mask) (hM _ _ _)

/-- Where the program counter, the instruction set and both slots stay, so does coherence. -/
theorem Coherent.congr {p q : Processor} (h : Coherent program p) (hpc : q.pc = p.pc)
    (ht : q.thumb = p.thumb) (hs : q.pipeline = p.pipeline) : Coherent program q := by
  have hw : q.width = p.width := width_congr ht
  refine ⟨?_, ?_, ?_⟩
  · rw [hw, hpc]; exact h.aligned
  · rw [hw, hpc, hs]; exact h.decoded
  · rw [hw, hpc, hs]; exact h.fetched

omit [Bus β] in
theorem Coherent.spend {p : Processor} (h : Coherent program p) (cycles : UInt32) :
    Coherent program (p.spend cycles) :=
  h.congr rfl rfl rfl

theorem pc_advance (p : Processor) (bus : β) : (p.advance bus).1.pc = p.pc + p.width.bytes :=
  RegisterFile.pc_setPc ..

theorem nextPc_advance (p : Processor) (bus : β) :
    (p.advance bus).1.nextPc = p.nextPc + p.width.bytes := by
  show (p.advance bus).1.pc - p.width.bytes = p.pc - p.width.bytes + p.width.bytes
  rw [pc_advance, UInt32.add_sub_cancel, UInt32.sub_add_cancel]

theorem get_advance (p : Processor) (bus : β) {register : Register} (h : register ≠ Register.pc) :
    (p.advance bus).1.get register = p.get register :=
  p.get_setPc h _

theorem get_refill (p : Processor) (bus : β) (address : Word) {register : Register}
    (h : register ≠ Register.pc) :
    (p.refill bus address).processor.get register = p.get register :=
  p.get_setPc h _

theorem advance_coherent (hM : Fetches β program) {p : Processor} (h : Coherent program p)
    (bus : β) : Coherent program (p.advance bus).1 := by
  have hw : (p.advance bus).1.width = p.width := rfl
  refine ⟨?_, ?_, ?_⟩
  · rw [hw, pc_advance]
    exact Width.add_bytes_mod h.aligned
  · rw [hw, pc_advance, UInt32.add_sub_cancel]
    exact h.fetched
  · rw [hw, pc_advance]
    show (Bus.fetch bus (p.pc + p.width.bytes) p.width).1.data &&& p.width.mask = _
    rw [hM]

/-- A step executes the instruction at the next address, with the program counter two
instructions ahead of it. -/
theorem Coherent.executing_advance {p : Processor} (h : Coherent program p) (bus : β) :
    (p.advance bus).1.pipeline.executing = program p.nextPc p.width &&& p.width.mask ∧
      (p.advance bus).1.pc = p.nextPc + 2 * p.width.bytes := by
  refine ⟨h.decoded, ?_⟩
  have hn : p.nextPc = p.pc - p.width.bytes := rfl
  rw [pc_advance, hn, UInt32.two_mul, ← UInt32.add_assoc, UInt32.sub_add_cancel]

end Generic

/-! ## Settled states -/

/-- The pipeline is coherent, and the bus was last told of the word in the fetch slot. -/
structure Settled {β : Type} (program : Word → Width → Word) (p : Processor) (bus : Latching β) :
    Prop extends Coherent program p where
  latched : bus.latched = some p.prefetched

end Processor

/-- An instruction that leaves the pipeline behind: one that changes the instruction set through
the status word, or that writes the program counter as an ordinary register. -/
def Instruction.Strays (i : Instruction) (p : Processor) : Prop :=
  match i with
  | .writeStatus false mask source =>
    (p.writeStatusWord false mask (source.evaluate p).value).thumb ≠ p.thumb
  | .readStatus _ destination => destination = Register.pc
  | .multiply _ destination _ _ _ => destination = Register.pc
  | .multiplyLong _ _ _ low high _ _ => low = Register.pc ∨ high = Register.pc
  | .swap _ destination _ _ => destination = Register.pc
  | _ => False

namespace Processor

variable {β : Type} [Bus β] {program : Word → Width → Word}

theorem prefetched_congr {p q : Processor} (ht : q.thumb = p.thumb)
    (hs : q.pipeline = p.pipeline) : q.prefetched = p.prefetched := by
  unfold prefetched
  rw [ht, hs]

omit [Bus β] in
theorem Settled.congr {p q : Processor} {bus out : Latching β} (h : Settled program p bus)
    (hpc : q.pc = p.pc) (ht : q.thumb = p.thumb) (hs : q.pipeline = p.pipeline)
    (hl : out.latched = bus.latched) : Settled program q out := by
  refine ⟨h.toCoherent.congr hpc ht hs, ?_⟩
  rw [hl, prefetched_congr ht hs]
  exact h.latched

omit [Bus β] in
theorem Settled.spend {p : Processor} {bus : Latching β} (h : Settled program p bus)
    (cycles : UInt32) : Settled program (p.spend cycles) bus :=
  h.congr rfl rfl rfl rfl

theorem refill_settled (hM : Fetches β program) (p : Processor) (bus : Latching β)
    (address : Word) :
    Settled program (p.refill bus address).processor (p.refill bus address).bus :=
  ⟨refill_coherent hM.latching p bus address, rfl⟩

theorem advance_settled (hM : Fetches β program) {p : Processor} {bus : Latching β}
    (h : Settled program p bus) : Settled program (p.advance bus).1 (p.advance bus).2 :=
  ⟨advance_coherent hM.latching h.toCoherent bus, rfl⟩

theorem enterException_settled (hM : Fetches β program) (p : Processor) (bus : Latching β)
    (exception : Exception) :
    Settled program (p.enterException bus exception).processor
      (p.enterException bus exception).bus :=
  refill_settled hM _ bus _

theorem thumb_flagsFrom (p : Processor) (value : Word) : (p.flagsFrom value).thumb = p.thumb :=
  Status.has_congr (insert_and _ (and_and_self ..) (by decide))

/-- An action that does not write the program counter leaves the pipeline where it is. -/
theorem Act.settled {counter user : Prop} (hc : ¬ counter) {p q : Processor}
    {bus out : Latching β} (act : Act counter user (p, bus) (q, out))
    (h : Settled program p bus) : Settled program q out := by
  cases act with
  | set _ _ _ _ hr => exact h.congr (RegisterFile.pc_set_of_ne _ _ fun e => hc (hr e)) rfl rfl rfl
  | setUser _ _ _ _ hr =>
    exact h.congr (RegisterFile.pc_setUser_of_ne _ _ fun e => hc (hr e)) rfl rfl rfl
  | flags => exact h.congr rfl (thumb_flagsFrom p _) rfl rfl
  | _ => exact h.congr rfl rfl rfl rfl

theorem not_overwritesPc {i : Instruction} {p : Processor} (hs : ¬ i.Strays p)
    (ha : ∀ destination offset, i = .loadAddress destination offset → destination ≠ Register.pc) :
    ¬ i.OverwritesPc := by
  intro ho
  cases i with
  | readStatus => exact hs ho
  | multiply => exact hs ho
  | multiplyLong => exact hs ho
  | swap => exact hs ho
  | loadAddress destination offset => exact ha destination offset rfl ho
  | _ => exact ho

theorem Effect.settled (hM : Fetches β program) {i : Instruction} {p q : Processor}
    {bus out : Latching β} (effect : Effect i p bus q out) (hs : ¬ i.Strays p)
    (hc : ¬ i.OverwritesPc) (h : Settled program p bus) : Settled program q out := by
  cases effect with
  | work hw => exact hw.keeps (I := Settled program) (Act.settled hc) h
  | status mask source hi =>
    subst hi
    exact h.congr (pc_writeStatus ..) (not_not.mp hs) (pipeline_writeStatus ..) rfl
  | branch _ address => exact refill_settled hM _ _ address
  | restore => exact refill_settled hM _ _ _
  | exchange address => exact refill_settled hM _ _ _
  | trap exception => exact enterException_settled hM p bus exception

theorem step_settled (hM : Fetches β program) {p : Processor} {bus : Latching β}
    (h : Settled program p bus) (hs : ∀ i, p.Retires bus i → ¬ i.Strays (p.advance bus).1) :
    Settled program (p.step bus).processor (p.step bus).bus := by
  have ha := advance_settled hM h
  rcases step_effect p bus with ⟨hp, hb⟩ | ⟨i, q, hi, effect, hp⟩
  · rw [hp, hb]
    exact ha.spend _
  · have hc : ¬ i.OverwritesPc := not_overwritesPc (hs i hi) fun destination offset he =>
      loadAddress_of_current (hi.1.trans he)
    rw [hp]
    exact (effect.settled hM (hs i hi) hc ha).spend _

theorem requestInterrupt_settled (hM : Fetches β program) {p : Processor} {bus : Latching β}
    (h : Settled program p bus) :
    Settled program (p.requestInterrupt bus).processor (p.requestInterrupt bus).bus := by
  unfold requestInterrupt
  split
  · exact h
  · exact (enterException_settled hM p bus .interrupt).spend _

theorem requestFastInterrupt_settled (hM : Fetches β program) {p : Processor}
    {bus : Latching β} (h : Settled program p bus) :
    Settled program (p.requestFastInterrupt bus).processor (p.requestFastInterrupt bus).bus := by
  unfold requestFastInterrupt
  split
  · exact h
  · exact (enterException_settled hM p bus .fastInterrupt).spend _

/-! ## Running a program -/

/-- The states that a program reaches from a start or a jump, by steps over instructions that do
not stray and by interrupts, while other devices may work on the bus in between. -/
inductive Flow : Processor → Latching β → Prop
  | reset (p : Processor) (bus : Latching β) : Flow (p.reset bus).processor (p.reset bus).bus
  | bootDirect (p : Processor) (bus : Latching β) :
    Flow (p.bootDirect bus).processor (p.bootDirect bus).bus
  | jump (p : Processor) (bus : Latching β) (address : Word) :
    Flow (p.jump bus address).processor (p.jump bus address).bus
  | step {p : Processor} {bus : Latching β} (h : Flow p bus)
    (hs : ∀ i, p.Retires bus i → ¬ i.Strays (p.advance bus).1) :
    Flow (p.step bus).processor (p.step bus).bus
  | requestInterrupt {p : Processor} {bus : Latching β} (h : Flow p bus) :
    Flow (p.requestInterrupt bus).processor (p.requestInterrupt bus).bus
  | requestFastInterrupt {p : Processor} {bus : Latching β} (h : Flow p bus) :
    Flow (p.requestFastInterrupt bus).processor (p.requestFastInterrupt bus).bus
  | devices {p : Processor} {bus : Latching β} (h : Flow p bus) (after : β) :
    Flow p { bus with bus := after }

theorem Flow.settled (hM : Fetches β program) {p : Processor} {bus : Latching β}
    (h : Flow p bus) : Settled program p bus := by
  induction h with
  | reset p bus => exact (enterException_settled hM _ bus .reset).spend _
  | bootDirect p bus => exact (refill_settled hM _ bus cartridgeEntry).spend _
  | jump p bus address => exact refill_settled hM _ bus _
  | step _ hs ih => exact step_settled hM ih hs
  | requestInterrupt _ ih => exact requestInterrupt_settled hM ih
  | requestFastInterrupt _ ih => exact requestFastInterrupt_settled hM ih
  | devices _ after ih => exact ih.congr rfl rfl rfl rfl

/-- **The pipeline follows the program.** In every state that a program reaches, the program
counter is aligned, both slots hold the opcodes there and the bus was last told of the later one.
So each instruction executes with the program counter two instructions ahead of it. -/
theorem pipeline_coherent (hM : Fetches β program) {p : Processor} {bus : Latching β}
    (h : Flow p bus) :
    Coherent program p ∧ bus.latched = some p.prefetched ∧
      (p.advance bus).1.width = p.width ∧
      (p.advance bus).1.pipeline.executing = program p.nextPc p.width &&& p.width.mask ∧
      (p.advance bus).1.pc = p.nextPc + 2 * p.width.bytes := by
  have hs := h.settled hM
  exact ⟨hs.toCoherent, hs.latched, rfl, hs.toCoherent.executing_advance bus⟩

/-- A program that branches into 16-bit code: it forms an odd address and goes there. -/
def veneer (address : Word) (_ : Width) : Word :=
  if address = 0 then 0xE28F0001 else if address = 4 then 0xE12FFF10 else 0x46C0

/-- The states of the veneer from its reset on. -/
def veneerRun : Nat → Outcome (Latching (Listing veneer))
  | 0 => powerOn.reset ⟨⟨⟩, none⟩
  | n + 1 => (veneerRun n).processor.step (veneerRun n).bus

theorem veneerRun_flow : Flow (veneerRun 2).processor (veneerRun 2).bus := by
  have first : ((veneerRun 0).processor.advance (veneerRun 0).bus).1.current.2 =
      .process .add false 0 15 (.rotated 1 0) := by decide +kernel
  have second : ((veneerRun 1).processor.advance (veneerRun 1).bus).1.current.2 =
      .branchExchange 0 := by decide +kernel
  have start : Flow (veneerRun 0).processor (veneerRun 0).bus := Flow.reset _ _
  have middle : Flow (veneerRun 1).processor (veneerRun 1).bus := by
    refine start.step fun i hi => ?_
    rw [← hi.1, first]; exact id
  refine middle.step fun i hi => ?_
  rw [← hi.1, second]; exact id

/-- The first state of the veneer in 16-bit code. -/
theorem pipeline_coherent_veneer :
    Fetches (Listing veneer) veneer ∧ Flow (veneerRun 2).processor (veneerRun 2).bus ∧
      (veneerRun 2).processor.width = .halfword ∧
      Coherent veneer (veneerRun 2).processor ∧
      (veneerRun 2).bus.latched = some (veneerRun 2).processor.prefetched ∧
      ((veneerRun 2).processor.advance (veneerRun 2).bus).1.pipeline.executing = 0x46C0 ∧
      ((veneerRun 2).processor.advance (veneerRun 2).bus).1.pc = 12 := by
  have hw : (veneerRun 2).processor.width = .halfword := by decide +kernel
  have hn : (veneerRun 2).processor.nextPc = 8 := by decide +kernel
  obtain ⟨hc, hl, -, he, hp⟩ :=
    pipeline_coherent (Listing.fetches veneer) veneerRun_flow
  rw [hn, hw] at he hp
  exact ⟨Listing.fetches veneer, veneerRun_flow, hw, hc, hl, he, hp⟩

end Processor

end Handheld
