import Handheld.Proofs.Processor.Effect

/-!
# Modes and banks

The mode is a field of the status word and the bank in view is state of its own, so every path
that changes the one has to change the other.

1. `InMode` says that the mode field holds a mode and that its bank is in view. Every effect of an
   instruction keeps that of some mode (`Effect.agrees`), and so does every entry point.
2. `Bank.Owns` is the storage that belongs to a bank. An effect other than a trap leaves what the
   bank in view does not own (`Effect.frame`), even where it brings another bank into view.
3. `mode_bank_agree` is both for every state that the entry points reach.
-/

namespace Handheld

/-! ## Storage of banks -/

namespace Bank

/-- Whether a physical register is one of those numbered 8 to 14 in a bank. -/
def Owns (bank : Bank) (place : Fin 31) : Prop :=
  ∃ number, 8 ≤ number ∧ number < 15 ∧ bank.physical number = place

theorem owned_range {bank : Bank} {place : Fin 31} (h : bank.Owns place) :
    8 ≤ place.val ∧ place.val < 30 := by
  obtain ⟨number, hl, hu, rfl⟩ := h
  have hi : bank.index.val < 6 := bank.index.isLt
  unfold physical
  rw [if_neg (by omega)]
  by_cases h13 : number < 13
  · rw [if_pos h13]
    by_cases hf : bank = fiq
    · rw [if_pos hf, Fin.val_ofNat, Nat.mod_eq_of_lt (by omega)]; omega
    · rw [if_neg hf, Fin.val_ofNat, Nat.mod_eq_of_lt (by omega)]; omega
  · rw [if_neg h13, if_pos (by omega), Fin.val_ofNat, Nat.mod_eq_of_lt (by omega)]; omega

/-- What another bank owns and this one does not has no name here. -/
theorem physical_ne {bank other : Bank} {place : Fin 31} (h : other.Owns place)
    (hn : ¬ bank.Owns place) (number : Nat) : bank.physical number ≠ place := by
  intro he
  have hr := owned_range h
  by_cases h8 : number < 8
  · rw [← he, physical, if_pos h8, Fin.val_ofNat, Nat.mod_eq_of_lt (by omega)] at hr
    omega
  · by_cases h15 : number < 15
    · exact hn ⟨number, by omega, h15, he⟩
    · rw [← he, physical, if_neg h8, if_neg (by omega), if_neg h15] at hr
      exact absurd hr.2 (by decide)

end Bank

theorem Exception.mask_and_field (exception : Exception) :
    exception.entry.mask &&& Mode.fieldMask = 0 := by
  cases exception <;> decide

namespace Processor

/-! ## The mode and its bank -/

/-- The mode field holds a mode, and its bank is in view. -/
structure InMode (p : Processor) (mode : Mode) : Prop where
  mode? : p.status.mode? = some mode
  bank : p.registers.bank = Bank.ofMode mode

/-- The mode field and the bank in view agree on some mode. -/
def Agrees (p : Processor) : Prop := ∃ mode, p.InMode mode

theorem mode_of_inMode {p : Processor} {mode : Mode} (h : p.InMode mode) : p.mode = mode := by
  unfold Processor.mode
  rw [h.mode?]
  rfl

theorem mode?_flagsFrom (p : Processor) (value : Word) :
    (p.flagsFrom value).status.mode? = p.status.mode? :=
  Mode.ofBits?_congr (insert_and _ (and_and_self ..) (by decide))

theorem writeStatus_agrees {p : Processor} (h : p.Agrees) (bits : Word) :
    (p.writeStatus bits).Agrees := by
  unfold writeStatus
  split
  · rename_i mode hm
    exact ⟨mode, hm, rfl⟩
  · -- the reserved field gives way to the field as it was
    obtain ⟨mode, hm, hb⟩ := h
    refine ⟨mode, ?_, hb⟩
    rw [← hm]
    exact Mode.ofBits?_congr (insert_and_self _ (and_and_self ..))

theorem restoreStatus_agrees {p : Processor} (h : p.Agrees) : p.restoreStatus.Agrees := by
  unfold restoreStatus
  split
  · exact writeStatus_agrees h _
  · exact h

theorem writeStatusWord_agrees {p : Processor} (h : p.Agrees) (mask value : Word) :
    (p.writeStatusWord false mask value).Agrees :=
  writeStatus_agrees h _

section Bus

variable {β : Type} [Bus β]

theorem refill_agrees {p : Processor} (h : p.Agrees) (bus : β) (address : Word) :
    (p.refill bus address).processor.Agrees := by
  obtain ⟨mode, hm, hb⟩ := h
  exact ⟨mode, hm, hb⟩

theorem branchExchange_agrees {p : Processor} (h : p.Agrees) (bus : β) (address : Word) :
    (p.branchExchange bus address).processor.Agrees := by
  obtain ⟨mode, hm, hb⟩ := h
  have he : ({ p with status := p.status.setThumb (bit address 0) } : Processor).Agrees :=
    ⟨mode, (Status.mode?_setThumb ..).trans hm, hb⟩
  exact refill_agrees he bus address

/-- An exception brings its mode and the bank of it into view, whatever was there. -/
theorem enterException_inMode (p : Processor) (bus : β) (exception : Exception) :
    (p.enterException bus exception).processor.InMode exception.entry.mode := by
  refine ⟨?_, rfl⟩
  show (((p.status.setMode exception.entry.mode).setThumb false).setBit
    exception.entry.mask true).mode? = some exception.entry.mode
  rw [Status.mode?_setBit _ _ (Exception.mask_and_field exception), Status.mode?_setThumb,
    Status.mode?_setMode]

theorem Act.agrees {counter user : Prop} {p q : Processor} {bus out : β}
    (act : Act counter user (p, bus) (q, out)) (h : p.Agrees) : q.Agrees := by
  obtain ⟨mode, hm, hb⟩ := h
  cases act with
  | flags => exact ⟨mode, (mode?_flagsFrom p _).trans hm, hb⟩
  | set => exact ⟨mode, hm, (p.bank_set ..).trans hb⟩
  | setUser => exact ⟨mode, hm, (p.bank_setUser ..).trans hb⟩
  | _ => exact ⟨mode, hm, hb⟩

theorem Effect.agrees {i : Instruction} {p q : Processor} {bus out : β}
    (effect : Effect i p bus q out) (h : p.Agrees) : q.Agrees := by
  have work {counter user : Prop} {q : Processor} {out : β}
      (hw : Work counter user (p, bus) (q, out)) : q.Agrees :=
    hw.keeps (I := fun q _ => q.Agrees) Act.agrees h
  cases effect with
  | work hw => exact work hw
  | status mask source _ => exact writeStatusWord_agrees h mask _
  | branch hw address => exact refill_agrees (work hw) _ address
  | restore hw => exact refill_agrees (restoreStatus_agrees (work hw)) _ _
  | exchange address => exact branchExchange_agrees h bus address
  | trap exception _ => exact ⟨_, enterException_inMode p bus exception⟩

theorem spend_agrees {p : Processor} (h : p.Agrees) (cycles : UInt32) :
    (p.spend cycles).Agrees := by
  obtain ⟨mode, hm, hb⟩ := h
  exact ⟨mode, hm, hb⟩

theorem step_agrees {p : Processor} (h : p.Agrees) (bus : β) : (p.step bus).processor.Agrees := by
  obtain ⟨mode, hm, hb⟩ := h
  have ha : (p.advance bus).1.Agrees := ⟨mode, hm, hb⟩
  rcases step_effect p bus with ⟨hp, -⟩ | ⟨i, q, -, effect, hp⟩
  · rw [hp]; exact spend_agrees ha _
  · rw [hp]; exact spend_agrees (effect.agrees ha) _

theorem reset_agrees (p : Processor) (bus : β) : (p.reset bus).processor.Agrees :=
  spend_agrees ⟨_, enterException_inMode _ bus .reset⟩ _

theorem bootDirect_agrees (p : Processor) (bus : β) : (p.bootDirect bus).processor.Agrees := by
  have hs : Status.mode? ⟨Mode.system.bits⟩ = some .system := by decide
  exact spend_agrees (refill_agrees ⟨.system, hs, rfl⟩ bus cartridgeEntry) _

theorem requestInterrupt_agrees {p : Processor} (h : p.Agrees) (bus : β) :
    (p.requestInterrupt bus).processor.Agrees := by
  unfold requestInterrupt
  split
  · exact h
  · exact spend_agrees ⟨_, enterException_inMode p bus .interrupt⟩ _

theorem requestFastInterrupt_agrees {p : Processor} (h : p.Agrees) (bus : β) :
    (p.requestFastInterrupt bus).processor.Agrees := by
  unfold requestFastInterrupt
  split
  · exact h
  · exact spend_agrees ⟨_, enterException_inMode p bus .fastInterrupt⟩ _

/-! ## Foreign storage -/

/-- What no bank but that of the start owns stays, and so do its saved status words. Where user
registers are loaded, what the bank of user mode owns is left out. -/
structure Frame (start : Bank) (user : Prop) (p q : Processor) : Prop where
  general : ∀ (other : Bank) (place : Fin 31), other.Owns place → ¬ start.Owns place →
    (user → ¬ Bank.user.Owns place) → q.registers.general[place] = p.registers.general[place]
  saved : ∀ other : Bank, other ≠ start →
    q.registers.saved.get other.index = p.registers.saved.get other.index

/-- While the bank of the start is in view, an action leaves foreign storage. -/
theorem Act.frame {counter user : Prop} {start : Bank} {p₀ p q : Processor} {bus out : β}
    (act : Act counter user (p, bus) (q, out))
    (h : p.registers.bank = start ∧ Frame start user p₀ p) :
    q.registers.bank = start ∧ Frame start user p₀ q := by
  obtain ⟨rfl, hg, hs⟩ := h
  cases act with
  | set =>
    refine ⟨p.bank_set .., fun other place ho hn hu => ?_, by rwa [saved_set]⟩
    rw [← hg other place ho hn hu]
    exact RegisterFile.general_write_of_ne _ _ _ _ (Bank.physical_ne ho hn _)
  | setUser _ _ _ _ _ ha =>
    refine ⟨p.bank_setUser .., fun other place ho hn hu => ?_, by rwa [saved_setUser]⟩
    rw [← hg other place ho hn hu]
    exact RegisterFile.general_write_of_ne _ _ _ _ (Bank.physical_ne ho (hu ha) _)
  | save =>
    refine ⟨rfl, hg, fun other ho => ?_⟩
    rw [← hs other ho]
    exact RegisterFile.saved_setSavedStatus_of_ne _ _ ho
  | _ => exact ⟨rfl, hg, hs⟩

/-- The program counter is foreign to nobody. -/
theorem Frame.setPc {start : Bank} {user : Prop} {p q : Processor} (h : Frame start user p q)
    (value : Word) : Frame start user p (q.setPc value) := by
  refine ⟨fun other place ho hn hu => ?_, h.saved⟩
  rw [← h.general other place ho hn hu]
  have hr := Bank.owned_range ho
  refine RegisterFile.general_setPc_of_ne _ _ fun he => ?_
  have hv : place.val = 30 := congrArg Fin.val he
  omega

theorem Frame.of_registers {start : Bank} {user : Prop} {p q r : Processor}
    (h : Frame start user p q) (hg : r.registers.general = q.registers.general)
    (hs : r.registers.saved = q.registers.saved) : Frame start user p r := by
  refine ⟨fun other place ho hn hu => ?_, fun other ho => ?_⟩
  · rw [hg]; exact h.general other place ho hn hu
  · rw [hs]; exact h.saved other ho

theorem Frame.refill {start : Bank} {user : Prop} {p q : Processor} (h : Frame start user p q)
    (bus : β) (address : Word) : Frame start user p (q.refill bus address).processor :=
  (h.setPc (q.width.align address + q.width.bytes)).of_registers rfl rfl

theorem Frame.refl (p : Processor) (start : Bank) (user : Prop) : Frame start user p p :=
  ⟨fun _ _ _ _ _ => rfl, fun _ _ => rfl⟩

theorem Frame.trans {start : Bank} {user : Prop} {p q r : Processor} (h : Frame start user p q)
    (h' : Frame start user q r) : Frame start user p r :=
  ⟨fun other place ho hn hu =>
      (h'.general other place ho hn hu).trans (h.general other place ho hn hu),
    fun other ho => (h'.saved other ho).trans (h.saved other ho)⟩

theorem Frame.weaken {start : Bank} {user user' : Prop} {p q : Processor}
    (h : Frame start user p q) (hu : user → user') : Frame start user' p q :=
  ⟨fun other place ho hn hn' => h.general other place ho hn fun ha => hn' (hu ha), h.saved⟩

theorem Effect.frame {i : Instruction} {p q : Processor} {bus out : β}
    (effect : Effect i p bus q out) (hi : i.trap? = none) :
    Frame p.registers.bank i.LoadsUser p q := by
  have refl := Frame.refl p p.registers.bank i.LoadsUser
  have work {counter : Prop} {q : Processor} {out : β}
      (hw : Work counter i.LoadsUser (p, bus) (q, out)) : Frame p.registers.bank i.LoadsUser p q :=
    (hw.keeps (I := fun q _ => q.registers.bank = p.registers.bank ∧ _) Act.frame
      ⟨rfl, refl⟩).2
  cases effect with
  | work hw => exact work hw
  | status mask source _ =>
    exact refl.of_registers (general_writeStatus ..) (saved_writeStatus ..)
  | branch hw address => exact (work hw).refill _ address
  | restore hw =>
    exact ((work hw).of_registers (general_restoreStatus _) (saved_restoreStatus _)).refill _ _
  | exchange address =>
    exact (refl.of_registers (r := { p with status := p.status.setThumb (bit address 0) })
      rfl rfl).refill bus address
  | trap exception ht => rw [hi] at ht; cases ht

/-- A step that enters no exception leaves foreign storage. -/
theorem step_frame (p : Processor) (bus : β) (h : ∀ i, p.Retires bus i → i.trap? = none) :
    Frame p.registers.bank (∃ i, p.Retires bus i ∧ i.LoadsUser) p (p.step bus).processor := by
  have start {user : Prop} : Frame p.registers.bank user p (p.advance bus).1 :=
    ((Frame.refl p _ user).setPc (p.pc + p.width.bytes)).of_registers rfl rfl
  rcases step_effect p bus with ⟨hp, -⟩ | ⟨i, q, hi, effect, hp⟩
  · rw [hp]
    exact start.of_registers rfl rfl
  · have hq : Frame p.registers.bank i.LoadsUser p q := start.trans (effect.frame (h i hi))
    rw [hp]
    refine (hq.weaken fun hu => ⟨i, hi, hu⟩).of_registers rfl rfl

end Bus

/-! ## Reachable states -/

/-- The states that the entry points reach from power-on, each of them on any bus. -/
inductive Reachable : Processor → Prop
  | powerOn : Reachable powerOn
  | reset {β : Type} [Bus β] {p : Processor} (h : Reachable p) (bus : β) :
    Reachable (p.reset bus).processor
  | bootDirect {β : Type} [Bus β] {p : Processor} (h : Reachable p) (bus : β) :
    Reachable (p.bootDirect bus).processor
  | jump {β : Type} [Bus β] {p : Processor} (h : Reachable p) (bus : β) (address : Word) :
    Reachable (p.jump bus address).processor
  | step {β : Type} [Bus β] {p : Processor} (h : Reachable p) (bus : β) :
    Reachable (p.step bus).processor
  | requestInterrupt {β : Type} [Bus β] {p : Processor} (h : Reachable p) (bus : β) :
    Reachable (p.requestInterrupt bus).processor
  | requestFastInterrupt {β : Type} [Bus β] {p : Processor} (h : Reachable p) (bus : β) :
    Reachable (p.requestFastInterrupt bus).processor
  | set {p : Processor} (h : Reachable p) (number : Nat) (value : Word) :
    Reachable { p with registers := p.registers.set number value }
  | writeStatus {p : Processor} (h : Reachable p) (bits : Word) : Reachable (p.writeStatus bits)

theorem Reachable.agrees {p : Processor} (h : Reachable p) : p.Agrees := by
  induction h with
  | powerOn => exact ⟨.supervisor, by decide, rfl⟩
  | reset _ bus => exact reset_agrees _ bus
  | bootDirect _ bus => exact bootDirect_agrees _ bus
  | jump _ bus address ih => exact branchExchange_agrees ih bus address
  | step _ bus ih => exact step_agrees ih bus
  | requestInterrupt _ bus ih => exact requestInterrupt_agrees ih bus
  | requestFastInterrupt _ bus ih => exact requestFastInterrupt_agrees ih bus
  | set _ number value ih =>
    obtain ⟨mode, hm, hb⟩ := ih
    exact ⟨mode, hm, (RegisterFile.bank_write ..).trans hb⟩
  | writeStatus _ bits ih => exact writeStatus_agrees ih bits

/-- **Mode and bank agree.** In every reachable state the mode field holds a mode and the bank of
that mode is in view. A step that enters no exception leaves the registers 8 to 14 and the saved
status word of every other bank, but for the user registers that a block transfer loads. -/
theorem mode_bank_agree {p : Processor} (h : Reachable p) :
    ∃ mode, p.InMode mode ∧ ∀ (β : Type) [Bus β] (bus : β),
      (∀ i, p.Retires bus i → i.trap? = none) →
        Frame (Bank.ofMode mode) (∃ i, p.Retires bus i ∧ i.LoadsUser) p
          (p.step bus).processor := by
  obtain ⟨mode, hm⟩ := h.agrees
  refine ⟨mode, hm, fun β _ bus ht => ?_⟩
  rw [← hm.bank]
  exact step_frame p bus ht

/-- The fast interrupt mode, entered by a written status word with a reserved one after it. -/
theorem mode_bank_agree_fiq :
    Reachable ((powerOn.writeStatus 0x11).writeStatus 0xF0000014) ∧
      ∃ mode, ((powerOn.writeStatus 0x11).writeStatus 0xF0000014).InMode mode ∧
        ∀ (β : Type) [Bus β] (bus : β),
          (∀ i, ((powerOn.writeStatus 0x11).writeStatus 0xF0000014).Retires bus i →
            i.trap? = none) →
          Frame (Bank.ofMode mode)
            (∃ i, ((powerOn.writeStatus 0x11).writeStatus 0xF0000014).Retires bus i ∧ i.LoadsUser)
            ((powerOn.writeStatus 0x11).writeStatus 0xF0000014)
            (((powerOn.writeStatus 0x11).writeStatus 0xF0000014).step bus).processor := by
  have h : Reachable ((powerOn.writeStatus 0x11).writeStatus 0xF0000014) :=
    (Reachable.powerOn.writeStatus 0x11).writeStatus 0xF0000014
  exact ⟨h, mode_bank_agree h⟩

end Processor

end Handheld
