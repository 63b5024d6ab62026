import Handheld.Proofs.FlatMemory
import Handheld.Proofs.Processor.Coherence

/-!
# Block transfers

A list of registers goes to or from consecutive words, the lowest register at the lowest address.

1. `listed` are the registers that a list stands for, `Indexing.lowest` is the address of the first
   of them and `Indexing.moved` the base afterwards.
2. `blockTransfer_load` and `blockTransfer_store` are the two directions on any bus, with the base
   written back after the first word.
3. `blockTransfer_moves` puts them together: the accesses made, the registers written and the cost.
-/

namespace Handheld

/-! ## Lists and addresses -/

/-- The registers that a list stands for: an empty one stands for the program counter. -/
def listed (list : UInt16) : List Register :=
  if list = 0 then [Register.pc] else registersOf list

/-- How far a list moves its base. -/
def spanned (list : UInt16) : Word :=
  if list = 0 then 64 else UInt32.ofNat (4 * (registersOf list).length)

namespace Indexing

/-- The base after a transfer that spans some bytes. -/
def moved (how : Indexing) (base span : Word) : Word :=
  if how.up then base + span else base - span

/-- The address of the lowest register. -/
def lowest (how : Indexing) (base span : Word) : Word :=
  match how.up, how.pre with
  | true, false => base
  | true, true => base + 4
  | false, false => base - span + 4
  | false, true => base - span

end Indexing

theorem mem_registersOf {list : UInt16} {register : Register} :
    register ∈ registersOf list ↔ list.toNat.testBit register.val = true := by
  have hk : (UInt32.ofNat register.val).toNat % 32 = register.val := by
    revert register
    decide
  have htest : bit list.toUInt32 (UInt32.ofNat register.val) = list.toNat.testBit register.val := by
    rw [bit_eq_iff register.val hk, Nat.toNat_testBit, UInt16.toNat_toUInt32]
  simp [registersOf, htest]

theorem mem_listed {list : UInt16} {register : Register} :
    register ∈ listed list ↔
      list.toNat.testBit register.val = true ∨ list = 0 ∧ register = Register.pc := by
  by_cases h : list = 0
  · subst h
    simp [listed]
  · simp [listed, h, mem_registersOf]

/-- The registers come in ascending order. -/
theorem pairwise_listed (list : UInt16) : (listed list).Pairwise (· < ·) := by
  unfold listed
  split
  · exact List.pairwise_singleton ..
  · exact (List.pairwise_lt_finRange 16).filter _

theorem nodup_listed (list : UInt16) : (listed list).Nodup :=
  (pairwise_listed list).imp fun h => ne_of_lt h

theorem listed_ne_nil (list : UInt16) : listed list ≠ [] := by
  by_cases h : list = 0
  · simp [listed, h]
  · obtain ⟨place, hplace⟩ :=
      Nat.exists_testBit_of_ne_zero (mt (UInt16.toNat_inj (b := 0)).mp h)
    have hlt : place < 16 := by
      by_contra hge
      have hsmall : list.toNat < 2 ^ place :=
        list.toNat_lt.trans_le (Nat.pow_le_pow_right (by decide) (Nat.le_of_not_lt hge))
      simp [Nat.testBit_lt_two_pow hsmall] at hplace
    exact List.ne_nil_of_mem (mem_listed.mpr (.inl hplace) : (⟨place, hlt⟩ : Register) ∈ _)

namespace Processor

variable {β : Type} [Bus β]

/-! ## Registers and words -/

/-- The registers that a block transfer writes: those that a load lists, and the base where it is
written back. A word loaded into the base wins. -/
def blockWrites (p : Processor) (load : Bool) (list : UInt16) (how : Indexing)
    (word : Register → Word) (register : Register) : Option Word :=
  if load ∧ register ∈ listed list then some (word register)
  else if how.writeBack ∧ how.base ≠ Register.pc ∧ register = how.base then
    some (how.moved (p.get how.base) (spanned list))
  else none

/-- The word that a store writes for a register of its list: the program counter is read one
instruction ahead, and a base that is written back has moved unless it comes first. -/
def storedWord (p : Processor) (list : UInt16) (how : Indexing) (register : Register) : Word :=
  if how.writeBack ∧ how.base ≠ Register.pc ∧ register = how.base ∧
      (listed list).head? ≠ some register then
    how.moved (p.get how.base) (spanned list)
  else p.getAhead register p.width.bytes

/-- The write-back that a block transfer keeps pending until its first word is moved. -/
def pendingBase (p : Processor) (load : Bool) (list : UInt16) (how : Indexing) :
    Option (Register × Word) :=
  if how.writeBack ∧ how.base ≠ Register.pc ∧ ¬ (load ∧ how.base ∈ listed list) then
    some (how.base, how.moved (p.get how.base) (spanned list))
  else none

omit [Bus β] in
theorem mem_pendingBase {p : Processor} {load : Bool} {list : UInt16} {how : Indexing}
    {back : Register × Word} (h : back ∈ p.pendingBase load list how) :
    back.1 ≠ Register.pc ∧ ¬ (load ∧ back.1 ∈ listed list) := by
  obtain ⟨⟨-, hne, hmem⟩, he⟩ := Option.ite_none_right_eq_some.mp h
  cases he
  exact ⟨hne, hmem⟩

omit [Bus β] in
theorem blockWrites_eq (p : Processor) (load : Bool) (list : UInt16) (how : Indexing)
    (word : Register → Word) (register : Register) :
    p.blockWrites load list how word register =
      if load ∧ register ∈ listed list then some (word register)
      else backWrites (p.pendingBase load list how) register := by
  unfold blockWrites pendingBase
  refine ite_congr rfl (fun _ => rfl) fun hload => ?_
  by_cases hb : register = how.base
  · rw [hb] at hload
    by_cases hw : how.writeBack = true ∧ how.base ≠ Register.pc
    · rw [if_pos ⟨hw.1, hw.2, hb⟩, if_pos ⟨hw.1, hw.2, hload⟩]
      exact (if_pos hb).symm
    · rw [if_neg fun h => hw ⟨h.1, h.2.1⟩, if_neg fun h => hw ⟨h.1, h.2.1⟩]
      rfl
  · rw [if_neg fun h => hb h.2.2]
    split
    · exact (if_neg hb).symm
    · rfl

/-- A block transfer moves the listed registers from its lowest address on, and refills the
pipeline where it loads the program counter. -/
theorem blockTransfer_eq (p : Processor) (bus : β) (load : Bool) (list : UInt16)
    (how : Indexing) :
    p.blockTransfer bus load list how false =
      let outcome := transferListed load false (p.pendingBase load list how) true (listed list)
        (how.lowest (p.get how.base) (spanned list))
        ⟨p, bus, Cost.blockStart p.fetchTiming load⟩
      if load ∧ Register.pc ∈ listed list then
        (outcome.processor.refill outcome.bus outcome.processor.pc).costing outcome.cycles
      else outcome := by
  have hspan : (if list = 0 then 64 else
      UInt32.ofNat (4 * (if list = 0 then [Register.pc] else registersOf list).length)) =
        spanned list := by
    unfold spanned
    split <;> rfl
  have hstart : (if how.up = how.pre then
      (if how.up then p.get how.base else how.moved (p.get how.base) (spanned list)) + 4
      else if how.up then p.get how.base else how.moved (p.get how.base) (spanned list)) =
        how.lowest (p.get how.base) (spanned list) := by
    unfold Indexing.moved Indexing.lowest
    cases how.up <;> cases how.pre <;> rfl
  have hpending : (if how.writeBack && decide (how.base ≠ Register.pc) &&
        !(load && (listed list).contains how.base) then
      some (how.base, how.moved (p.get how.base) (spanned list)) else none) =
        p.pendingBase load list how := by
    unfold pendingBase
    congr 1
    cases load <;> simp [and_assoc]
  have hpc : (load && (listed list).contains Register.pc) = true ↔
      load = true ∧ Register.pc ∈ listed list := by simp
  rw [← hstart, ← hpending]
  simp only [← hpc, ← hspan, Indexing.moved]
  unfold blockTransfer listed completePcWrite
  simp

/-! ## Loads and stores -/

/-- A load puts the words that it reads into the listed registers. -/
theorem blockTransfer_load (p : Processor) (bus : β) (list : UInt16) (how : Indexing) :
    let words := readWords bus (how.lowest (p.get how.base) (spanned list)) (listed list).length
    let cycles := p.fetchTiming.seq + Cost.loadInternal +
      listedCost true (words.1.map Read.timing)
    ∃ (word : Register → Word) (q : Processor),
      (listed list).map word = words.1.map Read.data ∧
      Rewritten (p.blockWrites true list how word) p q ∧
      p.blockTransfer bus true list how false =
        if Register.pc ∈ listed list then
          (q.refill words.2 (word Register.pc)).costing cycles
        else ⟨q, words.2, cycles⟩ := by
  intro words cycles
  obtain ⟨word, q, hq, hword, hwrites⟩ := transferListed_load (nodup_listed list)
    (p.pendingBase true list how) true (how.lowest (p.get how.base) (spanned list)) p bus
    (Cost.blockStart p.fetchTiming true)
    fun back hback => ⟨listed_ne_nil list, fun hm => (mem_pendingBase hback).2 ⟨rfl, hm⟩⟩
  have hblock : Rewritten (p.blockWrites true list how word) p q :=
    hwrites.congr fun register => by simp [blockWrites_eq]
  refine ⟨word, q, hword, hblock, ?_⟩
  rw [blockTransfer_eq, hq]
  simp only [true_and]
  split
  · rename_i hpc
    have hvalue : q.pc = word Register.pc := by
      refine (hblock.get Register.pc).trans ?_
      simp [blockWrites, hpc]
    rw [hvalue]
    rfl
  · rfl

omit [Bus β] in
theorem getAhead_writtenBack (p : Processor) {pending : Option (Register × Word)}
    (hp : ∀ back ∈ pending, back.1 ≠ Register.pc) (register : Register) (distance : Word) :
    (p.writtenBack pending).getAhead register distance =
      (backWrites pending register).getD (p.getAhead register distance) := by
  cases pending with
  | none => rfl
  | some back =>
    have hne := hp back rfl
    unfold getAhead
    by_cases hr : register = Register.pc
    · have hback : backWrites (some back) register = none :=
        if_neg fun he => hne (he.symm.trans hr)
      rw [if_pos hr, if_pos hr, hback]
      exact congrArg (· + distance) (RegisterFile.pc_set_of_ne p.registers back.2 hne)
    · rw [if_neg hr, if_neg hr]
      exact (rewritten_set p back.1 back.2).get register

omit [Bus β] in
theorem storedWord_eq (p : Processor) (list : UInt16) (how : Indexing) (register : Register) :
    p.storedWord list how register =
      if (listed list).head? = some register then p.getAhead register p.width.bytes
      else (p.writtenBack (p.pendingBase false list how)).getAhead register p.width.bytes := by
  have hback : backWrites (p.pendingBase false list how) register =
      if how.writeBack ∧ how.base ≠ Register.pc ∧ register = how.base then
        some (how.moved (p.get how.base) (spanned list))
      else none := by
    have h := blockWrites_eq p false list how (fun _ => 0) register
    simpa [blockWrites] using h.symm
  rw [getAhead_writtenBack p fun back hm => (mem_pendingBase hm).1, hback]
  unfold storedWord
  by_cases hfirst : (listed list).head? = some register
  · simp [hfirst]
  · by_cases hw : how.writeBack ∧ how.base ≠ Register.pc ∧ register = how.base
    · rw [if_pos ⟨hw.1, hw.2.1, hw.2.2, hfirst⟩, if_neg hfirst, if_pos hw]
      rfl
    · rw [if_neg fun h => hw ⟨h.1, h.2.1, h.2.2.1⟩, if_neg hfirst, if_neg hw]
      rfl

/-- A store writes the words of the listed registers. -/
theorem blockTransfer_store (p : Processor) (bus : β) (list : UInt16) (how : Indexing)
    (word : Register → Word) :
    let words := writeWords bus (how.lowest (p.get how.base) (spanned list))
      ((listed list).map (p.storedWord list how))
    ∃ q : Processor,
      Rewritten (p.blockWrites false list how word) p q ∧
      p.blockTransfer bus false list how false =
        ⟨q, words.2, p.fetchTiming.nonseq + listedCost true words.1⟩ := by
  intro words
  refine ⟨p.writtenBack (p.pendingBase false list how),
    (rewritten_writtenBack p _).congr fun register => by simp [blockWrites_eq], ?_⟩
  have hvalues (number : Register) (rest : List Register) (hl : listed list = number :: rest) :
      (listed list).map (p.storedWord list how) = p.getAhead number p.width.bytes ::
        rest.map ((p.writtenBack (p.pendingBase false list how)).getAhead · p.width.bytes) := by
    have hnumber : number ∉ rest := (List.nodup_cons.mp (hl ▸ nodup_listed list)).1
    rw [hl, List.map_cons]
    refine congrArg₂ List.cons ?_ (List.map_congr_left fun register hm => ?_)
    · rw [storedWord_eq, hl]
      exact if_pos rfl
    · rw [storedWord_eq, hl]
      refine if_neg ?_
      rintro ⟨⟩
      exact hnumber hm
  obtain ⟨number, rest, hl⟩ := List.exists_cons_of_ne_nil (listed_ne_nil list)
  rw [blockTransfer_eq]
  simp only [words, hvalues number rest hl]
  rw [hl, transferListed_store_cons, transferListed_store, (rewritten_writtenBack p _).width]
  simp only [Bool.false_eq_true, false_and, if_false, writeWords, listedCost]
  exact congrArg (Outcome.mk _ _) (UInt32.add_assoc ..)

/-! ## Both directions -/

theorem blockTransfer_map {γ : Type} [Bus γ] {φ : β → γ} (h : BusHom φ) (p : Processor) (bus : β)
    (load : Bool) (list : UInt16) (how : Indexing) (userBank : Bool) :
    p.blockTransfer (φ bus) load list how userBank =
      (p.blockTransfer bus load list how userBank).map φ :=
  (blockTransfer_alike h.sim (.refl p) (.refl _) rfl load list how userBank).map_eq

/-- What a block transfer takes where all accesses cost the same. -/
theorem cycles_blockTransfer {J : β → Prop} {timing : Timing} (hJ : Charges J timing) {bus : β}
    (h : J bus) (p : Processor) (load : Bool) (list : UInt16) (how : Indexing) :
    (p.blockTransfer bus load list how false).cycles =
      (if load then p.fetchTiming.seq + 1 else p.fetchTiming.nonseq) +
        (timing.nonseq + UInt32.ofNat (2 * (listed list).length - 1) * timing.seq) +
        if load ∧ Register.pc ∈ listed list then timing.nonseq + timing.seq else 0 := by
  obtain ⟨count, hcount⟩ : ∃ count, (listed list).length = count + 1 :=
    Nat.exists_eq_succ_of_ne_zero (mt List.length_eq_zero_iff.mp (listed_ne_nil list))
  have hwords : listedCost true (List.replicate (listed list).length timing) =
      timing.nonseq + UInt32.ofNat (2 * (listed list).length - 1) * timing.seq := by
    rw [hcount]
    exact listedCost_replicate timing count
  cases load with
  | false =>
    obtain ⟨q, -, he⟩ := p.blockTransfer_store bus list how fun _ => 0
    obtain ⟨htimings, -⟩ := hJ.writeWords ((listed list).map (p.storedWord list how)) h
      (how.lowest (p.get how.base) (spanned list))
    rw [he]
    simp [htimings, hwords]
  | true =>
    obtain ⟨word, q, -, -, he⟩ := p.blockTransfer_load bus list how
    obtain ⟨htimings, hafter⟩ := hJ.readWords (listed list).length h
      (how.lowest (p.get how.base) (spanned list))
    rw [he]
    by_cases hpc : Register.pc ∈ listed list
    · have hrefill := hJ.refill hafter q (word Register.pc)
      simp [hpc, htimings, hwords, Outcome.costing, hrefill, Cost.loadInternal]
    · simp [hpc, htimings, hwords, Cost.loadInternal]

/-- **Block transfers.** The listed registers are moved one after the other in ascending order, to
or from consecutive words with no other access to data. A load puts each word into its register,
and goes on at a loaded program counter in the same instruction set. A store writes what the
registers show, the program counter one instruction ahead, and a base that does not come first as
it is moved already. The base is written back unless it is the program counter or was loaded, and
nothing else changes. Where all accesses cost the same, the cost is a matter of counting them. -/
theorem blockTransfer_moves (p : Processor) (bus : β) (load : Bool) (list : UInt16)
    (how : Indexing) :
    let outcome := p.blockTransfer (⟨bus, []⟩ : Recorded β) load list how false
    (listed list).Pairwise (· < ·) ∧
    (∀ register, register ∈ listed list ↔
      list.toNat.testBit register.val = true ∨ list = 0 ∧ register = Register.pc) ∧
    p.blockTransfer bus load list how false = outcome.map Recorded.bus ∧
    (∃ (word : Register → Word) (q : Processor) (after : Recorded β) (cycles : UInt32),
      outcome.bus.accesses.reverse =
        wordAccesses load (how.lowest (p.get how.base) (spanned list)) ((listed list).map word) ∧
      (load = false → ∀ register ∈ listed list, word register = p.storedWord list how register) ∧
      Rewritten (p.blockWrites load list how word) p q ∧
      (outcome =
        if load ∧ Register.pc ∈ listed list then
          (q.refill after (word Register.pc)).costing cycles
        else ⟨q, after, cycles⟩) ∧
      outcome.processor.thumb = p.thumb ∧
      (load ∧ Register.pc ∈ listed list →
        outcome.processor.nextPc = p.width.align (word Register.pc))) ∧
    ∀ (J : β → Prop) (timing : Timing), Charges J timing → J bus →
      (p.blockTransfer bus load list how false).cycles =
        (if load then p.fetchTiming.seq + 1 else p.fetchTiming.nonseq) +
          (timing.nonseq + UInt32.ofNat (2 * (listed list).length - 1) * timing.seq) +
          if load ∧ Register.pc ∈ listed list then timing.nonseq + timing.seq else 0 := by
  intro outcome
  refine ⟨pairwise_listed list, fun _ => mem_listed, ?_, ?_,
    fun J timing hJ h => cycles_blockTransfer hJ h p load list how⟩
  · exact blockTransfer_map Recorded.hom p (⟨bus, []⟩ : Recorded β) load list how false
  · cases load with
    | false =>
      obtain ⟨q, hwrites, he⟩ := p.blockTransfer_store (⟨bus, []⟩ : Recorded β) list how
        (p.storedWord list how)
      have hq : outcome = _ := he
      refine ⟨p.storedWord list how, q, _, _, ?_, fun _ _ _ => rfl, hwrites, by simpa using he,
        ?_, by simp⟩
      · rw [hq]
        exact accesses_writeWords ..
      · rw [hq]
        exact hwrites.thumb
    | true =>
      obtain ⟨word, q, hword, hwrites, he⟩ :=
        p.blockTransfer_load (⟨bus, []⟩ : Recorded β) list how
      have hq : outcome = _ := he
      refine ⟨word, q, _, _, ?_, by simp, hwrites, by simpa using he, ?_, fun h => ?_⟩
      · have haccesses := accesses_readWords (listed list).length (⟨bus, []⟩ : Recorded β)
          (how.lowest (p.get how.base) (spanned list))
        rw [hq, hword]
        split <;> exact haccesses
      · rw [hq]
        split <;> exact hwrites.thumb
      · rw [hq, if_pos h.2, ← hwrites.width]
        exact nextPc_refill q _ _

/-- A memory with three words, of which the last is an address, at costs that tell the kinds of
access apart. -/
def threeWords : FlatMemory :=
  ((FlatMemory.ofSize 64).loadWords 0x10 [7, 9, 0x22]).setTiming ⟨3, 2⟩

/-- A load of three registers with the program counter last. -/
theorem blockTransfer_moves_threeWords :
    let p := powerOn.set 0 0x10
    let how : Indexing := ⟨0, true, false, true⟩
    Charges (fun flat : FlatMemory => flat.timing = ⟨3, 2⟩) ⟨3, 2⟩ ∧
      threeWords.timing = ⟨3, 2⟩ ∧ listed 0x8006 = [1, 2, 15] ∧
      (p.blockTransfer threeWords true 0x8006 how false).processor.thumb = p.thumb ∧
      (p.blockTransfer threeWords true 0x8006 how false).cycles = 2 + (3 + 5 * 2) + (3 + 2) := by
  intro p how
  have hlist : listed 0x8006 = [1, 2, 15] := by decide +kernel
  obtain ⟨-, -, hmap, ⟨word, q, after, cycles, -, -, -, -, hthumb, -⟩, hcost⟩ :=
    blockTransfer_moves p threeWords true 0x8006 how
  refine ⟨FlatMemory.charges ⟨3, 2⟩, rfl, hlist, ?_, ?_⟩
  · rw [hmap]
    exact hthumb
  · rw [hcost _ ⟨3, 2⟩ (FlatMemory.charges ⟨3, 2⟩) rfl, hlist]
    decide +kernel

end Processor

end Handheld
