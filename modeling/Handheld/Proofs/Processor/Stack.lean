import Handheld.Proofs.Processor.BlockTransfer
import Handheld.Proofs.Processor.Cost

/-!
# Stacks

A store of registers with write-back is undone by the load with the opposite addressing, and so are
nested pushes by their pops.

1. `Indexing.opposite` turns the addressing around. `store_writtenBack` and `load_writtenBack` are
   the two transfers where the base is not listed, and `store_load_restores` is one after the other.
2. `Nested` are the states that pushes, pops and other work in between come to, and `Restorable` is
   what they have in common. `Restorable.push` and `Restorable.pop` are the two steps.
3. `nested_restores` reads the values of every pop from it, and the bytes that stay.
4. `nested_pushes` and `nested_pops` go all the way around the address space, where a stack
   overwrites itself (`deep_stack_overwritten`).
-/

namespace Handheld

/-! ## Addressing -/

/-- A push onto a full stack that grows down. -/
def Indexing.push : Indexing := ⟨Register.sp, false, true, true⟩

/-- The pop that undoes it. -/
def Indexing.pop : Indexing := ⟨Register.sp, true, false, true⟩

/-- The addressing that goes back the way of another. -/
def Indexing.opposite (how : Indexing) : Indexing :=
  { how with up := !how.up, pre := !how.pre }

namespace Indexing

variable (how : Indexing) (base span : Word)

/-- The way back starts from the same lowest word. -/
theorem lowest_opposite :
    how.opposite.lowest (how.moved base span) span = how.lowest base span := by
  unfold opposite lowest moved
  cases how.up <;> cases how.pre <;> simp

/-- The way back ends where the way out began. -/
theorem moved_opposite : how.opposite.moved (how.moved base span) span = base := by
  unfold opposite moved
  cases how.up <;> simp

end Indexing

/-- A list that a transfer with write-back may move to memory and back: it names registers, but
neither the base nor the program counter. -/
structure Restores (list : UInt16) (base : Register) : Prop where
  nonempty : list ≠ 0
  base : base ∉ registersOf list
  pc : Register.pc ∉ registersOf list

theorem listed_of_ne {list : UInt16} (h : list ≠ 0) : listed list = registersOf list :=
  if_neg h

namespace Processor

variable {β : Type} [Bus β]

/-- A store of registers that moves its base. -/
theorem store_writtenBack (p : Processor) (bus : β) {list : UInt16} {how : Indexing}
    (hw : how.writeBack = true) (hb : how.base ≠ Register.pc) (hl : Restores list how.base) :
    let outcome := p.blockTransfer bus false list how false
    outcome.bus = (writeWords bus (how.lowest (p.get how.base) (spanned list))
      ((registersOf list).map p.get)).2 ∧
    ∀ register, outcome.processor.get register =
      if register = how.base then how.moved (p.get how.base) (spanned list)
      else p.get register := by
  intro outcome
  obtain ⟨q, hwrites, he⟩ := p.blockTransfer_store bus list how fun _ => 0
  have hq : outcome = _ := he
  refine ⟨?_, fun register => ?_⟩
  · have hvalues : (listed list).map (p.storedWord list how) = (registersOf list).map p.get := by
      rw [listed_of_ne hl.nonempty]
      refine List.map_congr_left fun register hm => ?_
      have hbase : register ≠ how.base := fun h => hl.base (h ▸ hm)
      have hpc : register ≠ Register.pc := fun h => hl.pc (h ▸ hm)
      simp [storedWord, hbase, getAhead, hpc]
    rw [hq, hvalues]
  · rw [hq, hwrites.get]
    by_cases hr : register = how.base
    · simp [blockWrites, hw, hb, hr]
    · simp [blockWrites, hr]

/-- A load of registers that moves its base. -/
theorem load_writtenBack (p : Processor) (bus : β) {list : UInt16} {how : Indexing}
    (hw : how.writeBack = true) (hb : how.base ≠ Register.pc) (hl : Restores list how.base) :
    let words := readWords bus (how.lowest (p.get how.base) (spanned list))
      (registersOf list).length
    let outcome := p.blockTransfer bus true list how false
    outcome.bus = words.2 ∧
    (registersOf list).map outcome.processor.get = words.1.map Read.data ∧
    outcome.processor.get how.base = how.moved (p.get how.base) (spanned list) := by
  intro words outcome
  obtain ⟨word, q, hword, hwrites, he⟩ := p.blockTransfer_load bus list how
  rw [listed_of_ne hl.nonempty] at hword he
  have hq : outcome = _ := he.trans (if_neg hl.pc)
  refine ⟨by rw [hq], ?_, ?_⟩
  · refine Eq.trans (List.map_congr_left fun register hm => ?_) hword
    rw [hq, hwrites.get]
    simp [blockWrites, listed_of_ne hl.nonempty, hm]
  · rw [hq, hwrites.get]
    simp [blockWrites, listed_of_ne hl.nonempty, hl.base, hw, hb]

/-- The load with the opposite addressing undoes a store: it brings back the registers and the base,
whatever was done to the other registers in between. -/
theorem store_load_restores {e : Nat} (p : Processor) {flat : FlatMemory}
    (hs : flat.size = 2 ^ e) {list : UInt16} {how : Indexing} (hw : how.writeBack = true)
    (hb : how.base ≠ Register.pc) (hl : Restores list how.base)
    (hfits : 4 * (registersOf list).length ≤ flat.size) :
    let stored := p.blockTransfer flat false list how false
    ∀ q : Processor, q.get how.base = stored.processor.get how.base →
      let loaded := q.blockTransfer stored.bus true list how.opposite false
      (∀ register ∈ registersOf list, loaded.processor.get register = p.get register) ∧
        loaded.processor.get how.base = p.get how.base := by
  intro stored q hq loaded
  have hback : how.opposite.writeBack = true := hw
  obtain ⟨hbus, hget⟩ := p.store_writtenBack flat hw hb hl
  obtain ⟨-, hwords, hbase⟩ := q.load_writtenBack stored.bus hback hb hl
  have hmoved : q.get how.base = how.moved (p.get how.base) (spanned list) :=
    hq.trans ((hget how.base).trans (if_pos rfl))
  have hq' : q.get how.opposite.base = how.moved (p.get how.base) (spanned list) := hmoved
  have hread := FlatMemory.data_writeWords ((registersOf list).map p.get) flat hs
  rw [List.length_map] at hread
  have hcount := registersOf_length_le list
  refine ⟨List.map_inj_left.mp (hwords.trans ?_), hbase.trans ?_⟩
  · rw [hq', Indexing.lowest_opposite, hbus]
    exact hread hfits (by omega) _
  · rw [hq', Indexing.moved_opposite]

/-! ## Nested pushes and pops -/

/-- A push that was not popped yet: its list and what the registers showed. -/
structure Pushed where
  list : UInt16
  saved : Register → Word

namespace Pushed

/-- The bytes that a push takes. -/
def bytes (top : Pushed) : Nat := 4 * (registersOf top.list).length

/-- The bytes that a stack takes. -/
def depth (stack : List Pushed) : Nat := (stack.map bytes).sum

end Pushed

/-- The states that pushes and pops come to, each pop with the list of its push, and with any
changes to registers other than the stack pointer in between. The last number is the greatest depth
so far. -/
inductive Nested (p₀ : Processor) (flat₀ : FlatMemory) :
    Processor → FlatMemory → List Pushed → Nat → Prop
  | start : Nested p₀ flat₀ p₀ flat₀ [] 0
  | change {p : Processor} {flat : FlatMemory} {stack : List Pushed} {deepest : Nat}
    (h : Nested p₀ flat₀ p flat stack deepest) (q : Processor)
    (hq : q.get Register.sp = p.get Register.sp) : Nested p₀ flat₀ q flat stack deepest
  | push {p : Processor} {flat : FlatMemory} {stack : List Pushed} {deepest : Nat}
    (h : Nested p₀ flat₀ p flat stack deepest) (list : UInt16)
    (hl : Restores list Register.sp) :
    Nested p₀ flat₀ (p.execute flat (.blockTransfer false list Indexing.push false)).processor
      (p.execute flat (.blockTransfer false list Indexing.push false)).bus (⟨list, p.get⟩ :: stack)
      (max deepest (Pushed.depth (⟨list, p.get⟩ :: stack)))
  | pop {p : Processor} {flat : FlatMemory} {top : Pushed} {stack : List Pushed} {deepest : Nat}
    (h : Nested p₀ flat₀ p flat (top :: stack) deepest) :
    Nested p₀ flat₀ (p.execute flat (.blockTransfer true top.list Indexing.pop false)).processor
      (p.execute flat (.blockTransfer true top.list Indexing.pop false)).bus stack deepest

/-- The words of a stack lie in memory from an address on, the latest push first. -/
def Kept (flat : FlatMemory) : Word → List Pushed → Prop
  | _, [] => True
  | address, top :: stack =>
    (readWords flat address (registersOf top.list).length).1.map Read.data =
        (registersOf top.list).map top.saved ∧
      Kept flat (address + UInt32.ofNat top.bytes) stack

theorem depth_cons (top : Pushed) (stack : List Pushed) :
    Pushed.depth (top :: stack) = top.bytes + Pushed.depth stack := rfl

theorem bytes_dvd (top : Pushed) : 4 ∣ top.bytes := Nat.dvd_mul_right ..

theorem depth_dvd (stack : List Pushed) : 4 ∣ Pushed.depth stack := by
  induction stack with
  | nil => exact Nat.dvd_zero 4
  | cons top stack ih => exact Nat.dvd_add (bytes_dvd top) ih

theorem ofNat_mod {n : Nat} (h : 4 ∣ n) : UInt32.ofNat n % Width.word.bytes = 0 := by
  rw [Width.mod_bytes_iff, UInt32.toNat_ofNat']
  show n % 2 ^ 32 % 4 = 0
  omega

theorem sub_ofNat_add (a : Word) (n m : Nat) :
    a - UInt32.ofNat (n + m) + UInt32.ofNat n = a - UInt32.ofNat m := by
  rw [UInt32.ofNat_add]
  grind

/-- A stack is kept where its bytes are. -/
theorem kept_congr {flat other : FlatMemory} (stack : List Pushed) :
    ∀ {address : Word}, address % Width.word.bytes = 0 →
      (∀ place < Pushed.depth stack, other.byteAt (address + UInt32.ofNat place) =
        flat.byteAt (address + UInt32.ofNat place)) →
      Kept flat address stack → Kept other address stack := by
  induction stack with
  | nil => exact fun _ _ _ => trivial
  | cons top stack ih =>
    intro address ha hbytes h
    rw [depth_cons] at hbytes
    refine ⟨?_, ih (Width.add_mod ha (ofNat_mod (bytes_dvd top))) (fun place hp => ?_) h.2⟩
    · refine (FlatMemory.data_readWords_congr _ address fun place hp => ?_).trans h.1
      rw [Width.align_of_mod ha]
      exact hbytes place (Nat.lt_add_right _ hp)
    · have hplace := hbytes (top.bytes + place) (Nat.add_lt_add_left hp _)
      rwa [UInt32.ofNat_add, ← UInt32.add_assoc] at hplace

theorem spanned_of {list : UInt16} (hl : list ≠ 0) (saved : Register → Word) :
    spanned list = UInt32.ofNat (Pushed.mk list saved).bytes :=
  if_neg hl

theorem bytes_pos {list : UInt16} (hl : list ≠ 0) (saved : Register → Word) :
    4 ≤ (Pushed.mk list saved).bytes :=
  Nat.le_mul_of_pos_right 4 (List.length_pos_of_ne_nil (listed_of_ne hl ▸ listed_ne_nil list))

/-- The words of a push change no other bytes. -/
theorem memory_pushed {e : Nat} {flat : FlatMemory} (hs : flat.size = 2 ^ e) (h4 : 4 ≤ flat.size)
    (top : Pushed) {address : Word} (ha : address % Width.word.bytes = 0) {place : Nat}
    (h : ∀ i < top.bytes, place ≠ FlatMemory.index flat.size (address + UInt32.ofNat i)) :
    (writeWords flat address ((registersOf top.list).map top.saved)).2.memory.byteAt place =
      flat.memory.byteAt place := by
  refine FlatMemory.memory_writeWords_of_ne _ flat hs h4 address fun i hi => ?_
  rw [List.length_map] at hi
  rw [Width.align_of_mod ha]
  exact h i hi

/-- Words that are written below a stack go on top of it. -/
theorem kept_pushed {e : Nat} {flat : FlatMemory} (hs : flat.size = 2 ^ e) (h4 : 4 ≤ flat.size)
    {top : Pushed} {stack : List Pushed} {address : Word} (ha : address % Width.word.bytes = 0)
    (hfits : Pushed.depth (top :: stack) ≤ flat.size)
    (hfits' : Pushed.depth (top :: stack) ≤ 2 ^ 32)
    (h : Kept flat (address + UInt32.ofNat top.bytes) stack) :
    Kept (writeWords flat address ((registersOf top.list).map top.saved)).2 address
      (top :: stack) := by
  have hbytes : top.bytes = 4 * (registersOf top.list).length := rfl
  rw [depth_cons] at hfits hfits'
  refine ⟨?_, ?_⟩
  · have hread := FlatMemory.data_writeWords ((registersOf top.list).map top.saved) flat hs
    rw [List.length_map] at hread
    exact hread (by omega) (by omega) address
  · refine kept_congr stack (Width.add_mod ha (ofNat_mod (bytes_dvd top))) (fun place hp => ?_) h
    refine FlatMemory.byteAt_congr (FlatMemory.size_writeWords ..)
      (memory_pushed hs h4 top ha fun i hi he => ?_)
    rw [UInt32.add_assoc, ← UInt32.ofNat_add] at he
    have hplace : top.bytes + place = i :=
      FlatMemory.index_add_inj hs address (by omega) (by omega) (by omega) (by omega) he
    omega

/-- What nested pushes and pops have in common: the stack pointer has moved by the depth of the
stack, the pushed words are in memory, and the bytes outside of the deepest stack are as they were.
-/
structure Restorable (sp₀ : Word) (flat₀ : FlatMemory) (p : Processor) (flat : FlatMemory)
    (stack : List Pushed) (deepest : Nat) : Prop where
  sp : p.get Register.sp = sp₀ - UInt32.ofNat (Pushed.depth stack)
  depth_le : Pushed.depth stack ≤ deepest
  restores : ∀ top ∈ stack, Restores top.list Register.sp
  size : flat.size = flat₀.size
  kept : Kept flat (p.get Register.sp) stack
  outside : ∀ place,
    (∀ k, 1 ≤ k → k ≤ deepest → place ≠ FlatMemory.index flat₀.size (sp₀ - UInt32.ofNat k)) →
      flat.memory.byteAt place = flat₀.memory.byteAt place

namespace Restorable

variable {e : Nat} {sp₀ : Word} {flat₀ flat : FlatMemory} {p : Processor} {stack : List Pushed}
  {deepest : Nat}

theorem start (p : Processor) (flat : FlatMemory) :
    Restorable (p.get Register.sp) flat p flat [] 0 where
  sp := (UInt32.sub_zero _).symm
  depth_le := Nat.le_refl 0
  restores := by simp
  size := rfl
  kept := trivial
  outside _ _ := rfl

theorem change (h : Restorable sp₀ flat₀ p flat stack deepest) {q : Processor}
    (hq : q.get Register.sp = p.get Register.sp) :
    Restorable sp₀ flat₀ q flat stack deepest where
  sp := hq.trans h.sp
  depth_le := h.depth_le
  restores := h.restores
  size := h.size
  kept := hq ▸ h.kept
  outside := h.outside

theorem aligned (hsp : sp₀ % Width.word.bytes = 0) {n : Nat} (h : 4 ∣ n) :
    (sp₀ - UInt32.ofNat n) % Width.word.bytes = 0 := by
  have hn := ofNat_mod h
  rw [Width.mod_bytes_iff] at hsp hn ⊢
  rw [UInt32.toNat_sub]
  change sp₀.toNat % 4 = 0 at hsp
  change (UInt32.ofNat n).toNat % 4 = 0 at hn
  show _ % 4 = 0
  have := (UInt32.ofNat n).toNat_lt
  omega

/-- A push puts the registers below the stack that is there. -/
theorem push (hs : flat₀.size = 2 ^ e) (hsp : sp₀ % Width.word.bytes = 0)
    (h : Restorable sp₀ flat₀ p flat stack deepest) {list : UInt16}
    (hl : Restores list Register.sp)
    (hfits : Pushed.depth (⟨list, p.get⟩ :: stack) ≤ flat₀.size)
    (hfits' : Pushed.depth (⟨list, p.get⟩ :: stack) ≤ 2 ^ 32) :
    Restorable sp₀ flat₀ (p.execute flat (.blockTransfer false list Indexing.push false)).processor
      (p.execute flat (.blockTransfer false list Indexing.push false)).bus (⟨list, p.get⟩ :: stack)
      (max deepest (Pushed.depth (⟨list, p.get⟩ :: stack))) := by
  have hback : Indexing.push.writeBack = true := rfl
  obtain ⟨hbus, hget⟩ := p.store_writtenBack flat hback (by decide) hl
  let top : Pushed := ⟨list, p.get⟩
  let address := sp₀ - UInt32.ofNat (Pushed.depth (top :: stack))
  change Pushed.depth (top :: stack) ≤ _ at hfits hfits'
  have hdepth := depth_cons top stack
  have hpos : 4 ≤ top.bytes := bytes_pos hl.nonempty p.get
  have hflat : flat.size = 2 ^ e := h.size.trans hs
  have h4 : 4 ≤ flat.size := by
    rw [h.size]
    omega
  -- the pushed words end where the stack begins
  have hbegin : address + UInt32.ofNat top.bytes = p.get Register.sp := by
    rw [h.sp]
    exact sub_ofNat_add ..
  have haddress : p.get Register.sp - spanned list = address := by
    rw [← hbegin, spanned_of hl.nonempty p.get]
    exact UInt32.add_sub_cancel ..
  have hmod : address % Width.word.bytes = 0 := aligned hsp (depth_dvd _)
  have hsp' : (p.execute flat (.blockTransfer false list Indexing.push false)).processor.get
      Register.sp = address := (hget Register.sp).trans haddress
  have hbus' : (p.execute flat (.blockTransfer false list Indexing.push false)).bus =
      (writeWords flat address ((registersOf top.list).map top.saved)).2 := by
    rw [← haddress]
    exact hbus
  refine ⟨hsp', Nat.le_max_right .., ?_, ?_, ?_, ?_⟩
  · intro other hm
    rcases List.mem_cons.mp hm with rfl | hm
    · exact hl
    · exact h.restores other hm
  · rw [hbus', FlatMemory.size_writeWords]
    exact h.size
  · rw [hsp', hbus']
    rw [← h.size] at hfits
    exact kept_pushed hflat h4 hmod hfits hfits' (hbegin ▸ h.kept)
  · intro place hplace
    rw [hbus']
    refine (memory_pushed hflat h4 top hmod fun i hi => ?_).trans
      (h.outside place fun k hk hk' => hplace k hk (hk'.trans (Nat.le_max_left ..)))
    have hat : address + UInt32.ofNat i =
        sp₀ - UInt32.ofNat (Pushed.depth (top :: stack) - i) := by
      have hsplit : Pushed.depth (top :: stack) = i + (Pushed.depth (top :: stack) - i) := by omega
      rw [← sub_ofNat_add sp₀ i, ← hsplit]
    rw [h.size, hat]
    exact hplace _ (by omega) ((Nat.sub_le ..).trans (Nat.le_max_right ..))

/-- A pop brings back what the registers showed at its push. -/
theorem popped {top : Pushed} (h : Restorable sp₀ flat₀ p flat (top :: stack) deepest) :
    let outcome := p.execute flat (.blockTransfer true top.list Indexing.pop false)
    outcome.bus = flat ∧
      (∀ register ∈ registersOf top.list, outcome.processor.get register = top.saved register) ∧
      outcome.processor.get Register.sp = sp₀ - UInt32.ofNat (Pushed.depth stack) := by
  intro outcome
  have hback : Indexing.pop.writeBack = true := rfl
  have hl := h.restores top List.mem_cons_self
  obtain ⟨hbus, hwords, hsp⟩ := p.load_writtenBack flat hback (by decide) hl
  refine ⟨hbus.trans (FlatMemory.readWords_bus ..), ?_, hsp.trans ?_⟩
  · exact List.map_inj_left.mp (hwords.trans h.kept.1)
  · show p.get Register.sp + spanned top.list = _
    rw [h.sp, spanned_of hl.nonempty top.saved]
    exact sub_ofNat_add ..

/-- A pop leaves the memory as it is. -/
theorem pop {top : Pushed} (h : Restorable sp₀ flat₀ p flat (top :: stack) deepest) :
    Restorable sp₀ flat₀
      (p.execute flat (.blockTransfer true top.list Indexing.pop false)).processor
      (p.execute flat (.blockTransfer true top.list Indexing.pop false)).bus stack deepest := by
  obtain ⟨hbus, -, hsp⟩ := h.popped
  refine ⟨hsp, ?_, fun other hm => h.restores other (List.mem_cons_of_mem _ hm), ?_, ?_, ?_⟩
  · exact (Nat.le_add_left _ _).trans h.depth_le
  · rw [hbus]
    exact h.size
  · rw [hbus, hsp]
    have hkept := h.kept.2
    rwa [h.sp, depth_cons, sub_ofNat_add] at hkept
  · rw [hbus]
    exact h.outside

end Restorable

/-- Nested pushes and pops keep a stack restorable while it fits in the memory. -/
theorem Nested.restorable {e : Nat} {p₀ p : Processor} {flat₀ flat : FlatMemory}
    {stack : List Pushed} {deepest : Nat} (hs : flat₀.size = 2 ^ e)
    (hsp : p₀.get Register.sp % Width.word.bytes = 0)
    (h : Nested p₀ flat₀ p flat stack deepest) :
    deepest ≤ flat₀.size → deepest ≤ 2 ^ 32 →
      Restorable (p₀.get Register.sp) flat₀ p flat stack deepest := by
  induction h with
  | start => exact fun _ _ => .start p₀ flat₀
  | change _ q hq ih => exact fun hd hd' => (ih hd hd').change hq
  | push _ list hl ih =>
    intro hd hd'
    exact (ih ((Nat.le_max_left ..).trans hd) ((Nat.le_max_left ..).trans hd')).push hs hsp hl
      ((Nat.le_max_right ..).trans hd) ((Nat.le_max_right ..).trans hd')
  | pop _ ih => exact fun hd hd' => (ih hd hd').pop

/-- **Pushes and pops restore.** While nested pushes fit in the memory and in the address space,
every pop loads what the registers showed at its push, the stack pointer is where the depth of the
stack puts it, and no byte outside of the deepest stack changes. A store with write-back in any of
the four modes is undone by the load with the opposite addressing, where the base is not the program
counter. -/
theorem nested_restores {e : Nat} {flat₀ : FlatMemory} (hs : flat₀.size = 2 ^ e) :
    (∀ (p₀ p : Processor) (flat : FlatMemory) (stack : List Pushed) (deepest : Nat),
      p₀.get Register.sp % Width.word.bytes = 0 → Nested p₀ flat₀ p flat stack deepest →
      deepest ≤ flat₀.size → deepest ≤ 2 ^ 32 →
      (∀ top rest, stack = top :: rest → ∀ register ∈ registersOf top.list,
        (p.execute flat (.blockTransfer true top.list Indexing.pop false)).processor.get register =
          top.saved register) ∧
      p.get Register.sp = p₀.get Register.sp - UInt32.ofNat (Pushed.depth stack) ∧
      ∀ place, (∀ k, 1 ≤ k → k ≤ deepest →
          place ≠ FlatMemory.index flat₀.size (p₀.get Register.sp - UInt32.ofNat k)) →
        flat.memory.byteAt place = flat₀.memory.byteAt place) ∧
    ∀ (p : Processor) (list : UInt16) (how : Indexing), how.writeBack = true →
      how.base ≠ Register.pc → Restores list how.base →
      4 * (registersOf list).length ≤ flat₀.size →
      let stored := p.execute flat₀ (.blockTransfer false list how false)
      ∀ q : Processor, q.get how.base = stored.processor.get how.base →
        let loaded := q.execute stored.bus (.blockTransfer true list how.opposite false)
        (∀ register ∈ registersOf list, loaded.processor.get register = p.get register) ∧
          loaded.processor.get how.base = p.get how.base := by
  refine ⟨fun p₀ p flat stack deepest hsp h hd hd' => ?_, fun p list how hw hb hl hfits =>
    store_load_restores p hs hw hb hl hfits⟩
  have hrestorable := h.restorable hs hsp hd hd'
  refine ⟨fun top rest hstack => ?_, hrestorable.sp, hrestorable.outside⟩
  subst hstack
  exact hrestorable.popped.2.1

/-- A processor with words in its first registers and a stack. -/
def stacked : Processor :=
  ((powerOn.set 0 0x12345678).set 1 0x9ABCDEF0).set Register.sp 0x20

/-- A push of two registers and, after both have changed, its pop. -/
theorem nested_restores_stacked :
    let flat := FlatMemory.ofSize 64
    let push := stacked.execute flat (.blockTransfer false 3 Indexing.push false)
    let changed := (push.processor.set 0 7).set 1 8
    let pop := changed.execute push.bus (.blockTransfer true 3 Indexing.pop false)
    flat.size = 2 ^ 6 ∧ stacked.get Register.sp % Width.word.bytes = 0 ∧
      Nested stacked flat changed push.bus [⟨3, stacked.get⟩] 8 ∧
      pop.processor.get 0 = 0x12345678 ∧ pop.processor.get 1 = 0x9ABCDEF0 ∧
      push.bus.memory.byteAt 0x20 = 0 ∧ push.bus.memory.byteAt 0x18 = 0x78 := by
  intro flat push changed pop
  have hs : flat.size = 2 ^ 6 := rfl
  have hsp : stacked.get Register.sp % Width.word.bytes = 0 := by decide +kernel
  have hl : Restores 3 Register.sp := ⟨by decide, by decide +kernel, by decide +kernel⟩
  have hnested : Nested stacked flat changed push.bus [⟨3, stacked.get⟩] 8 :=
    (Nested.start.push 3 hl).change changed (by decide +kernel)
  obtain ⟨hpop, -, houtside⟩ :=
    (nested_restores hs).1 stacked changed push.bus _ 8 hsp hnested (by decide) (by decide)
  refine ⟨hs, hsp, hnested, ?_, ?_, ?_, by decide +kernel⟩
  · exact (hpop _ _ rfl 0 (by decide +kernel)).trans (by decide +kernel)
  · exact (hpop _ _ rfl 1 (by decide +kernel)).trans (by decide +kernel)
  · refine (houtside 0x20 fun k hk hk' => ?_).trans (by decide +kernel)
    interval_cases k <;> decide +kernel

/-! ## What is not restored -/

/-- A stack of pushes of the first register alone. -/
def Singles (stack : List Pushed) : Prop := ∀ top ∈ stack, top.list = 1

theorem restores_single : Restores 1 Register.sp :=
  ⟨by decide, by decide +kernel, by decide +kernel⟩

theorem bytes_single (saved : Register → Word) : (Pushed.mk 1 saved).bytes = 4 := by
  have h : (registersOf 1).length = 1 := by decide +kernel
  exact congrArg (4 * ·) h

/-- A push of the first register writes one word. -/
theorem push_single (p : Processor) (flat : FlatMemory) :
    let outcome := p.execute flat (.blockTransfer false 1 Indexing.push false)
    outcome.bus =
        flat.poke (Width.word.align (outcome.processor.get Register.sp)) (p.get 0) .word ∧
      outcome.processor.get Register.sp = p.get Register.sp - 4 ∧
      outcome.processor.get 0 = p.get 0 := by
  intro outcome
  have hback : Indexing.push.writeBack = true := rfl
  obtain ⟨hbus, hget⟩ := p.store_writtenBack flat hback (by decide) restores_single
  have hsp : outcome.processor.get Register.sp = p.get Register.sp - 4 := hget Register.sp
  refine ⟨hbus.trans ?_, hsp, hget 0⟩
  have hlist : registersOf 1 = [0] := by decide +kernel
  rw [hlist, hsp]
  exact FlatMemory.writeWords_cons ..

theorem depth_singles {stack : List Pushed} (h : Singles stack) (bottom : List Pushed) :
    Pushed.depth (stack ++ bottom) = 4 * stack.length + Pushed.depth bottom := by
  induction stack with
  | nil => exact (Nat.zero_add _).symm
  | cons top stack ih =>
    have htop : top.bytes = 4 := by
      rw [← bytes_single top.saved, ← h top List.mem_cons_self]
    rw [List.cons_append, depth_cons, ih fun other hm => h other (List.mem_cons_of_mem _ hm), htop,
      List.length_cons]
    omega

/-- What pushes of the first register come to while it holds some value: the last one is found in
memory. -/
structure Filled (p : Processor) (size : Nat) (value : Word) (stack : List Pushed) (q : Processor)
    (after : FlatMemory) : Prop where
  singles : Singles stack
  sp : q.get Register.sp = p.get Register.sp - UInt32.ofNat (4 * stack.length)
  held : q.get 0 = value
  size : after.size = size
  last : stack ≠ [] → after.peek (Width.word.align (q.get Register.sp)) .word = value

theorem Filled.push {p q : Processor} {e : Nat} {value : Word} {stack : List Pushed}
    {flat : FlatMemory} (hw : Width.word.lanes ≤ 2 ^ e)
    (h : Filled p (2 ^ e) value stack q flat) :
    let outcome := q.execute flat (.blockTransfer false 1 Indexing.push false)
    Filled p (2 ^ e) value (⟨1, q.get⟩ :: stack) outcome.processor outcome.bus := by
  intro outcome
  obtain ⟨hbus, hsp, hget⟩ := q.push_single flat
  exact
    { singles := fun top hm => by
        rcases List.mem_cons.mp hm with rfl | hm
        · rfl
        · exact h.singles top hm
      sp := by
        rw [hsp, h.sp, List.length_cons, Nat.mul_add, UInt32.ofNat_add]
        show _ - _ - 4 = _ - (_ + 4)
        grind
      held := hget.trans h.held
      size := by
        rw [hbus, FlatMemory.size_poke]
        exact h.size
      last := fun _ => by
        rw [hbus, FlatMemory.peek_poke h.size (h.size ▸ hw)]
        exact h.held }

/-- Any number of pushes of the first register may follow one another. -/
theorem nested_pushes {p₀ p : Processor} {flat₀ flat : FlatMemory} {e : Nat}
    {bottom : List Pushed} {value : Word} {deepest : Nat} (hw : Width.word.lanes ≤ 2 ^ e)
    (hs : flat.size = 2 ^ e) (h : Nested p₀ flat₀ p flat bottom deepest) (hvalue : p.get 0 = value)
    (count : Nat) :
    ∃ (q : Processor) (after : FlatMemory) (stack : List Pushed) (deepest' : Nat),
      Nested p₀ flat₀ q after (stack ++ bottom) deepest' ∧
      Filled p (2 ^ e) value stack q after ∧ stack.length = count ∧
      deepest' ≤ max deepest (4 * count + Pushed.depth bottom) := by
  induction count with
  | zero =>
    have hfilled : Filled p (2 ^ e) value [] p flat :=
      ⟨by simp [Singles], (UInt32.sub_zero _).symm, hvalue, hs, by simp⟩
    exact ⟨p, flat, [], deepest, h, hfilled, rfl, Nat.le_max_left ..⟩
  | succ count ih =>
    obtain ⟨q, after, stack, deepest', hnested, hfilled, rfl, hle⟩ := ih
    have hpushed := hfilled.push hw
    refine ⟨_, _, ⟨1, q.get⟩ :: stack, _, hnested.push 1 restores_single, hpushed, rfl, ?_⟩
    have hdepth := depth_singles hpushed.singles bottom
    rw [List.cons_append, List.length_cons] at hdepth
    rw [hdepth]
    omega

/-- Pops of the first register leave the memory as it is. -/
theorem nested_pops {p₀ : Processor} {flat₀ : FlatMemory} {bottom : List Pushed} {deepest : Nat}
    {flat : FlatMemory} (stack : List Pushed) :
    ∀ {p : Processor}, Nested p₀ flat₀ p flat (stack ++ bottom) deepest → Singles stack →
      ∃ q : Processor, Nested p₀ flat₀ q flat bottom deepest ∧
        q.get Register.sp = p.get Register.sp + UInt32.ofNat (4 * stack.length) := by
  induction stack with
  | nil => exact fun h _ => ⟨_, h, (UInt32.add_zero _).symm⟩
  | cons top stack ih =>
    intro p h hs
    have hl : Restores top.list Register.sp := hs top List.mem_cons_self ▸ restores_single
    have hback : Indexing.pop.writeBack = true := rfl
    obtain ⟨hbus, -, hsp⟩ := p.load_writtenBack flat hback (by decide) hl
    have hflat : (p.execute flat (.blockTransfer true top.list Indexing.pop false)).bus = flat :=
      hbus.trans (FlatMemory.readWords_bus ..)
    have hpop := h.pop
    rw [hflat] at hpop
    obtain ⟨q, hq, hqsp⟩ := ih hpop fun other hm => hs other (List.mem_cons_of_mem _ hm)
    refine ⟨q, hq, hqsp.trans ?_⟩
    have hone : (p.execute flat (.blockTransfer true top.list Indexing.pop false)).processor.get
        Register.sp = p.get Register.sp + 4 := by
      refine hsp.trans ?_
      have hlist := hs top List.mem_cons_self
      rw [hlist]
      rfl
    rw [hone, List.length_cons, Nat.mul_add, UInt32.ofNat_add]
    show _ + 4 + _ = _ + (_ + 4)
    grind

/-- A stack that goes round the address space overwrites itself, however large the memory is. -/
theorem deep_stack_overwritten : ¬ ∀ (p₀ p : Processor) (flat₀ flat : FlatMemory) (top : Pushed)
    (rest : List Pushed) (deepest : Nat), flat₀.size = 2 ^ 33 →
    p₀.get Register.sp % Width.word.bytes = 0 → Nested p₀ flat₀ p flat (top :: rest) deepest →
    deepest ≤ flat₀.size → ∀ register ∈ registersOf top.list,
      (p.execute flat (.blockTransfer true top.list Indexing.pop false)).processor.get register =
        top.saved register := by
  intro hrestored
  let flat₀ := FlatMemory.ofSize (2 ^ 33)
  let first := powerOn.execute flat₀ (.blockTransfer false 1 Indexing.push false)
  let bottom : Pushed := ⟨1, powerOn.get⟩
  obtain ⟨hbus, -, -⟩ := powerOn.push_single flat₀
  have hsize : first.bus.size = 2 ^ 33 := by
    rw [hbus, FlatMemory.size_poke]
    rfl
  have hfirst : Nested powerOn flat₀ (first.processor.set 0 1) first.bus [bottom] 4 :=
    (Nested.start.push 1 restores_single).change _ (get_set ..)
  obtain ⟨q, after, stack, deepest, hpushes, hfilled, hlength, hle⟩ :=
    nested_pushes (by decide) hsize hfirst (get_set ..) (2 ^ 30)
  obtain ⟨r, hpops, hrsp⟩ := nested_pops stack hpushes hfilled.singles
  have hround : UInt32.ofNat (4 * 2 ^ 30) = 0 := by decide +kernel
  rw [hlength, hround, UInt32.add_zero] at hrsp
  have hdepth : Pushed.depth [bottom] = 4 := congrArg (· + 0) (bytes_single powerOn.get)
  rw [hdepth] at hle
  have hkept : (r.execute after (.blockTransfer true 1 Indexing.pop false)).processor.get 0 =
      powerOn.get 0 :=
    hrestored powerOn r flat₀ after bottom [] deepest rfl (by decide +kernel) hpops
      (hle.trans (by decide)) 0 (by decide +kernel)
  have hback : Indexing.pop.writeBack = true := rfl
  obtain ⟨-, hwords, -⟩ := r.load_writtenBack after hback (by decide) restores_single
  have hlist : registersOf 1 = [0] := by decide +kernel
  have hread :
      (r.execute after (.blockTransfer true 1 Indexing.pop false)).processor.get 0 = 1 := by
    rw [hlist] at hwords
    refine (List.head_eq_of_cons_eq hwords).trans ?_
    show after.peek (Width.word.align (r.get Register.sp)) .word = 1
    rw [hrsp]
    refine hfilled.last fun hn => ?_
    rw [hn] at hlength
    exact absurd hlength (by decide)
  exact absurd (hread.symm.trans hkept) (by decide +kernel)

/-- A program that stores two registers from the program counter on and loads them back. -/
def aroundItself : FlatMemory :=
  (FlatMemory.ofSize 64).loadWords 0 [0xE8AF0003, 0xE93F0003]

/-- A processor about to run it, with words in both registers. -/
def beforeItself : Processor :=
  (((powerOn.set 0 0x12345678).set 1 0x9ABCDEF0).jump aroundItself 0).processor

/-- Not everything is restored. The program counter is not written back as a base, so that the load
starts elsewhere; and a stack deeper than the address space overwrites itself. -/
theorem not_restored :
    (let stored := beforeItself.step aroundItself;
      beforeItself.Retires aroundItself
          (.blockTransfer false 3 ⟨Register.pc, true, false, true⟩ false) ∧
        stored.processor.Retires stored.bus
          (.blockTransfer true 3 ⟨Register.pc, false, true, true⟩ false) ∧
        beforeItself.get 0 = 0x12345678 ∧
        (stored.processor.step stored.bus).processor.get 0 = 0xE93F0003) ∧
    ¬ ∀ (p₀ p : Processor) (flat₀ flat : FlatMemory) (top : Pushed) (rest : List Pushed)
      (deepest : Nat), flat₀.size = 2 ^ 33 → p₀.get Register.sp % Width.word.bytes = 0 →
      Nested p₀ flat₀ p flat (top :: rest) deepest → deepest ≤ flat₀.size →
      ∀ register ∈ registersOf top.list,
        (p.execute flat (.blockTransfer true top.list Indexing.pop false)).processor.get register =
          top.saved register := by
  refine ⟨⟨?_, ?_, ?_, ?_⟩, deep_stack_overwritten⟩
  · exact ⟨by decide +kernel, by decide +kernel⟩
  · exact ⟨by decide +kernel, by decide +kernel⟩
  · decide +kernel
  · decide +kernel

end Processor

end Handheld
