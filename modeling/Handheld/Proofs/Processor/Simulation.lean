import Mathlib.Tactic
import Handheld.Proofs.Processor.Engines
import Handheld.Proofs.Processor.Multiplier

/-!
# Alike buses

The processor uses the answers of its bus for results and their timings for costs. So buses that
give the same answers, at costs that compare, take it through the same states but for its costs,
which compare too.

1. `Comparison` is a way to compare costs of 32 bits. It is told between which bounds the cycles
   behind two costs lie, because sums compare only where none of them wraps.
2. `BusSim` relates buses that answer alike; `BusKeeps` is a property of one bus.
3. `Processor.Alike` and `Outcome.Alike` compare what the processor comes to.
4. `step_alike` and its neighbours carry the entry points over, by one lemma for each function
   below them.
-/

namespace Handheld

/-! ## Comparisons -/

/-- A way to compare costs. -/
structure Comparison where
  /-- Costs of at least and of at most so many cycles compare. -/
  costs : Nat → Nat → UInt32 → UInt32 → Prop
  /-- What the processors counted compares. -/
  counts : Nat → Nat → Prop
  /-- The costs of the last fetch compare, which a processor keeps between two steps. -/
  stored : Timing → Timing → Prop
  /-- The least that an access costs. -/
  low : Nat
  /-- The most that an access costs. -/
  limit : Nat
  constant : ∀ cost : UInt32, costs cost.toNat cost.toNat cost cost
  add : ∀ {l m k n a b c d}, costs l m a b → costs k n c d → costs (l + k) (m + n) (a + c) (b + d)
  weaken : ∀ {l m k n a b}, costs l m a b → k ≤ l → m ≤ n → costs k n a b
  counts_refl : ∀ count, counts count count
  count : ∀ {l m a b x y}, costs l m a b → m ≤ 35 * limit + 6 → counts x y →
    counts (x + a.toNat) (y + b.toNat)
  stored_refl : ∀ timing, stored timing timing
  store : ∀ {a b : Timing}, costs low limit a.nonseq b.nonseq → costs low limit a.seq b.seq →
    stored a b

namespace Comparison

/-- The most that a step costs: the longest one loads all sixteen registers. -/
def longest (C : Comparison) : Nat := 35 * C.limit + 6

/-- Costs are the same. -/
def eq : Comparison where
  costs _ _ := Eq
  counts := Eq
  stored := Eq
  low := 0
  limit := 0
  constant _ := rfl
  add h k := congrArg₂ (· + ·) h k
  weaken h _ _ := h
  counts_refl _ := rfl
  count h _ k := congrArg₂ (fun x (a : UInt32) => x + a.toNat) k h
  stored_refl _ := rfl
  store h k := congrArg₂ Timing.mk h k

/-- Costs need not compare at all. -/
def any : Comparison where
  costs _ _ _ _ := True
  counts _ _ := True
  stored _ _ := True
  low := 0
  limit := 0
  constant _ := trivial
  add _ _ := trivial
  weaken _ _ _ := trivial
  counts_refl _ := trivial
  count _ _ _ := trivial
  stored_refl _ := trivial
  store _ _ := trivial

theorem ofNat_le_ofNat {j k : Nat} (hjk : j ≤ k) (hk : k < 2 ^ 32) :
    UInt32.ofNat j ≤ UInt32.ofNat k := by
  rw [UInt32.le_iff_toNat_le, UInt32.toNat_ofNat_of_lt' (hjk.trans_lt hk),
    UInt32.toNat_ofNat_of_lt' hk]
  exact hjk

/-- The cycles behind the first cost are at most those behind the second. -/
def le (limit : Nat) (h : 35 * limit + 6 < 2 ^ 32) : Comparison where
  costs _ high a b := ∃ j k, j ≤ k ∧ k ≤ high ∧ a = UInt32.ofNat j ∧ b = UInt32.ofNat k
  counts := (· ≤ ·)
  stored _ _ := True
  low := 0
  limit := limit
  constant cost := ⟨_, _, le_rfl, le_rfl, UInt32.ofNat_toNat.symm, UInt32.ofNat_toNat.symm⟩
  add := by
    rintro _ _ _ _ _ _ _ _ ⟨j, k, hjk, hk, rfl, rfl⟩ ⟨j', k', hjk', hk', rfl, rfl⟩
    exact ⟨j + j', k + k', Nat.add_le_add hjk hjk', Nat.add_le_add hk hk',
      (UInt32.ofNat_add ..).symm, (UInt32.ofNat_add ..).symm⟩
  weaken := fun ⟨j, k, hjk, hk, ha, hb⟩ _ hmn => ⟨j, k, hjk, hk.trans hmn, ha, hb⟩
  counts_refl := Nat.le_refl
  count := by
    rintro _ _ _ _ x y ⟨j, k, hjk, hk, rfl, rfl⟩ hm hxy
    have hle := UInt32.le_iff_toNat_le.mp (ofNat_le_ofNat hjk (by omega))
    omega
  stored_refl _ := trivial
  store _ _ := trivial

/-- Where the cycles behind them fit into 32 bits, so compare the costs themselves. -/
theorem le_of_costs {limit low high : Nat} {h : 35 * limit + 6 < 2 ^ 32} {a b : UInt32}
    (hc : (le limit h).costs low high a b) (hhigh : high ≤ 35 * limit + 6) : a ≤ b := by
  obtain ⟨j, k, hjk, hk, rfl, rfl⟩ := hc
  exact ofNat_le_ofNat hjk (by omega)

/-- Costs are the same, and the cycles behind them lie between the bounds. -/
def within (low limit : Nat) : Comparison where
  costs low high a b := b = a ∧ ∃ k, low ≤ k ∧ k ≤ high ∧ a = UInt32.ofNat k
  counts := Eq
  stored := Eq
  low := low
  limit := limit
  constant cost := ⟨rfl, _, le_rfl, le_rfl, UInt32.ofNat_toNat.symm⟩
  add := by
    rintro _ _ _ _ _ _ _ _ ⟨rfl, k, hl, hk, rfl⟩ ⟨rfl, k', hl', hk', rfl⟩
    exact ⟨rfl, k + k', Nat.add_le_add hl hl', Nat.add_le_add hk hk', (UInt32.ofNat_add ..).symm⟩
  weaken := fun ⟨hab, k, hl, hk, ha⟩ hkl hmn => ⟨hab, k, hkl.trans hl, hk.trans hmn, ha⟩
  counts_refl _ := rfl
  count := by
    rintro _ _ _ _ x y ⟨rfl, -⟩ - rfl
    rfl
  stored_refl _ := rfl
  store h k := congrArg₂ Timing.mk h.1.symm k.1.symm

end Comparison

/-- Timings that compare either way an access is made. -/
structure Timing.Compares (C : Comparison) (a b : Timing) : Prop where
  nonseq : C.costs C.low C.limit a.nonseq b.nonseq
  seq : C.costs C.low C.limit a.seq b.seq

theorem Timing.Compares.refl (timing : Timing) : timing.Compares .eq timing := ⟨rfl, rfl⟩

theorem Timing.Compares.eq {a b : Timing} (h : a.Compares .eq b) : b = a :=
  (congrArg₂ Timing.mk h.nonseq h.seq).symm

/-! ## Alike -/

section

variable {C : Comparison} {β γ : Type} {R : β → γ → Prop}

/-- Reads that answer alike and leave related buses. -/
structure ReadAlike (C : Comparison) (R : β → γ → Prop) (a : Read × β)
    (b : Read × γ) : Prop where
  data : b.1.data = a.1.data
  timing : a.1.timing.Compares C b.1.timing
  bus : R a.2 b.2

/-- Timings that compare as equal leave no difference. -/
theorem ReadAlike.answer_eq {a : Read × β} {b : Read × γ} (h : ReadAlike .eq R a b) : b.1 = a.1 :=
  congrArg₂ Read.mk h.data h.timing.eq

/-- Writes that leave related buses. -/
structure WriteAlike (C : Comparison) (R : β → γ → Prop) (a : Timing × β)
    (b : Timing × γ) : Prop where
  timing : a.1.Compares C b.1
  bus : R a.2 b.2

/-- Related buses answer every access alike and stay related. -/
structure BusSim [Bus β] [Bus γ] (C : Comparison) (R : β → γ → Prop) : Prop where
  read : ∀ {bus : β} {bus' : γ}, R bus bus' → ∀ address width,
    ReadAlike C R (Bus.read bus address width) (Bus.read bus' address width)
  write : ∀ {bus : β} {bus' : γ}, R bus bus' → ∀ address value width,
    WriteAlike C R (Bus.write bus address value width) (Bus.write bus' address value width)
  fetch : ∀ {bus : β} {bus' : γ}, R bus bus' → ∀ address width,
    ReadAlike C R (Bus.fetch bus address width) (Bus.fetch bus' address width)
  latch : ∀ {bus : β} {bus' : γ}, R bus bus' → ∀ word, R (Bus.latch bus word) (Bus.latch bus' word)

/-- Processors in the same state but for their costs, which compare. -/
inductive Processor.Alike (C : Comparison) : Processor → Processor → Prop
  | mk (registers : RegisterFile) (status : Status) (pipeline : Pipeline) (locked : Bool)
      {timing timing' : Timing} {cycles cycles' : Nat} (stored : C.stored timing timing')
      (counts : C.counts cycles cycles') :
      Alike C ⟨registers, status, pipeline, timing, locked, cycles⟩
        ⟨registers, status, pipeline, timing', locked, cycles'⟩

/-- Outcomes with alike processors on related buses, at costs of at least and of at most so many
cycles. -/
structure Outcome.Alike (C : Comparison) (low high : Nat) (R : β → γ → Prop) (a : Outcome β)
    (b : Outcome γ) : Prop where
  processor : a.processor.Alike C b.processor
  bus : R a.bus b.bus
  cycles : C.costs low high a.cycles b.cycles

/-- Outcomes at equal costs, with related processors on related buses. -/
structure Outcome.Related (P : Processor → Processor → Prop) (R : β → γ → Prop) (a : Outcome β)
    (b : Outcome γ) : Prop where
  processor : P a.processor b.processor
  bus : R a.bus b.bus
  cycles : b.cycles = a.cycles

section

variable {a : Outcome β} {b : Outcome γ} {low high : Nat}

theorem Outcome.Alike.weaken (h : a.Alike C low high R b) {l n : Nat} (hl : l ≤ low)
    (hn : high ≤ n) : a.Alike C l n R b :=
  ⟨h.processor, h.bus, C.weaken h.cycles hl hn⟩

theorem Outcome.Alike.costing (h : a.Alike C low high R b) {l n : Nat} {cycles cycles' : UInt32}
    (hc : C.costs l n cycles cycles') :
    (a.costing cycles).Alike C (l + low) (n + high) R (b.costing cycles') :=
  ⟨h.processor, h.bus, C.add hc h.cycles⟩

theorem Outcome.Alike.counted (h : a.Alike C low high R b) (hl : high ≤ C.longest) :
    a.counted.Alike C low high R b.counted := by
  rcases a with ⟨p, bus, cycles⟩
  rcases b with ⟨q, bus', cycles'⟩
  rcases h with ⟨hp, hb, hc⟩
  cases hp with
  | mk registers status pipeline locked ht hk =>
    exact ⟨.mk registers status pipeline locked ht (C.count hc hl hk), hb, hc⟩

end

/-! ## Properties of one bus -/

/-- Every bus answers as it does itself. -/
theorem BusSim.refl [Bus β] : BusSim .eq (Eq : β → β → Prop) where
  read := by
    rintro bus _ rfl address width
    exact ⟨rfl, .refl _, rfl⟩
  write := by
    rintro bus _ rfl address value width
    exact ⟨.refl _, rfl⟩
  fetch := by
    rintro bus _ rfl address width
    exact ⟨rfl, .refl _, rfl⟩
  latch := by
    rintro bus _ rfl word
    rfl

/-- A property of a bus that every access keeps. -/
structure BusKeeps [Bus β] (J : β → Prop) : Prop where
  read : ∀ {bus : β}, J bus → ∀ address width, J (Bus.read bus address width).2
  write : ∀ {bus : β}, J bus → ∀ address value width, J (Bus.write bus address value width).2
  fetch : ∀ {bus : β}, J bus → ∀ address width, J (Bus.fetch bus address width).2
  latch : ∀ {bus : β}, J bus → ∀ word, J (Bus.latch bus word)

theorem BusSim.keeping [Bus β] [Bus γ] {J : β → Prop} (S : BusSim C R) (K : BusKeeps J) :
    BusSim C fun (bus : β) (bus' : γ) => R bus bus' ∧ J bus where
  read h address width :=
    ⟨(S.read h.1 address width).data, (S.read h.1 address width).timing,
      (S.read h.1 address width).bus, K.read h.2 address width⟩
  write h address value width :=
    ⟨(S.write h.1 address value width).timing, (S.write h.1 address value width).bus,
      K.write h.2 address value width⟩
  fetch h address width :=
    ⟨(S.fetch h.1 address width).data, (S.fetch h.1 address width).timing,
      (S.fetch h.1 address width).bus, K.fetch h.2 address width⟩
  latch h word := ⟨S.latch h.1 word, K.latch h.2 word⟩

end

namespace Processor

variable {C : Comparison} {p q : Processor}

/-! ## Alike processors -/

theorem Alike.refl (p : Processor) : p.Alike C p :=
  .mk p.registers p.status p.pipeline p.locked (C.stored_refl _) (C.counts_refl _)

/-- Costs that compare as equal leave no difference. -/
theorem Alike.eq (h : p.Alike .eq q) : q = p := by
  cases h with
  | mk registers status pipeline locked ht hc =>
    obtain rfl := ht
    obtain rfl := hc
    rfl

theorem Alike.registers (h : p.Alike C q) : q.registers = p.registers := by cases h; rfl

theorem Alike.status (h : p.Alike C q) : q.status = p.status := by cases h; rfl

theorem Alike.pipeline (h : p.Alike C q) : q.pipeline = p.pipeline := by cases h; rfl

theorem Alike.locked (h : p.Alike C q) : q.locked = p.locked := by cases h; rfl

theorem Alike.cycles (h : p.Alike C q) : C.counts p.cycles q.cycles := by cases h; assumption

theorem Alike.get (h : p.Alike C q) (number : Register) : q.get number = p.get number := by
  cases h; rfl

theorem Alike.getAhead (h : p.Alike C q) (number : Register) (distance : Word) :
    q.getAhead number distance = p.getAhead number distance := by cases h; rfl

theorem Alike.width (h : p.Alike C q) : q.width = p.width := by cases h; rfl

theorem Alike.pc (h : p.Alike C q) : q.pc = p.pc := by cases h; rfl

theorem Alike.nextPc (h : p.Alike C q) : q.nextPc = p.nextPc := by cases h; rfl

theorem Alike.current (h : p.Alike C q) : q.current = p.current := by cases h; rfl

theorem Alike.evaluate (h : p.Alike C q) (operand : Operand) :
    operand.evaluate q = operand.evaluate p := by cases h; rfl

theorem Alike.set (h : p.Alike C q) (number : Register) (value : Word) :
    (p.set number value).Alike C (q.set number value) := by
  cases h with
  | mk registers status pipeline locked ht hc => exact .mk _ status pipeline locked ht hc

theorem Alike.setUser (h : p.Alike C q) (number : Register) (value : Word) :
    (p.setUser number value).Alike C (q.setUser number value) := by
  cases h with
  | mk registers status pipeline locked ht hc => exact .mk _ status pipeline locked ht hc

theorem Alike.setSavedStatus (h : p.Alike C q) (value : Word) :
    (p.setSavedStatus value).Alike C (q.setSavedStatus value) := by
  cases h with
  | mk registers status pipeline locked ht hc => exact .mk _ status pipeline locked ht hc

theorem Alike.withStatus (h : p.Alike C q) (change : Status → Status) :
    { p with status := change p.status }.Alike C { q with status := change q.status } := by
  cases h with
  | mk registers status pipeline locked ht hc => exact .mk registers _ pipeline locked ht hc

theorem Alike.switchMode (h : p.Alike C q) (mode : Mode) :
    (p.switchMode mode).Alike C (q.switchMode mode) := by
  cases h with
  | mk registers status pipeline locked ht hc => exact .mk _ _ pipeline locked ht hc

theorem Alike.writeStatus (h : p.Alike C q) (bits : Word) :
    (p.writeStatus bits).Alike C (q.writeStatus bits) := by
  cases h with
  | mk registers status pipeline locked ht hc =>
    unfold Processor.writeStatus
    cases Mode.ofBits? bits with
    | none => exact .mk registers _ pipeline locked ht hc
    | some mode => exact .mk _ _ pipeline locked ht hc

theorem Alike.restoreStatus (h : p.Alike C q) : p.restoreStatus.Alike C q.restoreStatus := by
  unfold Processor.restoreStatus
  rw [h.registers]
  split_ifs
  · exact h.writeStatus _
  · exact h

variable {β γ : Type} [Bus β] [Bus γ] {R : β → γ → Prop} {bus : β} {bus' : γ}

/-! ## The pipeline -/

/-- The cost of the fetch, which an instruction pays, compares from then on. -/
theorem advance_alike (S : BusSim C R) (hp : p.Alike C q) (hb : R bus bus') :
    (p.advance bus).1.Alike C (q.advance bus').1 ∧
      (p.advance bus).1.fetchTiming.Compares C (q.advance bus').1.fetchTiming ∧
      R (p.advance bus).2 (q.advance bus').2 := by
  have hf := S.fetch hb (p.pc + p.width.bytes) p.width
  unfold advance
  simp only [hp.width, hp.pc, hf.data]
  cases hp with
  | mk registers status pipeline locked _ hc =>
    exact ⟨.mk _ status _ false (C.store hf.timing.nonseq hf.timing.seq) hc, hf.timing,
      S.latch hf.bus _⟩

theorem refill_alike (S : BusSim C R) (hp : p.Alike C q) (hb : R bus bus') (address : Word) :
    (p.refill bus address).Alike C C.low (C.limit + C.limit) R (q.refill bus' address) := by
  have hf := S.fetch hb (p.width.align address) p.width
  have hs := S.fetch hf.bus (p.width.align address + p.width.bytes) p.width
  have hcost := C.weaken (C.add hf.timing.nonseq hs.timing.seq) (Nat.le_add_right ..) le_rfl
  unfold refill
  simp only [hp.width, hf.data, hs.data]
  cases hp with
  | mk registers status pipeline locked ht hc =>
    exact ⟨.mk _ status _ locked ht hc, S.latch hs.bus _, hcost⟩

theorem completePcWrite_alike (S : BusSim C R) (hp : p.Alike C q) (hb : R bus bus')
    (restore : Bool) :
    (p.completePcWrite bus restore).Alike C C.low (C.limit + C.limit) R
      (q.completePcWrite bus' restore) := by
  have hr : (if restore then p.restoreStatus else p).Alike C
      (if restore then q.restoreStatus else q) := by
    split_ifs
    · exact hp.restoreStatus
    · exact hp
  unfold completePcWrite
  simp only [hr.pc]
  exact refill_alike S hr hb _

theorem branchLink_alike (S : BusSim C R) (hp : p.Alike C q) (hb : R bus bus')
    (address link : Word) :
    (p.branchLink bus address link).Alike C C.low (C.limit + C.limit) R
      (q.branchLink bus' address link) :=
  refill_alike S (hp.set Register.lr link) hb address

theorem branchExchange_alike (S : BusSim C R) (hp : p.Alike C q) (hb : R bus bus')
    (address : Word) :
    (p.branchExchange bus address).Alike C C.low (C.limit + C.limit) R
      (q.branchExchange bus' address) :=
  refill_alike S (hp.withStatus fun status => status.setThumb (bit address 0)) hb address

theorem enterException_alike (S : BusSim C R) (hp : p.Alike C q) (hb : R bus bus')
    (exception : Exception) :
    (p.enterException bus exception).Alike C C.low (4 + (C.limit + C.limit)) R
      (q.enterException bus' exception) := by
  have hs := ((hp.switchMode exception.entry.mode).withStatus fun status =>
    (status.setThumb false).setBit exception.entry.mask true).setSavedStatus p.status.bits
  have hextra : exception.entry.extraCycles.toNat ≤ 4 := by cases exception <;> decide
  unfold enterException
  simp only [hp.status, hp.nextPc]
  exact ((branchLink_alike S hs hb _ _).costing (C.constant _)).weaken (Nat.le_add_left ..)
    (Nat.add_le_add_right hextra _)

/-! ## Transfers -/

theorem loadValue_alike (S : BusSim C R) (hb : R bus bus') (address : Word) (width : Width)
    (realign signed : Bool) :
    ReadAlike C R (loadValue bus address width realign signed)
      (loadValue bus' address width realign signed) := by
  have hr := S.read hb (width.align address) width
  exact ⟨congrArg (extend address width realign signed) hr.data, hr.timing, hr.bus⟩

theorem storeValue_alike (S : BusSim C R) (hb : R bus bus') (address value : Word)
    (width : Width) :
    WriteAlike C R (storeValue bus address value width) (storeValue bus' address value width) :=
  S.write hb ..

theorem transfer_alike (S : BusSim C R) (hp : p.Alike C q)
    (ht : p.fetchTiming.Compares C q.fetchTiming) (hb : R bus bus') (address : Word)
    (moved : Transfer) :
    (p.transfer bus address moved).Alike C C.low (4 * C.limit + 1) R
      (q.transfer bus' address moved) := by
  have hl := loadValue_alike S hb address moved.width moved.realign moved.signed
  have hw := storeValue_alike S hb address (p.getAhead moved.register p.width.bytes) moved.width
  have hs := hp.set moved.register
    (loadValue bus address moved.width moved.realign moved.signed).1.data
  have hcost := C.add (C.add ht.seq hl.timing.nonseq) (C.constant Cost.loadInternal)
  have hone : Cost.loadInternal.toNat = 1 := rfl
  unfold transfer
  simp only [hp.width, hp.getAhead, hl.data]
  split_ifs
  · exact ((completePcWrite_alike S hs hl.bus false).costing hcost).weaken (by omega) (by omega)
  · exact ⟨hs, hl.bus, C.weaken hcost (by omega) (by omega)⟩
  · exact ⟨hp, hw.bus, C.weaken (C.add ht.nonseq hw.timing.nonseq) (by omega) (by omega)⟩

theorem indexedTransfer_alike (S : BusSim C R) (hp : p.Alike C q)
    (ht : p.fetchTiming.Compares C q.fetchTiming) (hb : R bus bus') (moved : Transfer)
    (indexing : Indexing) (offset : Word) :
    (p.indexedTransfer bus moved indexing offset).Alike C C.low (4 * C.limit + 1) R
      (q.indexedTransfer bus' moved indexing offset) := by
  unfold indexedTransfer
  simp only [hp.get]
  generalize (if indexing.up then p.get indexing.base + offset
    else p.get indexing.base - offset) = shifted
  generalize (if indexing.pre then shifted else p.get indexing.base) = address
  have ho := transfer_alike S hp ht hb address moved
  split_ifs
  · exact ⟨ho.processor.set indexing.base shifted, ho.bus, ho.cycles⟩
  · exact ho

theorem blockWord_compares {timing timing' : Timing} (h : timing.Compares C timing')
    (first : Bool) :
    C.costs (C.low + C.low) (C.limit + C.limit) (Cost.blockWord timing first)
      (Cost.blockWord timing' first) := by
  cases first
  · exact C.add h.seq h.seq
  · exact C.add h.nonseq h.seq

theorem loadListed_alike (S : BusSim C R) (hp : p.Alike C q) (hb : R bus bus') (address : Word)
    (number : Register) (user : Bool) :
    (p.loadListed bus address number user).1.Compares C
        (q.loadListed bus' address number user).1 ∧
      (p.loadListed bus address number user).2.1.Alike C
        (q.loadListed bus' address number user).2.1 ∧
      R (p.loadListed bus address number user).2.2
        (q.loadListed bus' address number user).2.2 := by
  have hl := loadValue_alike S hb address .word false false
  unfold loadListed
  simp only [hl.data]
  refine ⟨hl.timing, ?_, hl.bus⟩
  split_ifs
  · exact hp.setUser number _
  · exact hp.set number _

theorem storeListed_alike (S : BusSim C R) (hp : p.Alike C q) (hb : R bus bus') (address : Word)
    (number : Register) (user : Bool) :
    (p.storeListed bus address number user).1.Compares C
        (q.storeListed bus' address number user).1 ∧
      (p.storeListed bus address number user).2.1.Alike C
        (q.storeListed bus' address number user).2.1 ∧
      R (p.storeListed bus address number user).2.2
        (q.storeListed bus' address number user).2.2 := by
  unfold storeListed
  simp only [hp.width, hp.getAhead, hp.registers, hp.get]
  have hw := storeValue_alike S hb address
    (if number = Register.pc then p.getAhead Register.pc p.width.bytes
      else if user then p.registers.getUser number.val else p.get number) .word
  exact ⟨hw.timing, hp, hw.bus⟩

/-- Each register of a list adds at most two accesses. -/
theorem transferListed_alike (S : BusSim C R) (load user : Bool) (list : List Register) :
    ∀ (pending : Option (Register × Word)) (first : Bool) (address : Word) {low high : Nat}
      {a : Outcome β} {b : Outcome γ}, a.Alike C low high R b →
        (transferListed load user pending first list address a).Alike C low
          (high + list.length * (C.limit + C.limit)) R
          (transferListed load user pending first list address b) := by
  induction list with
  | nil => exact fun _ _ _ _ _ _ _ h => h.weaken le_rfl (Nat.le_add_right ..)
  | cons number rest ih =>
    intro pending first address low high a b h
    rcases a with ⟨p, bus, cycles⟩
    rcases b with ⟨q, bus', cycles'⟩
    obtain ⟨hp, hb, hc⟩ := h
    have hone : let one := if load then p.loadListed bus address number user
          else p.storeListed bus address number user
        let other := if load then q.loadListed bus' address number user
          else q.storeListed bus' address number user
        one.1.Compares C other.1 ∧ one.2.1.Alike C other.2.1 ∧ R one.2.2 other.2.2 := by
      cases load
      · exact storeListed_alike S hp hb address number user
      · exact loadListed_alike S hp hb address number user
    obtain ⟨ht, hp, hb⟩ := hone
    have hlength : (rest.length + 1) * (C.limit + C.limit) =
        rest.length * (C.limit + C.limit) + (C.limit + C.limit) := Nat.succ_mul ..
    unfold transferListed
    refine (ih none false (address + 4) ⟨?_, hb, C.add hc (blockWord_compares ht first)⟩).weaken
      (Nat.le_add_right ..) ?_
    · cases pending with
      | none => exact hp
      | some move => exact hp.set move.1 move.2
    · rw [List.length_cons, hlength]
      omega

theorem registersOf_length_le (list : UInt16) : (registersOf list).length ≤ 16 := by
  have h := List.length_filter_le (fun number => bit list.toUInt32 (UInt32.ofNat number.val))
    (List.finRange 16)
  rw [List.length_finRange] at h
  exact h

theorem blockTransfer_alike (S : BusSim C R) (hp : p.Alike C q)
    (ht : p.fetchTiming.Compares C q.fetchTiming) (hb : R bus bus') (load : Bool)
    (list : UInt16) (indexing : Indexing) (userBank : Bool) :
    (p.blockTransfer bus load list indexing userBank).Alike C C.low (35 * C.limit + 1) R
      (q.blockTransfer bus' load list indexing userBank) := by
  have hstart : C.costs C.low (C.limit + 1) (Cost.blockStart p.fetchTiming load)
      (Cost.blockStart q.fetchTiming load) := by
    cases load
    · exact C.weaken ht.nonseq le_rfl (Nat.le_add_right ..)
    · exact C.weaken (C.add ht.seq (C.constant Cost.loadInternal)) (Nat.le_add_right ..) le_rfl
  unfold blockTransfer
  simp -zeta only [hp.get]
  extract_lets registers distance base moved lowest start loadsPc writesBack here there
  have hlength : registers.length ≤ 16 := by
    by_cases h0 : list = 0
    · simp [registers, h0]
    · simp only [registers, h0, if_false]
      exact registersOf_length_le list
  have hwords : registers.length * (C.limit + C.limit) ≤ 16 * (C.limit + C.limit) :=
    Nat.mul_le_mul_right _ hlength
  have ho : here.Alike C C.low (33 * C.limit + 1) R there :=
    (transferListed_alike S _ _ registers _ true start ⟨hp, hb, hstart⟩).weaken le_rfl (by omega)
  split_ifs
  · exact ((completePcWrite_alike S ho.processor ho.bus userBank).costing ho.cycles).weaken
      (Nat.le_add_right ..) (by omega)
  · exact ho.weaken le_rfl (by omega)

/-! ## Instructions -/

theorem process_alike (S : BusSim C R) (hp : p.Alike C q)
    (ht : p.fetchTiming.Compares C q.fetchTiming) (hb : R bus bus') (operation : Operation)
    (setFlags : Bool) (destination first : Register) (second : Operand) :
    (p.process bus operation setFlags destination first second).Alike C C.low (3 * C.limit + 1) R
      (q.process bus' operation setFlags destination first second) := by
  have hinternal : second.cycles.toNat ≤ 1 := by
    cases second with
    | shiftedBy => exact Nat.le_refl 1
    | _ => exact Nat.zero_le 1
  have hcost : C.costs C.low (C.limit + 1) (p.fetchTiming.seq + second.cycles)
      (q.fetchTiming.seq + second.cycles) :=
    C.weaken (C.add ht.seq (C.constant _)) (Nat.le_add_right ..) (Nat.add_le_add_left hinternal _)
  unfold process
  simp only [hp.evaluate, hp.width, hp.getAhead, hp.status]
  generalize operation.compute (p.getAhead first (second.distance p.width))
    (second.evaluate p).value (second.evaluate p).carry p.status.flags = result
  have hf : (if setFlags then p.setFlags result.flags else p).Alike C
      (if setFlags then q.setFlags result.flags else q) := by
    split_ifs
    · exact hp.withStatus fun status => status.setFlags result.flags
    · exact hp
  have hs := hf.set destination result.value
  have hquiet : C.costs C.low (3 * C.limit + 1) (p.fetchTiming.seq + second.cycles)
      (q.fetchTiming.seq + second.cycles) := C.weaken hcost le_rfl (by omega)
  by_cases hw : operation.writesResult
  · by_cases hd : destination = Register.pc
    · simp only [hw, hd, if_true] at hs ⊢
      exact ((completePcWrite_alike S hs hb setFlags).costing hcost).weaken
        (Nat.le_add_right ..) (by omega)
    · simp only [hw, hd, if_true, if_false]
      exact ⟨hs, hb, hquiet⟩
  · simp only [hw]
    exact ⟨hf, hb, hquiet⟩

theorem swap_alike (S : BusSim C R) (hp : p.Alike C q)
    (ht : p.fetchTiming.Compares C q.fetchTiming) (hb : R bus bus') (width : Width)
    (destination base source : Register) :
    (p.swap bus width destination base source).Alike C C.low (3 * C.limit + 1) R
      (q.swap bus' width destination base source) := by
  have hl := loadValue_alike S hb (p.get base) width true false
  have hw := storeValue_alike S hl.bus (p.get base) (p.get source) width
  have hcost := C.add (C.add (C.add ht.seq hl.timing.nonseq) hw.timing.nonseq)
    (C.constant Cost.loadInternal)
  have hone : Cost.loadInternal.toNat = 1 := rfl
  unfold swap
  simp only [hp.get, hl.data]
  exact ⟨hp.set destination _, hw.bus, C.weaken hcost (by omega) (by omega)⟩

theorem writeStatusWord_alike (hp : p.Alike C q) (saved : Bool) (mask value : Word) :
    (p.writeStatusWord saved mask value).Alike C (q.writeStatusWord saved mask value) := by
  have hmode : q.mode = p.mode := by
    unfold mode
    rw [hp.status]
  unfold writeStatusWord
  simp only [hp.registers, hp.status, hmode]
  split_ifs
  · exact hp.setSavedStatus _
  · exact hp.writeStatus _
  · exact hp.writeStatus _

theorem multiplyRegisters_alike (hp : p.Alike C q) (setFlags : Bool)
    (destination left right : Register) (accumulator : Option Register) :
    (p.multiplyRegisters setFlags destination left right accumulator).Alike C
      (q.multiplyRegisters setFlags destination left right accumulator) := by
  unfold multiplyRegisters
  simp only [hp.get, hp.status]
  generalize multiply (p.get left) (p.get right) _ p.status.flags = result
  have hs := hp.set destination result.value
  split_ifs
  · exact hs.withStatus fun status => status.setNZ result.flags
  · exact hs

theorem multiplyLongRegisters_alike (hp : p.Alike C q) (signed accumulate setFlags : Bool)
    (low high left right : Register) :
    (p.multiplyLongRegisters signed accumulate setFlags low high left right).Alike C
      (q.multiplyLongRegisters signed accumulate setFlags low high left right) := by
  unfold multiplyLongRegisters
  simp only [hp.get, hp.status]
  generalize multiplyLong (p.get left) (p.get right) _ signed p.status.flags = result
  have hs := (hp.set low result.1.toUInt32).set high (result.1 >>> 32).toUInt32
  split_ifs
  · exact hs.withStatus fun status => status.setNZ result.2
  · exact hs

theorem readCoprocessor_alike (hp : p.Alike C q) (destination : Register) :
    (p.readCoprocessor destination).Alike C (q.readCoprocessor destination) := by
  have hd : q.prefetched = p.prefetched := by cases hp; rfl
  unfold readCoprocessor
  simp only [hd]
  split_ifs
  · exact hp.withStatus fun status =>
      ⟨status.bits &&& ~~~Status.flagsMask ||| (p.prefetched &&& Status.flagsMask)⟩
  · exact hp.set destination p.prefetched

theorem multiplication_compares {a b : UInt32} (hseq : C.costs C.low C.limit a b)
    (operand : Word) (signed accumulate : Bool) :
    C.costs C.low (C.limit + 5)
      (a + Cost.multiplierCycles operand signed + accumulate.toUInt32)
      (b + Cost.multiplierCycles operand signed + accumulate.toUInt32) := by
  have hcycles := Cost.multiplierCycles_le operand signed
  have hone : accumulate.toUInt32.toNat ≤ 1 := by cases accumulate <;> decide
  exact C.weaken (C.add (C.add hseq (C.constant _)) (C.constant _)) (by omega) (by omega)

theorem execute_alike (S : BusSim C R) (hp : p.Alike C q)
    (ht : p.fetchTiming.Compares C q.fetchTiming) (hb : R bus bus') (i : Instruction) :
    (p.execute bus i).Alike C C.low C.longest R (q.execute bus' i) := by
  have hlongest : C.longest = 35 * C.limit + 6 := rfl
  have hseq : C.costs C.low C.longest p.fetchTiming.seq q.fetchTiming.seq :=
    C.weaken ht.seq le_rfl (by omega)
  have hbranch {a : Outcome β} {b : Outcome γ} (h : a.Alike C C.low (C.limit + C.limit) R b) :
      (a.costing p.fetchTiming.seq).Alike C C.low C.longest R (b.costing q.fetchTiming.seq) :=
    (h.costing ht.seq).weaken (Nat.le_add_right ..) (by omega)
  have htrap (exception : Exception) :
      ((p.enterException bus exception).costing p.fetchTiming.seq).Alike C C.low C.longest R
        ((q.enterException bus' exception).costing q.fetchTiming.seq) :=
    ((enterException_alike S hp hb exception).costing ht.seq).weaken (Nat.le_add_right ..)
      (by omega)
  cases i with
  | process operation setFlags destination first second =>
    exact (process_alike S hp ht hb operation setFlags destination first second).weaken le_rfl
      (by omega)
  | swap width destination base source =>
    exact (swap_alike S hp ht hb width destination base source).weaken le_rfl (by omega)
  | transfer moved indexing offset =>
    unfold execute
    simp only [hp.evaluate]
    exact (indexedTransfer_alike S hp ht hb moved indexing _).weaken le_rfl (by omega)
  | loadLiteral destination offset =>
    unfold execute literalBase
    simp only [hp.pc]
    exact (transfer_alike S hp ht hb _ _).weaken le_rfl (by omega)
  | blockTransfer load list indexing userBank =>
    exact (blockTransfer_alike S hp ht hb load list indexing userBank).weaken le_rfl (by omega)
  | branch offset link =>
    unfold execute
    simp only [hp.pc, hp.nextPc]
    split_ifs
    · exact hbranch (branchLink_alike S hp hb _ _)
    · exact hbranch (refill_alike S hp hb _)
  | branchExchange target =>
    unfold execute
    simp only [hp.get]
    exact hbranch (branchExchange_alike S hp hb _)
  | longBranchEnd offset =>
    unfold execute
    simp only [hp.get, hp.nextPc]
    exact hbranch (branchLink_alike S hp hb _ _)
  | softwareInterrupt => exact htrap .softwareInterrupt
  | undefined => exact htrap .undefined
  | readStatus saved destination =>
    unfold execute readStatusWord
    simp only [hp.registers, hp.status]
    exact ⟨hp.set destination _, hb, hseq⟩
  | writeStatus saved mask source =>
    unfold execute
    simp only [hp.evaluate]
    exact ⟨writeStatusWord_alike hp saved mask _, hb, hseq⟩
  | multiply setFlags destination left right accumulator =>
    unfold execute
    simp only [hp.get]
    exact ⟨multiplyRegisters_alike hp setFlags destination left right accumulator, hb,
      C.weaken (multiplication_compares ht.seq _ _ _) le_rfl (by omega)⟩
  | multiplyLong signed accumulate setFlags low high left right =>
    unfold execute
    simp only [hp.get]
    exact ⟨multiplyLongRegisters_alike hp signed accumulate setFlags low high left right, hb,
      C.weaken (C.add (multiplication_compares ht.seq _ _ _) (C.constant 1))
        (Nat.le_add_right ..) (by show C.limit + 5 + 1 ≤ _; omega)⟩
  | loadAddress destination offset =>
    unfold execute literalBase
    simp only [hp.pc]
    exact ⟨hp.set destination _, hb, hseq⟩
  | longBranchStart offset =>
    unfold execute
    simp only [hp.pc]
    cases hp with
    | mk registers status pipeline locked hstored hc =>
      exact ⟨.mk _ status pipeline true hstored hc, hb, hseq⟩
  | writeCoprocessor =>
    exact ⟨hp, hb, C.weaken (C.add ht.seq (C.constant Cost.coprocessorWrite))
      (Nat.le_add_right ..) (by show C.limit + 2 ≤ _; omega)⟩
  | readCoprocessor destination =>
    exact ⟨readCoprocessor_alike hp destination, hb,
      C.weaken (C.add ht.seq (C.constant Cost.coprocessorRead)) (Nat.le_add_right ..)
        (by show C.limit + 3 ≤ _; omega)⟩

/-! ## Entry points -/

/-- A step goes the same way on alike buses. -/
theorem step_alike (S : BusSim C R) (hp : p.Alike C q) (hb : R bus bus') :
    (p.step bus).Alike C C.low C.longest R (q.step bus') := by
  obtain ⟨hp, ht, hb⟩ := advance_alike S hp hb
  have hcurrent : ((p.advance bus).1.executeCurrent (p.advance bus).2).Alike C C.low C.longest R
      ((q.advance bus').1.executeCurrent (q.advance bus').2) := by
    simp only [executeCurrent_eq, hp.current, hp.status]
    split_ifs
    · exact execute_alike S hp ht hb _
    · exact ⟨hp, hb, C.weaken ht.seq le_rfl (by show C.limit ≤ 35 * C.limit + 6; omega)⟩
  exact hcurrent.counted le_rfl

theorem jump_alike (S : BusSim C R) (hp : p.Alike C q) (hb : R bus bus') (address : Word) :
    (p.jump bus address).Alike C C.low (C.limit + C.limit) R (q.jump bus' address) :=
  branchExchange_alike S hp hb address

/-- An exception costs no more than a step. -/
theorem enterException_counted_alike (S : BusSim C R) (hp : p.Alike C q) (hb : R bus bus')
    (exception : Exception) :
    (p.enterException bus exception).counted.Alike C C.low (4 + (C.limit + C.limit)) R
      (q.enterException bus' exception).counted :=
  (enterException_alike S hp hb exception).counted
    (by show 4 + (C.limit + C.limit) ≤ 35 * C.limit + 6; omega)

theorem reset_alike (S : BusSim C R) (hp : p.Alike C q) (hb : R bus bus') :
    (p.reset bus).Alike C C.low (4 + (C.limit + C.limit)) R (q.reset bus') := by
  cases hp with
  | mk registers status pipeline locked ht hc =>
    exact enterException_counted_alike S (.mk _ _ _ false ht hc) hb .reset

theorem bootDirect_alike (S : BusSim C R) (hp : p.Alike C q) (hb : R bus bus') :
    (p.bootDirect bus).Alike C C.low (C.limit + C.limit) R (q.bootDirect bus') := by
  cases hp with
  | mk registers status pipeline locked ht hc =>
    exact (refill_alike S (.mk _ _ _ false ht hc) hb cartridgeEntry).counted
      (by show C.limit + C.limit ≤ 35 * C.limit + 6; omega)

/-- A refused interrupt costs nothing. -/
theorem requestInterrupt_alike (S : BusSim C R) (hp : p.Alike C q) (hb : R bus bus') :
    (p.requestInterrupt bus).Alike C 0 (4 + (C.limit + C.limit)) R (q.requestInterrupt bus') := by
  unfold requestInterrupt
  simp only [hp.status, hp.locked]
  split_ifs
  · exact ⟨hp, hb, C.weaken (C.constant 0) le_rfl (Nat.zero_le _)⟩
  · exact (enterException_counted_alike S hp hb .interrupt).weaken (Nat.zero_le _) le_rfl

theorem requestFastInterrupt_alike (S : BusSim C R) (hp : p.Alike C q) (hb : R bus bus') :
    (p.requestFastInterrupt bus).Alike C 0 (4 + (C.limit + C.limit)) R
      (q.requestFastInterrupt bus') := by
  unfold requestFastInterrupt
  simp only [hp.status, hp.locked]
  split_ifs
  · exact ⟨hp, hb, C.weaken (C.constant 0) le_rfl (Nat.zero_le _)⟩
  · exact (enterException_counted_alike S hp hb .fastInterrupt).weaken (Nat.zero_le _) le_rfl

end Processor

end Handheld
