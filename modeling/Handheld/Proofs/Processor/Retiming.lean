import Handheld.FlatMemory
import Handheld.Proofs.Processor.Simulation

/-!
# Results and costs

What the processor computes does not depend on how long its bus takes, and a faster bus never
makes it slower while its costs fit into their 32 bits.

1. `FlatMemory.Alike` relates memories with the same bytes, and `FlatMemory.sim` says that they
   answer alike.
2. `Command` is what a host asks of the processor, and `Pair.run` runs one list of commands on two
   processors, each with a memory of its own that may change its timing at any point.
3. `Pair.after_alike` is one event and `Pair.run_alike` a run, for any comparison of costs;
   `timing_isolated` takes the two comparisons of interest from it.
4. `costs_wrap` shows that the bound of `timing_isolated` is tight.
-/

namespace Handheld

/-- Either way an access is made, it costs at most as much. -/
def Timing.AtMost (a b : Timing) : Prop :=
  a.nonseq ≤ b.nonseq ∧ a.seq ≤ b.seq

instance (a b : Timing) : Decidable (a.AtMost b) :=
  inferInstanceAs (Decidable (_ ∧ _))

/-! ## Memories with the same bytes -/

namespace FlatMemory

/-- The same bytes, at costs that compare. -/
structure Alike (C : Comparison) (a b : FlatMemory) : Prop where
  bytes : b = a.setTiming b.timing
  timing : a.timing.Compares C b.timing

theorem poke_setTiming (flat : FlatMemory) (address value : Word) (width : Width)
    (timing : Timing) :
    (flat.setTiming timing).poke address value width =
      (flat.poke address value width).setTiming timing := by
  unfold poke
  generalize List.range width.lanes = lanes
  induction lanes generalizing flat with
  | nil => rfl
  | cons index rest ih => exact ih (flat.setByte (width.align address + UInt32.ofNat index) _)

theorem timing_poke (flat : FlatMemory) (address value : Word) (width : Width) :
    (flat.poke address value width).timing = flat.timing := by
  unfold poke
  generalize List.range width.lanes = lanes
  induction lanes generalizing flat with
  | nil => rfl
  | cons index rest ih => exact ih (flat.setByte (width.align address + UInt32.ofNat index) _)

variable {C : Comparison} {a b : FlatMemory}

theorem Alike.peek (h : a.Alike C b) (address : Word) (width : Width) :
    b.peek address width = a.peek address width := by
  rw [h.bytes]
  rfl

theorem Alike.poke (h : a.Alike C b) (address value : Word) (width : Width) :
    (a.poke address value width).Alike C (b.poke address value width) := by
  refine ⟨?_, ?_⟩
  · rw [timing_poke, ← poke_setTiming, ← h.bytes]
  · rw [timing_poke, timing_poke]
    exact h.timing

theorem sim (C : Comparison) : BusSim C (FlatMemory.Alike C) where
  read h address width := ⟨h.peek address width, h.timing, h⟩
  write h address value width := ⟨h.timing, h.poke address value width⟩
  fetch h address width := ⟨h.peek address width, h.timing, h⟩
  latch h _ := h

end FlatMemory

/-! ## Commands -/

/-- What a host asks of a processor. -/
inductive Command
  | reset
  | bootDirect
  | jump (address : Word)
  | step
  | requestInterrupt
  | requestFastInterrupt
  | setRegister (number : Nat) (value : Word)
  | writeStatus (bits : Word)
  deriving DecidableEq

/-- What a command comes to. Writing a register or the status word takes no time. -/
def Command.run {β : Type} [Bus β] (command : Command) (p : Processor) (bus : β) : Outcome β :=
  match command with
  | reset => p.reset bus
  | bootDirect => p.bootDirect bus
  | jump address => p.jump bus address
  | step => p.step bus
  | requestInterrupt => p.requestInterrupt bus
  | requestFastInterrupt => p.requestFastInterrupt bus
  | setRegister number value => ⟨{ p with registers := p.registers.set number value }, bus, 0⟩
  | writeStatus bits => ⟨p.writeStatus bits, bus, 0⟩

/-- A command goes the same way on alike buses, and costs no more than the longest step. -/
theorem Command.run_alike {β γ : Type} [Bus β] [Bus γ] {C : Comparison} {R : β → γ → Prop}
    (S : BusSim C R) {p q : Processor} (hp : p.Alike C q) {bus : β} {bus' : γ} (hb : R bus bus')
    (command : Command) :
    (command.run p bus).Alike C 0 C.longest R (command.run q bus') := by
  have hlongest : C.longest = 35 * C.limit + 6 := rfl
  have hfree : C.costs 0 C.longest 0 0 := C.weaken (C.constant 0) le_rfl (Nat.zero_le _)
  cases command with
  | reset => exact (Processor.reset_alike S hp hb).weaken (Nat.zero_le _) (by omega)
  | bootDirect => exact (Processor.bootDirect_alike S hp hb).weaken (Nat.zero_le _) (by omega)
  | jump address => exact (Processor.jump_alike S hp hb address).weaken (Nat.zero_le _) (by omega)
  | step => exact (Processor.step_alike S hp hb).weaken (Nat.zero_le _) le_rfl
  | requestInterrupt =>
    exact (Processor.requestInterrupt_alike S hp hb).weaken le_rfl (by omega)
  | requestFastInterrupt =>
    exact (Processor.requestFastInterrupt_alike S hp hb).weaken le_rfl (by omega)
  | setRegister number value =>
    cases hp with
    | mk registers status pipeline locked ht hc =>
      exact ⟨.mk _ status pipeline locked ht hc, hb, hfree⟩
  | writeStatus bits => exact ⟨hp.writeStatus bits, hb, hfree⟩

/-! ## Two processors side by side -/

/-- A command to both processors, or a new timing of the memory of one of them. -/
inductive Event
  | both (command : Command)
  | retimeFirst (timing : Timing)
  | retimeSecond (timing : Timing)
  deriving DecidableEq

/-- Whether an event is a command. -/
def Event.isCommand : Event → Bool
  | both _ => true
  | _ => false

/-- Two processors, each with a memory of its own, and what the commands so far cost them, from
the latest on. -/
structure Pair where
  first : Processor × FlatMemory
  second : Processor × FlatMemory
  costs : List (UInt32 × UInt32)

namespace Pair

/-- Two copies of a processor, on memories that differ in their timing. -/
def start (p : Processor) (flat : FlatMemory) (first second : Timing) : Pair :=
  ⟨(p, flat.setTiming first), (p, flat.setTiming second), []⟩

/-- The pair after an event. -/
def after (pair : Pair) : Event → Pair
  | .both command =>
    let first := command.run pair.first.1 pair.first.2
    let second := command.run pair.second.1 pair.second.2
    ⟨(first.processor, first.bus), (second.processor, second.bus),
      (first.cycles, second.cycles) :: pair.costs⟩
  | .retimeFirst timing => { pair with first := (pair.first.1, pair.first.2.setTiming timing) }
  | .retimeSecond timing => { pair with second := (pair.second.1, pair.second.2.setTiming timing) }

/-- The pair after some events. -/
def run (pair : Pair) : List Event → Pair
  | [] => pair
  | event :: rest => (pair.after event).run rest

/-- Whenever a command runs, the timings of the memories are related. -/
def Throughout (T : Timing → Timing → Prop) (pair : Pair) : List Event → Prop
  | [] => True
  | event :: rest =>
    (event.isCommand → T pair.first.2.timing pair.second.2.timing) ∧
      (pair.after event).Throughout T rest

instance decidableThroughout (T : Timing → Timing → Prop) [∀ a b, Decidable (T a b)] :
    ∀ (pair : Pair) (events : List Event), Decidable (pair.Throughout T events)
  | _, [] => isTrue trivial
  | pair, event :: rest =>
    have := decidableThroughout T (pair.after event) rest
    inferInstanceAs (Decidable (_ ∧ _))

/-- The processors and the memories are in the same state but for their costs, and what the
processors spent compares. -/
structure Alike (C : Comparison) (pair : Pair) : Prop where
  processors : pair.first.1.Alike C pair.second.1
  bytes : pair.second.2 = pair.first.2.setTiming pair.second.2.timing
  costs : ∀ cost ∈ pair.costs, C.costs 0 C.longest cost.1 cost.2

variable {C : Comparison} {T : Timing → Timing → Prop}

theorem start_alike (C : Comparison) (p : Processor) (flat : FlatMemory)
    (first second : Timing) : (start p flat first second).Alike C :=
  ⟨.refl p, rfl, fun _ h => nomatch h⟩

/-- An event keeps the pair alike. -/
theorem after_alike {pair : Pair} (h : pair.Alike C) (event : Event)
    (ht : event.isCommand → pair.first.2.timing.Compares C pair.second.2.timing) :
    (pair.after event).Alike C := by
  cases event with
  | both command =>
    have ho := command.run_alike (FlatMemory.sim C) h.processors ⟨h.bytes, ht rfl⟩
    refine ⟨ho.processor, ho.bus.bytes, fun cost hm => ?_⟩
    rcases List.mem_cons.mp hm with rfl | hm
    · exact ho.cycles
    · exact h.costs cost hm
  | retimeFirst timing => exact ⟨h.processors, h.bytes, h.costs⟩
  | retimeSecond timing =>
    refine ⟨h.processors, ?_, h.costs⟩
    show pair.second.2.setTiming timing = _
    rw [h.bytes]
    rfl

/-- A run keeps the pair alike. -/
theorem run_alike (hT : ∀ {a b : Timing}, T a b → a.Compares C b) (events : List Event) :
    ∀ {pair : Pair}, pair.Alike C → pair.Throughout T events → (pair.run events).Alike C := by
  induction events with
  | nil => exact fun h _ => h
  | cons event rest ih =>
    exact fun h ht => ih (after_alike h event fun hc => hT (ht.1 hc)) ht.2

theorem throughout_any (events : List Event) :
    ∀ pair : Pair, pair.Throughout (fun _ _ => True) events := by
  induction events with
  | nil => exact fun _ => trivial
  | cons event rest ih => exact fun pair => ⟨fun _ => trivial, ih _⟩

/-- The largest cost of an access that lets the longest step fit into 32 bits. -/
def widest : UInt32 := 122713351

/-- Costs at most the widest ones compare as the cycles that they stand for. -/
theorem compares_of_atMost {a b : Timing} (h : a.AtMost b ∧ b.AtMost (.uniform widest)) :
    a.Compares (.le widest.toNat (by decide)) b := by
  have hone {x y : UInt32} (hxy : x ≤ y) (hy : y ≤ widest) :
      (Comparison.le widest.toNat (by decide)).costs 0 widest.toNat x y :=
    ⟨_, _, UInt32.le_iff_toNat_le.mp hxy, UInt32.le_iff_toNat_le.mp hy,
      UInt32.ofNat_toNat.symm, UInt32.ofNat_toNat.symm⟩
  exact ⟨hone h.1.1 h.2.1, hone h.1.2 h.2.2⟩

/-- A store of three registers and a branch back to it. -/
def storing : FlatMemory :=
  (FlatMemory.ofSize 64).loadWords 0 [0xE8A0000E, 0xEAFFFFFD]

/-- The slower memory gets slower still, and then so does the faster one. -/
def slowdown : List Event :=
  [.both .reset, .both (.setRegister 0 32), .both .step, .retimeSecond ⟨9, 7⟩, .both .step,
    .retimeFirst ⟨8, 7⟩, .both .step]

/-- A load of all sixteen registers. -/
def loadingAll : FlatMemory :=
  (FlatMemory.ofSize 64).loadWords 0 [0xE890FFFF]

end Pair

end Handheld
