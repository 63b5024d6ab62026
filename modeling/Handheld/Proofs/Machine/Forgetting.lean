import Handheld.Machine.Query
import Handheld.Proofs.Machine.Histories
import Handheld.Proofs.Machine.Lockstep
import Handheld.Proofs.Machine.Wakeup
import Handheld.Proofs.Processor.Transport
import Handheld.Proofs.Processor.Unseen

/-!
# What a reset forgets

Four things outlive a reset: what is plugged in and the buttons held, which are the host's, and the
processor's count of cycles and the cost of its last fetch, which nothing but the query for the
count ever looks at. All else is cleared, or follows from the images and the boot mode.

1. `Machine.inheriting` is a fresh machine with these four from another one. A reset fetches its
   first opcodes from an image (`refill_handed`), so it gives what a reset of any machine with the
   same images gives, but for the four (`reset_eq_inheriting`).
2. `Lockstep.aged` says that batches go the same way whatever the count and the cost are,
   `live_aged` that histories do, and `query_aged` that no other query shows them.
3. `reset_forgets` puts these together for machines of one configuration with any two histories.
-/

namespace Handheld

variable {P D : Type}

/-! ## What outlives a reset -/

/-- The board with something else plugged in and other buttons held. -/
def Board.handed (board : Board P) (state : D) (held : UInt16) : Board D :=
  { board.plug state with keypad := { board.keypad with held } }

/-- The processor with another count of cycles and another cost of the last fetch. -/
def Processor.aged (timing : Timing) (count : Nat) (p : Processor) : Processor :=
  { p with fetchTiming := timing, cycles := count }

namespace Machine

/-- The machine with another count of cycles and another cost of the last fetch. -/
def aged (timing : Timing) (count : Nat) (m : Machine P) : Machine P :=
  { m with processor := m.processor.aged timing count }

/-- A fresh machine with what outlives a reset of another one. -/
def inheriting (fresh : Machine P) (past : Machine D) : Machine D :=
  { fresh with
    processor := fresh.processor.aged past.processor.fetchTiming
      (past.processor.cycles + fresh.carried.toNat)
    board := fresh.board.handed past.board.peripherals past.board.keypad.held }

end Machine

theorem Board.reset_handed {a : Board P} {b : Board D} (hbios : b.bios = a.bios)
    (hrom : b.rom = a.rom) (hdma : b.dma = a.dma) :
    b.reset = a.reset.handed b.peripherals b.keypad.held := by
  unfold reset handed plug
  rw [hbios, hrom, hdma]
  rfl

variable [Peripherals P] [Peripherals D]

theorem Board.writeAt_postBoot_handed (board : Board P) (state : D) (held : UInt16) :
    ((board.handed state held).writeAt Control.postBootAddress 1 .byte).2 =
      (board.writeAt Control.postBootAddress 1 .byte).2.handed state held := rfl

namespace Processor

/-- The boot memory and the cartridge answer the first fetches by themselves. -/
theorem refill_handed (p : Processor) (board : Board P) (state : D) (held : UInt16)
    {address : Word} (h : address = Exception.reset.entry.vector ∨ address = cartridgeEntry) :
    p.refill (board.handed state held) address =
      (p.refill board address).map (·.handed state held) := by
  unfold refill
  generalize p.width = width
  rcases h with rfl | rfl <;> cases width <;> rfl

theorem reset_handed (p : Processor) (board : Board P) (state : D) (held : UInt16) :
    p.reset (board.handed state held) = (p.reset board).map (·.handed state held) :=
  congrArg (fun outcome => (outcome.costing Exception.reset.entry.extraCycles).counted)
    (refill_handed _ board state held (.inl rfl))

theorem bootDirect_handed (p : Processor) (board : Board P) (state : D) (held : UInt16) :
    p.bootDirect (board.handed state held) = (p.bootDirect board).map (·.handed state held) :=
  congrArg Outcome.counted (refill_handed _ board state held (.inr rfl))

variable {β : Type} [Bus β]

/-- What a processor held does not matter to its reset. -/
theorem reset_aged (p q : Processor) (bus : β) :
    q.reset bus =
      ⟨(p.reset bus).processor.aged q.fetchTiming (q.cycles + (p.reset bus).cycles.toNat),
        (p.reset bus).bus, (p.reset bus).cycles⟩ := rfl

theorem bootDirect_aged (p q : Processor) (bus : β) :
    q.bootDirect bus =
      ⟨(p.bootDirect bus).processor.aged q.fetchTiming
          (q.cycles + (p.bootDirect bus).cycles.toNat),
        (p.bootDirect bus).bus, (p.bootDirect bus).cycles⟩ := rfl

end Processor

namespace Machine

/-- Machines with the same images start alike, but for what outlives a reset. -/
theorem reset_eq_inheriting {m : Machine P} {n : Machine D} (h : m.Installed n) :
    n.reset = m.reset.inheriting n := by
  have hboard := Board.reset_handed h.bios h.rom h.dma
  unfold reset inheriting
  rw [h.boot, h.header, hboard]
  cases m.boot with
  | bios =>
    simp only
    rw [Processor.reset_aged m.processor n.processor, Processor.reset_handed]
    rfl
  | direct =>
    simp only
    rw [Board.writeAt_postBoot_handed, Processor.bootDirect_aged m.processor n.processor,
      Processor.bootDirect_handed]
    rfl

/-- Machines of one configuration have the same images. -/
theorem build_installed {config : Config} {p : P} {q : D} {m : Machine P} {n : Machine D}
    (hm : build config p = .ok m) (hn : build config q = .ok n) : m.Installed n := by
  unfold build Board.build at hm hn
  cases hbios : bootMemory config.bios config.boot with
  | error e => rw [hbios] at hm; cases hm
  | ok bios =>
    cases hrom : Rom.ofDump config.rom with
    | error e => rw [hbios, hrom] at hm; cases hm
    | ok rom =>
      rw [hbios, hrom] at hm hn
      cases hm
      cases hn
      refine (installed_reset _).symm.trans (.trans ?_ (installed_reset _))
      exact ⟨rfl, rfl, rfl, rfl, rfl⟩

end Machine

/-! ## Age does not show -/

variable {first second : Nat}

/-- Nothing on a board looks at the age of the processor. -/
theorem Lockstep.aged {dma : Dma} :
    Lockstep dma (Processor.Aged first second) (Eq : Board P → Board P → Prop) where
  control h := by rw [h]
  keypad h := by rw [h]
  slot h := by rw [h]
  nextEvent h _ := by rw [h]
  pending h := by rw [h]
  withControl h _ := by rw [h]
  withKeypad h _ := by rw [h]
  withSlot h _ := by rw [h]
  step := by
    rintro p q board - hp rfl
    exact hp.step board
  interrupt := by
    rintro p q board - hp rfl
    exact hp.requestInterrupt board
  round h _ := by
    rw [h]
    exact ⟨rfl, rfl⟩
  videoRound h _ := by
    rw [h]
    exact ⟨rfl, rfl⟩
  transfer h _ := by
    rw [h]
    exact ⟨rfl, rfl⟩

namespace Machine

variable {m n : Machine P}

theorem reset_related (h : m.Related (Processor.Aged first second) Eq n) :
    m.reset.Related (Processor.Aged first second) Eq n.reset := by
  unfold reset
  rw [h.boot, ← h.board]
  cases m.boot with
  | bios =>
    obtain ⟨hprocessor, hboard, hcycles⟩ := Command.run_aged h.processor m.board.reset .reset
    exact ⟨hprocessor, hboard, h.header, rfl, rfl, hcycles⟩
  | direct =>
    obtain ⟨hprocessor, hboard, hcycles⟩ := Command.run_aged h.processor
      (m.board.reset.writeAt Control.postBootAddress 1 .byte).2 .bootDirect
    exact ⟨hprocessor, hboard, h.header, rfl, rfl, hcycles⟩

/-- A deed goes the same way, whatever the age of the processor is. -/
theorem run_related (h : m.Related (Processor.Aged first second) Eq n) (deed : Deed P) :
    Option.Rel (Results (Processor.Aged first second) Eq) (deed.run m) (deed.run n) := by
  cases deed with
  | batch transfers =>
    exact rel_map (runBatch_related .aged h rfl transfers) fun _ _ hr =>
      ⟨congrArg Reply.ticks hr.result, hr.machine⟩
  | frame transfers =>
    exact rel_map (runTicks_related .aged _ _ _ h rfl 0) fun _ _ hr =>
      ⟨congrArg Reply.ticks hr.result, hr.machine⟩
  | reset => exact .some ⟨rfl, reset_related h⟩
  | command asked =>
    obtain ⟨hprocessor, hboard, hcycles⟩ := Command.run_aged h.processor m.board asked
    unfold Deed.run
    rw [← h.board]
    exact .some ⟨congrArg Reply.cycles hcycles,
      ⟨hprocessor, hboard, h.header, h.boot, h.elapsed, h.carried⟩⟩
  | _ =>
    unfold Deed.run
    rw [← h.board]
    exact .some ⟨rfl, ⟨h.processor, rfl, h.header, h.boot, h.elapsed, h.carried⟩⟩

theorem live_related (history : List (Deed P)) :
    ∀ {m n : Machine P}, m.Related (Processor.Aged first second) Eq n →
      Option.Rel (Results (Processor.Aged first second) Eq) (m.live history) (n.live history) := by
  induction history with
  | nil => exact fun h => .some ⟨rfl, h⟩
  | cons deed rest ih =>
    intro m n h
    unfold live
    rcases results_cases (run_related h deed) with ⟨hm, hn⟩ | ⟨reply, m', n', hm, hn, hmachine⟩
    · rw [hm, hn]
      exact .none
    · rw [hm, hn]
      exact rel_map (ih hmachine) fun _ _ hr => ⟨congrArg (reply :: ·) hr.result, hr.machine⟩

end Machine

/-! ## Queries -/

/-- A processor shows its count to one query and the cost of its last fetch to none. -/
theorem Processor.query_aged {p q : Processor} (h : p.Aged first second q) {path : String}
    (hp : path ≠ "cycles") : q.query path = p.query path := by
  have hnamed : q.queryNamed path = p.queryNamed path := by
    rw [h.eq]
    unfold queryNamed
    simp only
    split
    all_goals first
      | contradiction
      | rfl
  unfold query
  rw [hnamed, h.registers]

theorem Machine.query_aged {m n : Machine P} (h : m.Related (Processor.Aged first second) Eq n)
    {path : String} (hp : path ≠ "cpu.cycles") : n.query path = m.query path := by
  unfold query
  rw [h.board]
  cases ha : after? "cpu.".toList path.toList with
  | some rest =>
    refine Processor.query_aged h.processor fun hcycles => hp ?_
    have hrest : rest = "cycles".toList := by rw [← hcycles, String.toList_ofList]
    rw [← String.ofList_toList (s := path), after?_eq_some_iff.mp ha, hrest]
    rfl
  | none =>
    cases after? "memory.".toList path.toList with
    | some address => rfl
    | none =>
      simp only
      unfold queryNamed horizon
      rw [h.elapsed, h.board, h.header]

/-! ## The past -/

namespace Machine

/-- **A reset forgets the past.** Build machines from the same images with the same boot mode, and
let hosts do what they like with them. A reset makes each of them the machine that was built, and
makes them equal, but for what is plugged in, the buttons held, the count of cycles of the processor
and the cost of its last fetch. The last two do not show. Whatever a host does later, it learns the
same with another count and another cost and ends with a machine that differs in these two alone,
whose counts are as far apart as they were; no query shows a difference but that for the count. -/
theorem reset_forgets {config : Config} {p : P} {q : D} {m₀ m : Machine P} {n₀ n : Machine D}
    {past : List (Deed P)} {other : List (Deed D)} {learned learned' : List Reply}
    (hm₀ : build config p = .ok m₀) (hm : m₀.live past = some (learned, m))
    (hn₀ : build config q = .ok n₀) (hn : n₀.live other = some (learned', n)) :
    m.reset = m₀.inheriting m ∧ n.reset = m.reset.inheriting n ∧
      ∀ (timing : Timing) (count : Nat) (future : List (Deed P)),
        Option.Rel
          (fun a b => Results (Processor.Aged m.reset.processor.cycles count) Eq a b ∧
            ∀ path, path ≠ "cpu.cycles" → b.2.query path = a.2.query path)
          (m.reset.live future) ((m.reset.aged timing count).live future) := by
  have hlived : m₀.Installed m := live_installed past hm
  have hboth : m.Installed n :=
    hlived.symm.trans ((build_installed hm₀ hn₀).trans (live_installed other hn))
  refine ⟨?_, reset_eq_inheriting hboth, fun timing count future => ?_⟩
  · obtain ⟨start, -, rfl⟩ := build_eq_reset hm₀
    exact reset_eq_inheriting (start.installed_reset.trans hlived)
  · have hparted : m.reset.Related (Processor.Aged m.reset.processor.cycles count) Eq
        (m.reset.aged timing count) :=
      ⟨⟨rfl, rfl, rfl, rfl, Nat.add_comm count _⟩, rfl, rfl, rfl, rfl, rfl⟩
    have hlive := live_related future hparted
    generalize m.reset.live future = a at hlive ⊢
    generalize (m.reset.aged timing count).live future = b at hlive ⊢
    cases hlive with
    | none => exact .none
    | some hresults => exact .some ⟨hresults, fun _ hp => query_aged hresults.machine hp⟩

end Machine

/-- A batch that ends asleep, an interrupt enabled, a register set by hand and a button held. -/
def Bursts.past : List (Deed Bursts) :=
  [.batch 4, .write Control.enableAddress 1 .halfword, .command (.setRegister 1 7),
    .keypad (·.press .a)]

namespace Machine

theorem reset_forgets_bursts :
    ∃ (m₀ m n₀ : Machine Bursts) (learned : List Reply),
      build Bursts.config (⟨2, false⟩ : Bursts) = .ok m₀ ∧
      m₀.live Bursts.past = some (learned, m) ∧
      build Bursts.config (⟨0, false⟩ : Bursts) = .ok n₀ ∧ n₀.live [] = some ([], n₀) ∧
      (m.board.control.power, m.board.control.enabled, m.processor.get 1, m.board.keypad.held) =
        (.halted, 1, 7, 1) ∧
      m.reset = m₀.inheriting m ∧ n₀.reset = m.reset.inheriting n₀ ∧
      Option.Rel
        (fun a b => Results (Processor.Aged m.reset.processor.cycles 1000) Eq a b ∧
          ∀ path, path ≠ "cpu.cycles" → b.2.query path = a.2.query path)
        (m.reset.live Bursts.past) ((m.reset.aged ⟨9, 9⟩ 1000).live Bursts.past) := by
  have hlived : ((build Bursts.config (⟨2, false⟩ : Bursts)).toOption.bind fun m =>
      m.live Bursts.past).map (fun result => (result.2.board.control.power,
        result.2.board.control.enabled, result.2.processor.get 1, result.2.board.keypad.held)) =
      some (.halted, 1, 7, 1) := by decide +kernel
  have hother : (build Bursts.config (⟨0, false⟩ : Bursts)).toOption.isSome = true := by
    decide +kernel
  cases hm₀ : build Bursts.config (⟨2, false⟩ : Bursts) with
  | error e => rw [hm₀] at hlived; cases hlived
  | ok m₀ =>
    cases hn₀ : build Bursts.config (⟨0, false⟩ : Bursts) with
    | error e => rw [hn₀] at hother; cases hother
    | ok n₀ =>
      rw [hm₀] at hlived
      obtain ⟨⟨learned, m⟩, hm, hends⟩ := Option.map_eq_some_iff.mp hlived
      obtain ⟨hfresh, hequal, hlater⟩ := reset_forgets hm₀ hm hn₀
        (rfl : n₀.live [] = some ([], n₀))
      exact ⟨m₀, m, n₀, learned, rfl, hm, rfl, rfl, hends, hfresh, hequal,
        hlater ⟨9, 9⟩ 1000 Bursts.past⟩

end Machine

end Handheld
