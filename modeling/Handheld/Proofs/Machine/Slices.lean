import Handheld.Proofs.Machine.Draining
import Handheld.Proofs.Machine.Unchanged

/-!
# Slices of a drain

Each transfer is given the horizon as its limit, and the timed units are handed what the transfers
spent when that reaches the horizon. The limit does not take account of what is owed already, so a
channel that finishes early and another one after it may pass the horizon together.

1. `Draining.handed` is what a part of a drain hands to the timed units, and `drain_parts` says
   that a drain is made of such parts.
2. `Moderate` transfers keep to their limit. Then what is owed stays below the horizon
   (`Draining.Below`), and `handed_lt_twice` bounds what is handed by almost twice the horizon;
   where transfers that leave channels pending fill their limit, nothing is owed between them and
   the horizon is kept (`handed_le_limit`).
3. `channels_pass_horizon` is a drain that passes the horizon.
-/

namespace Handheld

variable {P : Type} [Peripherals P]

namespace Draining

instance (d : Draining P) : Decidable d.Rests :=
  inferInstanceAs (Decidable (_ ∨ _))

/-- What is handed to the timed units after the next transfer: what they are owed by then if that
reaches their horizon, and what is left when the drain is over. -/
def handed (d : Draining P) : Int :=
  if d.Rests then d.owed else if d.next.toInt ≤ d.due then d.due else 0

/-- The horizon that a drain goes by, at least one tick away. -/
def limit (d : Draining P) : Int := max d.next.toInt 1

/-- The controller is off the board, and what is owed is less than the horizon. -/
structure Below (d : Draining P) : Prop where
  lifted : d.machine.board.dma = .vacant
  nonneg : 0 ≤ d.owed
  lt : d.owed < d.limit

end Draining

/-- No transfer of a controller that is off the board spends more than its limit, or a single
cycle. -/
def Moderate (P : Type) [Peripherals P] : Prop :=
  ∀ limit (board : Board P), board.dma = .vacant →
    ((board.runProgram (Peripherals.transfer limit)).1.spent.toNat : Int) ≤ max limit.toInt 1

/-- Such a transfer fills its limit if it makes progress and leaves a channel pending. -/
def Filling (P : Type) [Peripherals P] : Prop :=
  ∀ (m : Machine P) limit, m.board.dma = .vacant →
    Peripherals.transferPending (m.runSlice .attached limit).2.board.peripherals = true →
      (m.runSlice .attached limit).1.spent = 0 ∨
        limit.toInt ≤ (m.runSlice .attached limit).1.spent.toNat

namespace Machine

/-- A transfer does not touch the slot. -/
theorem dma_runSlice (m : Machine P) (dma : Dma) (limit : Int32) :
    (m.runSlice dma limit).2.board.dma = m.board.dma :=
  (Board.fixed_runProgram (dma.transfer limit) m.board).dma

end Machine

namespace Draining

theorem below_resume {m : Machine P} (h : m.board.dma = .vacant) (dma : Dma) :
    (resume dma m).Below :=
  ⟨h, Int.le_refl 0, Int.lt_of_lt_of_le Int.zero_lt_one (Int.le_max_right ..)⟩

theorem Below.slice {d : Draining P} (h : d.Below) : d.slice.Below := by
  have hnonneg := h.nonneg
  have hlifted := (d.machine.dma_runSlice d.dma d.next).trans h.lifted
  unfold Draining.slice
  simp only
  split_ifs with hn
  · exact below_resume ((Machine.dma_settle ..).trans hlifted) _
  · have hdue : d.due = d.owed + d.spent.toNat := rfl
    refine ⟨hlifted, ?_, ?_⟩
    · show 0 ≤ d.due
      omega
    · show d.due < max d.next.toInt 1
      omega

/-- What is owed stays below the horizon all through a drain. -/
theorem below_slices (m : Machine P) (n : Nat) : (Draining.slice^[n] (start m)).Below :=
  Function.Iterate.rec Below (below_resume rfl m.board.dma) (fun _ h => h.slice) n

/-- What is handed on between two transfers is just this; nothing is handed on by a sync of no
ticks. -/
theorem machine_slice {d : Draining P} (hr : ¬ d.Rests) :
    d.slice.machine = (d.machine.runSlice d.dma d.next).2.settle d.dma d.handed := by
  unfold slice handed
  rw [if_neg hr]
  simp only
  split_ifs
  · rfl
  · exact (Machine.settle_of_none _ _ rfl).symm

theorem spent_le_limit (hm : Moderate P) {d : Draining P} (h : d.Below) :
    (d.spent.toNat : Int) ≤ d.limit := by
  have hspent := hm d.next d.machine.board h.lifted
  unfold spent
  cases d.dma with
  | attached => exact hspent
  | vacant => exact (Int.zero_le_ofNat 1).trans (Int.le_max_right ..)

theorem handed_lt_twice (hm : Moderate P) {d : Draining P} (h : d.Below) :
    d.handed < 2 * d.limit := by
  have hlt := h.lt
  have hspent := spent_le_limit hm h
  have hdue : d.due = d.owed + d.spent.toNat := rfl
  have hlimit : 1 ≤ d.limit := Int.le_max_right ..
  unfold handed
  split_ifs
  · omega
  · omega
  · omega

/-- Where transfers fill their limits, nothing is owed while a drain goes on. -/
theorem owed_slice (hf : Filling P) {d : Draining P} (h : d.Below) (hr : ¬ d.Rests)
    (hs : ¬ d.slice.Rests) : d.slice.owed = 0 := by
  have h0 := h.nonneg
  have hlifted := h.lifted
  have hdue : d.due = d.owed + d.spent.toNat := rfl
  obtain ⟨hbusy, hspent⟩ := not_or.mp hr
  obtain ⟨hpending, -⟩ := not_or.mp hs
  rcases d with ⟨m, dma, owed, next⟩
  obtain rfl : dma = .attached := Machine.eq_attached (Bool.of_not_eq_false hbusy)
  unfold slice at hpending ⊢
  simp only at hpending hlifted ⊢
  by_cases hn : next.toInt ≤ (Draining.mk m .attached owed next).due
  · rw [if_pos hn]
    rfl
  · rw [if_neg hn] at hpending
    rcases hf m next hlifted (Bool.of_not_eq_false hpending) with hz | hfill
    · exact absurd hz hspent
    · have hle : next.toInt ≤ (Draining.mk m .attached owed next).spent.toNat := hfill
      simp only at h0 hdue
      omega

theorem owed_slices (hf : Filling P) (m : Machine P) (n : Nat)
    (h : ∀ i ≤ n, ¬ (Draining.slice^[i] (start m)).Rests) :
    (Draining.slice^[n] (start m)).owed = 0 := by
  cases n with
  | zero => rfl
  | succ n =>
    have hr := h n (Nat.le_succ n)
    have hs := h (n + 1) (Nat.le_refl _)
    rw [Function.iterate_succ_apply'] at hs ⊢
    exact owed_slice hf (below_slices m n) hr hs

theorem handed_le_limit (hm : Moderate P) {d : Draining P} (h : d.Below)
    (ho : ¬ d.Rests → d.owed = 0) : d.handed ≤ d.limit := by
  have hlt := h.lt
  have hspent := spent_le_limit hm h
  have hdue : d.due = d.owed + d.spent.toNat := rfl
  have hlimit : 1 ≤ d.limit := Int.le_max_right ..
  unfold handed
  split_ifs with hr
  · omega
  · have hz := ho hr
    omega
  · omega

end Draining

namespace Machine

/-- A drain from one machine to another in some parts and a last one, each of them a transfer after
which the timed units are handed something or nothing. -/
structure Parts (m m' : Machine P) (n : Nat) : Prop where
  busy : ∀ i < n, ¬ (Draining.slice^[i] (.start m)).Rests
  rests : (Draining.slice^[n] (.start m)).Rests
  handed : ∀ i < n, (Draining.slice^[i + 1] (.start m)).machine =
    ((Draining.slice^[i] (.start m)).machine.runSlice m.board.dma
      (Draining.slice^[i] (.start m)).next).2.settle m.board.dma
        (Draining.slice^[i] (.start m)).handed
  last : m' = ((Draining.slice^[n] (.start m)).rested.settle m.board.dma
    (Draining.slice^[n] (.start m)).handed).withDma m.board.dma

theorem drain_parts {m m' : Machine P} {transfers : Nat} (h : m.drain transfers = some m') :
    ∃ n, m.Parts m' n := by
  obtain ⟨n, hbusy, hrests, rfl⟩ := drain_eq_some h
  have hdma (i : Nat) : (Draining.slice^[i] (.start m)).dma = m.board.dma :=
    Draining.dma_slices i (.start m)
  have hh : (Draining.slice^[n] (.start m)).handed = (Draining.slice^[n] (.start m)).owed :=
    if_pos hrests
  refine ⟨n, hbusy, hrests, fun i hi => ?_, ?_⟩
  · rw [Function.iterate_succ_apply', Draining.machine_slice (hbusy i hi), hdma]
  · rw [hh, Draining.done, hdma]

/-- **A drain hands on less than twice the horizon.** Where no transfer spends more than its limit
or a single cycle, the timed units are handed less than twice the horizon at once, as it was when
they were last handed something or when the drain began; and at most the horizon, where transfers
that leave channels pending fill their limit. -/
theorem drain_hands_less_than_twice (hm : Moderate P) {m m' : Machine P} {transfers : Nat}
    (h : m.drain transfers = some m') :
    ∃ n, m.Parts m' n ∧
      (∀ i ≤ n, (Draining.slice^[i] (.start m)).handed <
        2 * (Draining.slice^[i] (.start m)).limit) ∧
      (Filling P → ∀ i ≤ n, (Draining.slice^[i] (.start m)).handed ≤
        (Draining.slice^[i] (.start m)).limit) := by
  obtain ⟨n, hparts⟩ := drain_parts h
  refine ⟨n, hparts, fun i _ => Draining.handed_lt_twice hm (Draining.below_slices m i),
    fun hf i hi => Draining.handed_le_limit hm (Draining.below_slices m i) fun hr => ?_⟩
  refine Draining.owed_slices hf m i fun j hj => ?_
  rcases Nat.eq_or_lt_of_le hj with rfl | hlt
  · exact hr
  · exact hparts.busy j (hlt.trans_le hi)

end Machine

/-! ## Runs -/

/-- DMA channels of a length that have some cycles left to run, one channel after another; a length
of zero stands for a single channel. -/
structure Channels (length : Nat) where
  left : Nat

/-- What the next transfer spends: what is left of its channel, or as much of it as its limit
admits. -/
def Channels.spends {length : Nat} (state : Channels length) (limit : Int32) : Nat :=
  min ((state.left - 1) % length + 1) (max 1 limit.toInt).toNat

instance {length : Nat} : Peripherals (Channels length) where
  nextEvent _ _ := 100
  sync _ _ state := (Signals.empty, state)
  readRegister _ _ state := (none, state)
  writeRegister _ _ _ state := state
  readVideo _ _ state := (none, state)
  writeVideo _ _ _ state := state
  transferPending state := state.left != 0
  trigger _ state := state
  transfer limit :=
    .update (fun state => ⟨state.left - state.spends limit⟩) fun state =>
      .done ⟨UInt32.ofNat (state.spends limit), Signals.empty⟩

namespace Channels

variable {length : Nat}

/-- A machine whose channels have 120 cycles left. -/
def machine (length : Nat) : Machine (Channels length) :=
  { Bursts.machine with board := { Bursts.machine.board with peripherals := ⟨120⟩ } }

theorem spent_runSlice (m : Machine (Channels length)) (limit : Int32) :
    (m.runSlice .attached limit).1.spent.toNat = m.board.peripherals.spends limit := by
  have hl : limit.toInt < 2 ^ 31 := limit.toInt_lt
  have hs : m.board.peripherals.spends limit < 2 ^ 32 :=
    Nat.lt_of_le_of_lt (Nat.min_le_right ..) (by omega)
  exact UInt32.toNat_ofNat_of_lt' hs

theorem moderate : Moderate (Channels length) := by
  intro limit board _
  have hs := spent_runSlice { Bursts.machine with board } limit
  change (board.runProgram (Peripherals.transfer limit)).1.spent.toNat =
    board.peripherals.spends limit at hs
  have hle : board.peripherals.spends limit ≤ (max 1 limit.toInt).toNat := Nat.min_le_right ..
  rw [hs]
  omega

/-- A single channel is done unless it fills its limit. -/
theorem filling : Filling (Channels 0) := by
  intro m limit _ hp
  have hleft : m.board.peripherals.left - m.board.peripherals.spends limit ≠ 0 :=
    bne_iff_ne.mp hp
  have hs : m.board.peripherals.spends limit =
      min ((m.board.peripherals.left - 1) % 0 + 1) (max 1 limit.toInt).toNat := rfl
  rw [Nat.mod_zero] at hs
  right
  rw [spent_runSlice]
  omega

end Channels

namespace Machine

/-- A single channel is drained in two parts, each within the horizon of 100. -/
theorem drain_hands_less_than_twice_channel :
    Moderate (Channels 0) ∧ Filling (Channels 0) ∧
      ∃ m' n, (Channels.machine 0).drain 3 = some m' ∧ (Channels.machine 0).Parts m' n ∧
        ∀ i ≤ n, (Draining.slice^[i] (.start (Channels.machine 0))).handed ≤
          (Draining.slice^[i] (.start (Channels.machine 0))).limit := by
  have hsome : ((Channels.machine 0).drain 3).isSome = true := by decide +kernel
  obtain ⟨m', h⟩ := Option.isSome_iff_exists.mp hsome
  obtain ⟨n, hparts, -, hle⟩ := drain_hands_less_than_twice Channels.moderate h
  exact ⟨Channels.moderate, Channels.filling, m', n, h, hparts, hle Channels.filling⟩

/-- Two channels of 60 cycles keep to their limits, but pass the horizon of 100 together: all units
are handed 120 ticks at once. -/
theorem channels_pass_horizon :
    Moderate (Channels 60) ∧
      ¬ (Draining.start (Channels.machine 60)).Rests ∧
      ¬ (Draining.start (Channels.machine 60)).slice.Rests ∧
      (Draining.start (Channels.machine 60)).slice.limit = 100 ∧
      (Draining.start (Channels.machine 60)).slice.handed = 120 ∧
      (((Channels.machine 60).metered []).drain 2).map (fun m => m.board.peripherals.calls) =
        some [.sync .video 120, .sync .audio 120, .sync .timers 120, .transfer 60,
          .transfer 60] := by
  refine ⟨Channels.moderate, ?_⟩
  decide +kernel

end Machine

end Handheld
