import Handheld.Proofs.Machine.Conservation

/-!
# Draining the DMA controller

A drain asks the DMA controller for one transfer after another. A bound on their number says when
to give up, but plays no part in what a drain does before.

1. `Draining` is a drain under way, `Draining.slice` one transfer of it, and `Draining.Rests` says
   that it is over; it leaves the machine `Draining.done`.
2. `drainSlices_slice` and `drainSlices_rests` are the two things a drain does; a drain that rests
   after some transfers has one result for all bounds that admit them (`drain_of_rests`), and a
   drain with a result rests (`drain_eq_some`).
-/

namespace Handheld

variable {P : Type} [Peripherals P]

/-- A drain under way: the machine, the DMA controller that was lifted off its board, the ticks owed
to the timed units, and their nearest horizon as it was when they were last handed some, or when the
drain began. -/
structure Draining (P : Type) where
  machine : Machine P
  dma : Dma
  owed : Int
  next : Int32

namespace Draining

/-- A drain in which nothing is owed. -/
def resume (dma : Dma) (m : Machine P) : Draining P := ⟨m, dma, 0, m.horizon⟩

/-- The start of a drain, which lifts the DMA controller. -/
def start (m : Machine P) : Draining P := resume m.board.dma (m.withDma .vacant)

/-- What the next transfer spends. -/
def spent (d : Draining P) : UInt32 := (d.machine.runSlice d.dma d.next).1.spent

/-- The ticks owed after the next transfer. -/
def due (d : Draining P) : Int := d.owed + d.spent.toNat

/-- One more transfer, after which the timed units are handed what they are owed if that reaches
their horizon, and the lifted controller what they raise. -/
def slice (d : Draining P) : Draining P :=
  let m := (d.machine.runSlice d.dma d.next).2
  if d.next.toInt ≤ d.due then resume d.dma (m.settle d.dma d.due) else ⟨m, d.dma, d.due, d.next⟩

/-- No channel is pending, or the next transfer makes no progress. -/
def Rests (d : Draining P) : Prop :=
  d.dma.pending d.machine.board.peripherals = false ∨ d.spent = 0

/-- The machine that a drain leaves when it rests; a transfer without progress has still been
asked for. -/
def rested (d : Draining P) : Machine P :=
  if d.dma.pending d.machine.board.peripherals then (d.machine.runSlice d.dma d.next).2
  else d.machine

/-- The machine after the drain: the timed units are handed what they are owed, and the controller
is put back. -/
def done (d : Draining P) : Machine P :=
  (d.rested.settle d.dma d.owed).withDma d.dma

theorem dma_slice (d : Draining P) : d.slice.dma = d.dma := by
  unfold slice
  simp only
  split_ifs
  · rfl
  · rfl

theorem dma_slices (n : Nat) : ∀ d : Draining P, (slice^[n] d).dma = d.dma := by
  induction n with
  | zero => exact fun _ => rfl
  | succ n ih => exact fun d => (ih d.slice).trans d.dma_slice

end Draining

namespace Machine

/-- The slices that are left of a drain. -/
abbrev slicesFrom (d : Draining P) (transfers : Nat) : Option (Int × Machine P) :=
  d.machine.drainSlices d.dma d.owed d.next transfers

theorem drainSlices_slice {d : Draining P} (h : ¬ d.Rests) (transfers : Nat) :
    slicesFrom d (transfers + 1) = slicesFrom d.slice transfers := by
  obtain ⟨hp, hs⟩ := not_or.mp h
  have hsucc := drainSlices_succ d.machine d.dma d.owed d.next transfers (Bool.of_not_eq_false hp)
  change _ = if d.spent = 0 then _ else if d.next.toInt ≤ d.due then _ else _ at hsucc
  rw [if_neg hs] at hsucc
  refine hsucc.trans ?_
  unfold slicesFrom Draining.slice
  simp only
  split_ifs
  · rfl
  · rfl

theorem drainSlices_rests {d : Draining P} (h : d.Rests) (transfers : Nat) :
    slicesFrom d (transfers + 1) = some (d.owed, d.rested) := by
  unfold Draining.rested
  cases hp : d.dma.pending d.machine.board.peripherals with
  | false => exact drainSlices_idle _ _ _ _ _ hp
  | true =>
    have hs : d.spent = 0 := h.resolve_left (by rw [hp]; decide)
    refine (drainSlices_succ _ _ _ _ _ hp).trans ?_
    exact if_pos hs

/-- A drain that rests after some transfers comes to the same whatever bound admits them. -/
theorem drainSlices_of_rests (n : Nat) :
    ∀ {d : Draining P}, (Draining.slice^[n] d).Rests →
      ∃ k, ∀ spare, slicesFrom d (n + spare + 1) =
        some ((Draining.slice^[k] d).owed, (Draining.slice^[k] d).rested) := by
  induction n with
  | zero => exact fun h => ⟨0, fun spare => drainSlices_rests h (0 + spare)⟩
  | succ n ih =>
    intro d h
    by_cases hr : d.Rests
    · exact ⟨0, fun spare => drainSlices_rests hr (n + 1 + spare)⟩
    · obtain ⟨k, hall⟩ := ih h
      refine ⟨k + 1, fun spare => ?_⟩
      rw [Nat.add_right_comm n 1 spare, drainSlices_slice hr]
      exact hall spare

/-- A drain that comes to a result is made of the slices up to the first rest. -/
theorem drainSlices_eq_some (transfers : Nat) :
    ∀ {d : Draining P} {result : Int × Machine P}, slicesFrom d transfers = some result →
      ∃ n, (∀ i < n, ¬ (Draining.slice^[i] d).Rests) ∧ (Draining.slice^[n] d).Rests ∧
        result = ((Draining.slice^[n] d).owed, (Draining.slice^[n] d).rested) := by
  induction transfers with
  | zero =>
    intro d result h
    cases hp : d.dma.pending d.machine.board.peripherals with
    | true =>
      rw [slicesFrom, drainSlices_zero _ _ _ _ hp] at h
      cases h
    | false =>
      rw [slicesFrom, drainSlices_idle _ _ _ _ _ hp] at h
      cases h
      have hm : d.rested = d.machine := if_neg (by rw [hp]; decide)
      exact ⟨0, fun _ hi => absurd hi (Nat.not_lt_zero _), Or.inl hp,
        congrArg (Prod.mk d.owed) hm.symm⟩
  | succ transfers ih =>
    intro d result h
    by_cases hr : d.Rests
    · rw [drainSlices_rests hr] at h
      cases h
      exact ⟨0, fun _ hi => absurd hi (Nat.not_lt_zero _), hr, rfl⟩
    · rw [drainSlices_slice hr] at h
      obtain ⟨n, hn, hrest, he⟩ := ih h
      refine ⟨n + 1, fun i hi => ?_, hrest, he⟩
      cases i with
      | zero => exact hr
      | succ i => exact hn i (Nat.lt_of_succ_lt_succ hi)

/-- What a drain comes to is what its slices come to, once they rest. -/
theorem drain_eq_some {m m' : Machine P} {transfers : Nat} (h : m.drain transfers = some m') :
    ∃ n, (∀ i < n, ¬ (Draining.slice^[i] (.start m)).Rests) ∧
      (Draining.slice^[n] (.start m)).Rests ∧ m' = (Draining.slice^[n] (.start m)).done := by
  rw [drain_eq] at h
  obtain ⟨result, hd, rfl⟩ := Option.map_eq_some_iff.mp h
  obtain ⟨n, hbusy, hrests, rfl⟩ := drainSlices_eq_some transfers (d := .start m) hd
  refine ⟨n, hbusy, hrests, ?_⟩
  unfold Draining.done
  rw [Draining.dma_slices]
  rfl

theorem drain_of_rests {m : Machine P} {n : Nat} (h : (Draining.slice^[n] (.start m)).Rests) :
    ∃ k, ∀ spare, m.drain (n + spare + 1) = some (Draining.slice^[k] (.start m)).done := by
  obtain ⟨k, hall⟩ := drainSlices_of_rests n h
  refine ⟨k, fun spare => ?_⟩
  have hslices : (m.withDma .vacant).drainSlices m.board.dma 0 m.horizon (n + spare + 1) = _ :=
    hall spare
  rw [drain_eq, hslices]
  unfold Draining.done
  rw [Draining.dma_slices]
  rfl

end Machine

end Handheld
