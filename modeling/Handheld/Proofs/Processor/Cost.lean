import Handheld.Proofs.Processor.Effect
import Handheld.Proofs.Processor.Simulation

/-!
# The cycles of a step

The processor counts every cycle that its entry points report, and a bus whose accesses have
bounded costs bounds what a step can take.

1. `step_cycles` and its neighbours say that a count grows by exactly what is reported, because no
   effect of an instruction touches it (`Effect.cycles`).
2. `Bounded` bounds the accesses of a bus from both sides, and so tightly that no sum of 32 bits
   wraps. Such a bus is alike to itself under `Comparison.within` (`Bounded.sim`).
3. `step_cycles_within` bounds a step: no step costs less than a fetch, because every instruction
   pays for one, and the longest loads all sixteen registers and refills the pipeline.
-/

namespace Handheld

namespace Processor

section Count

variable {β : Type} [Bus β]

/-! ## The count -/

theorem Act.cycles {counter user : Prop} {p q : Processor} {bus out : β}
    (act : Act counter user (p, bus) (q, out)) : q.cycles = p.cycles := by
  cases act <;> rfl

theorem Work.cycles {counter user : Prop} {p q : Processor} {bus out : β}
    (work : Work counter user (p, bus) (q, out)) : q.cycles = p.cycles :=
  work.keeps (I := fun r _ => r.cycles = p.cycles) (fun act h => act.cycles.trans h) rfl

/-- Instructions leave the count to the step. -/
theorem Effect.cycles {i : Instruction} {p q : Processor} {bus out : β}
    (effect : Effect i p bus q out) : q.cycles = p.cycles := by
  cases effect with
  | work h => exact h.cycles
  | status mask source _ => exact cycles_writeStatus ..
  | branch h address => exact h.cycles
  | restore h => exact (cycles_restoreStatus _).trans h.cycles
  | exchange address => rfl
  | trap exception _ => rfl

theorem step_cycles (p : Processor) (bus : β) :
    (p.step bus).processor.cycles = p.cycles + (p.step bus).cycles.toNat := by
  rcases step_effect p bus with ⟨hp, -⟩ | ⟨i, q, -, effect, hp⟩
  · rw [hp]; rfl
  · have hq : q.cycles = p.cycles := effect.cycles
    rw [hp, ← hq]; rfl

theorem requestInterrupt_cycles (p : Processor) (bus : β) :
    (p.requestInterrupt bus).processor.cycles =
      p.cycles + (p.requestInterrupt bus).cycles.toNat := by
  unfold requestInterrupt
  split <;> rfl

theorem requestFastInterrupt_cycles (p : Processor) (bus : β) :
    (p.requestFastInterrupt bus).processor.cycles =
      p.cycles + (p.requestFastInterrupt bus).cycles.toNat := by
  unfold requestFastInterrupt
  split <;> rfl

theorem reset_cycles (p : Processor) (bus : β) :
    (p.reset bus).processor.cycles = p.cycles + (p.reset bus).cycles.toNat := rfl

theorem bootDirect_cycles (p : Processor) (bus : β) :
    (p.bootDirect bus).processor.cycles = p.cycles + (p.bootDirect bus).cycles.toNat := rfl

end Count

end Processor

/-! ## Bounded buses -/

/-- A cost lies between two bounds. -/
def Cost.Within (low limit : Nat) (cost : UInt32) : Prop :=
  low ≤ cost.toNat ∧ cost.toNat ≤ limit

theorem Cost.Within.mono {low limit bound : Nat} {cost : UInt32} (h : Within low limit cost)
    (hb : limit ≤ bound) : Within low bound cost :=
  ⟨h.1, h.2.trans hb⟩

/-- Either way an access is made, its cost lies between two bounds. -/
structure Timing.Within (low limit : Nat) (timing : Timing) : Prop where
  nonseq : Cost.Within low limit timing.nonseq
  seq : Cost.Within low limit timing.seq

/-- The cost of every access of a bus lies between two bounds, and the costs of all accesses of a
step fit into 32 bits. -/
structure Bounded (β : Type) [Bus β] (low limit : Nat) : Prop where
  read : ∀ (bus : β) address width, (Bus.read bus address width).1.timing.Within low limit
  write : ∀ (bus : β) address value width, (Bus.write bus address value width).1.Within low limit
  fetch : ∀ (bus : β) address width, (Bus.fetch bus address width).1.timing.Within low limit
  fits : 35 * limit + 6 < 2 ^ 32

theorem Timing.Within.compares {low limit : Nat} {timing : Timing}
    (h : timing.Within low limit) : timing.Compares (.within low limit) timing :=
  ⟨⟨rfl, _, h.nonseq.1, h.nonseq.2, UInt32.ofNat_toNat.symm⟩,
    ⟨rfl, _, h.seq.1, h.seq.2, UInt32.ofNat_toNat.symm⟩⟩

section

variable {β : Type} [Bus β] {low limit : Nat}

theorem Bounded.sim (hB : Bounded β low limit) :
    BusSim (.within low limit) (Eq : β → β → Prop) where
  read := by
    rintro bus _ rfl address width
    exact ⟨rfl, (hB.read ..).compares, rfl⟩
  write := by
    rintro bus _ rfl address value width
    exact ⟨(hB.write ..).compares, rfl⟩
  fetch := by
    rintro bus _ rfl address width
    exact ⟨rfl, (hB.fetch ..).compares, rfl⟩
  latch := by
    rintro bus _ rfl word
    rfl

omit [Bus β] in
/-- What lies behind a cost is the cost itself where it fits into 32 bits. -/
theorem Outcome.Alike.cycles_within {l n : Nat} {outcome : Outcome β}
    (h : outcome.Alike (.within low limit) l n Eq outcome) (hn : n < 2 ^ 32) :
    Cost.Within l n outcome.cycles := by
  obtain ⟨-, k, hl, hk, hc⟩ := h.cycles
  have hfits : (UInt32.ofNat k).toNat = k := UInt32.toNat_ofNat_of_lt' (hk.trans_lt hn)
  rw [hc, Cost.Within, hfits]
  exact ⟨hl, hk⟩

namespace Processor

variable (hB : Bounded β low limit) (p : Processor) (bus : β)
include hB

theorem step_cycles_within : Cost.Within low (35 * limit + 6) (p.step bus).cycles :=
  (step_alike hB.sim (.refl p) rfl).cycles_within hB.fits

theorem requestInterrupt_cycles_within :
    Cost.Within 0 (4 + (limit + limit)) (p.requestInterrupt bus).cycles := by
  have hfits := hB.fits
  refine (requestInterrupt_alike hB.sim (.refl p) rfl).cycles_within ?_
  show 4 + (limit + limit) < 2 ^ 32
  omega

theorem reset_cycles_within : Cost.Within low (4 + (limit + limit)) (p.reset bus).cycles := by
  have hfits := hB.fits
  refine (reset_alike hB.sim (.refl p) rfl).cycles_within ?_
  show 4 + (limit + limit) < 2 ^ 32
  omega

theorem bootDirect_cycles_within :
    Cost.Within low (limit + limit) (p.bootDirect bus).cycles := by
  have hfits := hB.fits
  refine (bootDirect_alike hB.sim (.refl p) rfl).cycles_within ?_
  show limit + limit < 2 ^ 32
  omega

end Processor

end

end Handheld
