import Handheld.Proofs.Processor.Simulation

/-!
# Changes of the bus

The processor touches its bus only through the accesses of the interface, so a map between buses
that all accesses commute with commutes with everything the processor does.

1. `BusHom` is such a map; a bus and its image answer alike at the same costs (`BusHom.sim`).
2. `step_map` and `requestInterrupt_map` carry the entry points over.
-/

namespace Handheld

/-- A map between buses that every access commutes with. -/
structure BusHom {β γ : Type} [Bus β] [Bus γ] (φ : β → γ) : Prop where
  read : ∀ bus address width,
    Bus.read (φ bus) address width =
      ((Bus.read bus address width).1, φ (Bus.read bus address width).2)
  write : ∀ bus address value width,
    Bus.write (φ bus) address value width =
      ((Bus.write bus address value width).1, φ (Bus.write bus address value width).2)
  fetch : ∀ bus address width,
    Bus.fetch (φ bus) address width =
      ((Bus.fetch bus address width).1, φ (Bus.fetch bus address width).2)
  latch : ∀ bus word, Bus.latch (φ bus) word = φ (Bus.latch bus word)

/-- The same outcome on another bus. -/
def Outcome.map {β γ : Type} (φ : β → γ) (outcome : Outcome β) : Outcome γ :=
  ⟨outcome.processor, φ outcome.bus, outcome.cycles⟩

variable {β γ : Type} [Bus β] [Bus γ] {φ : β → γ}

theorem BusHom.sim (h : BusHom φ) : BusSim .eq fun bus bus' => bus' = φ bus where
  read := by
    rintro bus - rfl address width
    rw [h.read]
    exact ⟨rfl, .refl _, rfl⟩
  write := by
    rintro bus - rfl address value width
    rw [h.write]
    exact ⟨.refl _, rfl⟩
  fetch := by
    rintro bus - rfl address width
    rw [h.fetch]
    exact ⟨rfl, .refl _, rfl⟩
  latch := by
    rintro bus - rfl word
    exact h.latch bus word

/-- A relation that is a map carries its simulation over to the map. -/
theorem BusHom.of_sim {R : β → γ → Prop} (S : BusSim .eq R)
    (h : ∀ bus bus', R bus bus' ↔ bus' = φ bus) : BusHom φ where
  read bus address width := by
    have hr := S.read ((h bus _).mpr rfl) address width
    exact Prod.ext (congrArg₂ Read.mk hr.data hr.timing.eq) ((h _ _).mp hr.bus)
  write bus address value width := by
    have hw := S.write ((h bus _).mpr rfl) address value width
    exact Prod.ext hw.timing.eq ((h _ _).mp hw.bus)
  fetch bus address width := by
    have hf := S.fetch ((h bus _).mpr rfl) address width
    exact Prod.ext (congrArg₂ Read.mk hf.data hf.timing.eq) ((h _ _).mp hf.bus)
  latch bus word := (h _ _).mp (S.latch ((h bus _).mpr rfl) word)

omit [Bus β] [Bus γ] in
theorem Outcome.Alike.map_eq {a : Outcome β} {b : Outcome γ} {low high : Nat}
    (h : a.Alike .eq low high (fun bus bus' => bus' = φ bus) b) : b = a.map φ := by
  rcases b with ⟨q, bus, cycles⟩
  obtain ⟨hp, hb, hc⟩ := h
  simp only at hb hc
  rw [hb, ← hc, show q = a.processor from hp.eq]
  rfl

namespace Processor

/-- A step commutes with a change of the bus. -/
theorem step_map (h : BusHom φ) (p : Processor) (bus : β) :
    p.step (φ bus) = (p.step bus).map φ :=
  (step_alike h.sim (.refl p) rfl).map_eq

theorem requestInterrupt_map (h : BusHom φ) (p : Processor) (bus : β) :
    p.requestInterrupt (φ bus) = (p.requestInterrupt bus).map φ :=
  (requestInterrupt_alike h.sim (.refl p) rfl).map_eq

end Processor

end Handheld
