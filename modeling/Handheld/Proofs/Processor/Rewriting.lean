import Handheld.Proofs.Processor.State

/-!
# Registers written

What an instruction writes into registers is a partial map from the registers in view to words.

1. `Rewritten` says that a processor is another one with the registers of such a map written, and
   that nothing else of it has changed.
2. A single register written is the least of these (`rewritten_set`), and `Rewritten.trans` puts two
   one after the other, of which the later wins.
-/

namespace Handheld.Processor

/-- `q` is `p` with some registers of the bank in view written. All other storage, and all that is
not a register, is as it was. -/
structure Rewritten (writes : Register → Option Word) (p q : Processor) : Prop where
  get : ∀ register, q.get register = (writes register).getD (p.get register)
  general : ∀ place : Fin 31,
    (∀ register, writes register ≠ none → p.registers.bank.physical register.val ≠ place) →
      q.registers.general.get place = p.registers.general.get place
  saved : q.registers.saved = p.registers.saved
  bank : q.registers.bank = p.registers.bank
  rest : q = { p with registers := q.registers }

variable {writes later : Register → Option Word} {p q r : Processor}

theorem rewritten_refl (p : Processor) : Rewritten (fun _ => none) p p :=
  ⟨fun _ => rfl, fun _ _ => rfl, rfl, rfl, rfl⟩

theorem rewritten_set (p : Processor) (register : Register) (value : Word) :
    Rewritten (fun wanted => if wanted = register then some value else none) p
      (p.set register value) where
  get wanted := by
    rw [get_set]
    split <;> rfl
  general place h :=
    p.registers.general_write_of_ne value p.registers.bank register.val
      (h register (by simp))
  saved := saved_set ..
  bank := bank_set ..
  rest := rfl

namespace Rewritten

theorem congr (h : Rewritten writes p q) (hw : ∀ register, later register = writes register) :
    Rewritten later p q := by
  rw [funext hw]
  exact h

theorem status (h : Rewritten writes p q) : q.status = p.status := by
  rw [h.rest]

theorem thumb (h : Rewritten writes p q) : q.thumb = p.thumb := by
  rw [h.rest]
  rfl

theorem width (h : Rewritten writes p q) : q.width = p.width := by
  rw [h.rest]
  rfl

/-- Of two writes of a register the later one stays. -/
theorem trans (h : Rewritten writes p q) (h' : Rewritten later q r) :
    Rewritten (fun register => (later register).or (writes register)) p r where
  get register := by
    rw [h'.get, h.get]
    cases later register <;> rfl
  general place hplace := by
    have hlater : ∀ register, later register ≠ none →
        q.registers.bank.physical register.val ≠ place := by
      intro register hl
      rw [h.bank]
      exact hplace register fun he => hl (Option.or_eq_none_iff.mp he).1
    rw [h'.general place hlater]
    exact h.general place fun register hw => hplace register fun he =>
      hw (Option.or_eq_none_iff.mp he).2
  saved := h'.saved.trans h.saved
  bank := h'.bank.trans h.bank
  rest := by
    rw [h'.rest, h.rest]

end Rewritten

end Handheld.Processor
