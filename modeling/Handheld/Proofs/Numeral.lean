import Mathlib.Data.Nat.Digits.Defs
import Mathlib.Tactic.SplitIfs
import Handheld.Numeral

/-!
# Numerals read back

A numeral is read as the number that its digits spell, whoever wrote it.

1. `digitValue?_eq_some_iff` says which characters are read as a digit: those whose upper-case form
   spells it.
2. `Spells` is the number of some digits in positional notation, and `Denotes` adds the optional
   plus sign. `read?_eq_some_iff` says that these are the numerals that are read.
3. `denotes_decimal` and `denotes_hex` say that a number that was spelled denotes itself, in
   hexadecimal whatever the case and the count of digits.
-/

namespace Handheld.Numeral

/-! ## Digits -/

theorem toNat_digit {value : Nat} (h : value < 16) :
    (digit value).toNat = if value < 10 then 48 + value else 55 + value := by
  have hall : ∀ value : Fin 16,
      (digit value).toNat = if value.val < 10 then 48 + value.val else 55 + value.val := by
    decide
  exact hall ⟨value, h⟩

theorem toNat_toUpper (c : Char) :
    c.toUpper.toNat = if 97 ≤ c.toNat ∧ c.toNat ≤ 122 then c.toNat - 32 else c.toNat := by
  have hletter : ('a'.val ≤ c.val ∧ c.val ≤ 'z'.val) ↔ 97 ≤ c.toNat ∧ c.toNat ≤ 122 := Iff.rfl
  unfold Char.toUpper
  by_cases h : 97 ≤ c.toNat ∧ c.toNat ≤ 122
  · have hstep : ('A'.val - 'a'.val).toNat = 2 ^ 32 - 32 := by decide
    have hlow : 97 ≤ c.val.toNat := h.1
    have hhigh : c.val.toNat ≤ 122 := h.2
    rw [dif_pos (hletter.mpr h), if_pos h, Char.toNat_mk, UInt32.toNat_add, hstep, ← Char.toNat_val]
    omega
  · rw [dif_neg (hletter.not.mpr h), if_neg h]

theorem toUpper_digit {value : Nat} (h : value < 16) : (digit value).toUpper = digit value := by
  rw [← Char.toNat_inj, toNat_toUpper, toNat_digit h]
  split_ifs <;> omega

theorem toUpper_toUpper (c : Char) : c.toUpper.toUpper = c.toUpper := by
  rw [← Char.toNat_inj, toNat_toUpper, toNat_toUpper]
  split_ifs <;> omega

/-- A character is read as a digit if its upper-case form is how the digit is spelled. -/
theorem digitValue?_eq_some_iff {radix value : Nat} (hr : radix ≤ 16) {c : Char} :
    digitValue? radix c = some value ↔ value < radix ∧ c.toUpper = digit value := by
  have hdigit : ('0' ≤ c ∧ c ≤ '9') ↔ 48 ≤ c.toNat ∧ c.toNat ≤ 57 := Iff.rfl
  have hupper : ('A' ≤ c ∧ c ≤ 'F') ↔ 65 ≤ c.toNat ∧ c.toNat ≤ 70 := Iff.rfl
  have hlower : ('a' ≤ c ∧ c ≤ 'f') ↔ 97 ≤ c.toNat ∧ c.toNat ≤ 102 := Iff.rfl
  unfold digitValue?
  simp only [hdigit, hupper, hlower, Option.ite_none_right_eq_some, Option.some.injEq]
  constructor
  · rintro ⟨hlt, rfl⟩
    refine ⟨hlt, ?_⟩
    rw [← Char.toNat_inj, toNat_toUpper, toNat_digit (hlt.trans_le hr)]
    split_ifs at hlt ⊢ <;> omega
  · rintro ⟨hlt, hc⟩
    rw [← Char.toNat_inj, toNat_toUpper, toNat_digit (hlt.trans_le hr)] at hc
    split_ifs at hc ⊢ <;> omega

/-! ## Positional notation -/

/-- A text shows some digits of a radix, in either case. -/
structure ShowsDigits (radix : Nat) (text : List Char) (digits : List Nat) : Prop where
  lt_radix : ∀ value ∈ digits, value < radix
  toUpper_eq : text.map Char.toUpper = digits.map digit

/-- A text spells a number in a radix, the most significant digit first. -/
def Spells (radix : Nat) (text : List Char) (value : Nat) : Prop :=
  ∃ digits, ShowsDigits radix text digits ∧ Nat.ofDigits radix digits.reverse = value

/-- A text denotes a number if it spells the number with one digit or more, after a plus sign or
without one. -/
def Denotes (radix : Nat) (text : List Char) (value : Nat) : Prop :=
  ∃ digits, (text = digits ∨ text = '+' :: digits) ∧ digits ≠ [] ∧ Spells radix digits value

theorem spells_nil (radix : Nat) : Spells radix [] 0 :=
  ⟨[], ⟨List.forall_mem_nil _, rfl⟩, rfl⟩

/-- Another digit makes the others worth more. -/
theorem Spells.snoc {radix high low : Nat} {text : List Char} (h : Spells radix text high)
    (hr : radix ≤ 16) (hlow : low < radix) :
    Spells radix (text ++ [digit low]) (high * radix + low) := by
  obtain ⟨digits, ⟨hlt, htext⟩, hvalue⟩ := h
  refine ⟨digits ++ [low], ⟨?_, ?_⟩, ?_⟩
  · exact List.forall_mem_append.mpr ⟨hlt, List.forall_mem_singleton.mpr hlow⟩
  · rw [List.map_append, List.map_append, htext, List.map_singleton, List.map_singleton,
      toUpper_digit (hlow.trans_le hr)]
  · rw [List.reverse_append, List.reverse_singleton, List.singleton_append, Nat.ofDigits_cons,
      hvalue, Nat.mul_comm, Nat.add_comm]

/-- Letters may be written in either case. -/
theorem Spells.of_toUpper {radix value : Nat} {text upper : List Char}
    (h : Spells radix upper value) (ht : text.map Char.toUpper = upper) :
    Spells radix text value := by
  obtain ⟨digits, ⟨hlt, hupper⟩, hvalue⟩ := h
  refine ⟨digits, ⟨hlt, ?_⟩, hvalue⟩
  have hidem : Char.toUpper ∘ Char.toUpper = Char.toUpper := funext toUpper_toUpper
  rw [← hupper, ← ht, List.map_map, hidem]

/-- Every character of a spelled number shows a digit. -/
theorem Spells.exists_digit {radix value : Nat} {text : List Char} (h : Spells radix text value)
    {c : Char} (hc : c ∈ text) : ∃ value < radix, c.toUpper = digit value := by
  obtain ⟨digits, ⟨hlt, htext⟩, -⟩ := h
  have hmem : c.toUpper ∈ digits.map digit := htext ▸ List.mem_map_of_mem hc
  obtain ⟨value, hvalue, heq⟩ := List.mem_map.mp hmem
  exact ⟨value, hlt value hvalue, heq.symm⟩

theorem spells_decimal (value : Nat) : Spells 10 (decimal value) value := by
  fun_induction decimal value with
  | case1 value h =>
    have hsnoc := (spells_nil 10).snoc (by decide) h
    rwa [Nat.zero_mul, Nat.zero_add] at hsnoc
  | case2 value h ih =>
    have hsnoc := ih.snoc (by decide) (Nat.mod_lt value (by decide))
    rwa [Nat.div_add_mod'] at hsnoc

theorem spells_hex (count : Nat) : ∀ value, Spells 16 (hex count value) (value % 16 ^ count) := by
  induction count with
  | zero =>
    intro value
    rw [Nat.pow_zero, Nat.mod_one]
    exact spells_nil 16
  | succ count ih =>
    intro value
    have hsnoc := (ih (value / 16)).snoc (by decide) (Nat.mod_lt value (by decide))
    rwa [Nat.mul_comm, Nat.add_comm, ← Nat.mod_mul, ← Nat.pow_succ'] at hsnoc

theorem denotes_decimal (value : Nat) : Denotes 10 (decimal value) value := by
  refine ⟨decimal value, .inl rfl, ?_, spells_decimal value⟩
  unfold decimal
  split_ifs
  · exact List.cons_ne_nil _ _
  · exact List.concat_ne_nil _ _

/-- A number in hexadecimal is denoted by as many digits as hold it, in either case. -/
theorem denotes_hex {count value : Nat} {text : List Char} (hcount : 0 < count)
    (hfits : value < 16 ^ count) (htext : text.map Char.toUpper = hex count value) :
    Denotes 16 text value := by
  have hspells := spells_hex count value
  rw [Nat.mod_eq_of_lt hfits] at hspells
  refine ⟨text, .inl rfl, ?_, hspells.of_toUpper htext⟩
  rintro rfl
  cases count with
  | zero => cases hcount
  | succ count => exact absurd htext.symm (List.concat_ne_nil _ _)

theorem map_toUpper_hex (count : Nat) :
    ∀ value, (hex count value).map Char.toUpper = hex count value := by
  induction count with
  | zero => exact fun _ => rfl
  | succ count ih =>
    intro value
    have hlast : (digit (value % 16)).toUpper = digit (value % 16) :=
      toUpper_digit (Nat.mod_lt value (by decide))
    unfold hex
    rw [List.map_append, ih, List.map_singleton, hlast]

/-! ## Reading -/

/-- The digits that are read are those shown, each of which makes the ones before worth more. -/
theorem readDigits?_eq_some_iff {radix : Nat} (hr : radix ≤ 16) (text : List Char) :
    ∀ {sofar value : Nat}, readDigits? radix sofar text = some value ↔
      ∃ digits, ShowsDigits radix text digits ∧
        digits.foldl (fun sofar digit => digit + radix * sofar) sofar = value := by
  induction text with
  | nil =>
    intro sofar value
    constructor
    · intro h
      exact ⟨[], ⟨List.forall_mem_nil _, rfl⟩, Option.some.inj h⟩
    · rintro ⟨digits, ⟨-, htext⟩, rfl⟩
      rw [List.map_eq_nil_iff.mp htext.symm]
      rfl
  | cons c rest ih =>
    intro sofar value
    unfold readDigits?
    constructor
    · intro h
      cases hc : digitValue? radix c with
      | none => rw [hc] at h; cases h
      | some first =>
        rw [hc] at h
        obtain ⟨hlt, hfirst⟩ := (digitValue?_eq_some_iff hr).mp hc
        obtain ⟨digits, ⟨hall, hrest⟩, hvalue⟩ := ih.mp h
        refine ⟨first :: digits, ⟨List.forall_mem_cons.mpr ⟨hlt, hall⟩, ?_⟩, ?_⟩
        · rw [List.map_cons, List.map_cons, hfirst, hrest]
        · rw [List.foldl_cons, ← hvalue, Nat.add_comm, Nat.mul_comm]
    · rintro ⟨digits, ⟨hall, htext⟩, rfl⟩
      obtain ⟨first, others, rfl, hfirst, hrest⟩ := List.map_eq_cons_iff.mp htext.symm
      obtain ⟨hlt, hothers⟩ := List.forall_mem_cons.mp hall
      rw [(digitValue?_eq_some_iff hr).mpr ⟨hlt, hfirst.symm⟩]
      refine ih.mpr ⟨others, ⟨hothers, hrest.symm⟩, ?_⟩
      rw [List.foldl_cons, Nat.add_comm, Nat.mul_comm]

theorem readUnsigned?_eq_some_iff {radix value : Nat} (hr : radix ≤ 16) {text : List Char} :
    readUnsigned? radix text = some value ↔ text ≠ [] ∧ Spells radix text value := by
  cases text with
  | nil =>
    constructor
    · intro h
      cases h
    · intro h
      exact absurd rfl h.1
  | cons c rest =>
    have hspells : Spells radix (c :: rest) value ↔ ∃ digits, ShowsDigits radix (c :: rest) digits ∧
        digits.foldl (fun sofar digit => digit + radix * sofar) 0 = value := by
      unfold Spells
      simp only [Nat.ofDigits_eq_foldr, List.foldr_reverse, Nat.cast_id]
    rw [hspells, ← readDigits?_eq_some_iff hr]
    exact ⟨fun h => ⟨List.cons_ne_nil _ _, h⟩, And.right⟩

/-- A sign is no digit. -/
theorem not_spells_plus {radix value : Nat} (hr : radix ≤ 16) (text : List Char) :
    ¬ Spells radix ('+' :: text) value := by
  intro h
  obtain ⟨value, hlt, hc⟩ := h.exists_digit List.mem_cons_self
  have hplus : '+'.toUpper.toNat = 43 := rfl
  rw [hc, toNat_digit (hlt.trans_le hr)] at hplus
  split_ifs at hplus <;> omega

/-- Just the texts that denote a number are read, as that number. -/
theorem read?_eq_some_iff {radix value : Nat} (hr : radix ≤ 16) {text : List Char} :
    read? radix text = some value ↔ Denotes radix text value := by
  unfold read?
  split
  · rename_i rest
    rw [readUnsigned?_eq_some_iff hr]
    constructor
    · exact fun h => ⟨rest, .inr rfl, h⟩
    · rintro ⟨digits, rfl | heq, hdigits⟩
      · exact absurd hdigits.2 (not_spells_plus hr rest)
      · cases heq
        exact hdigits
  · rename_i hplus
    rw [readUnsigned?_eq_some_iff hr]
    constructor
    · exact fun h => ⟨text, .inl rfl, h⟩
    · rintro ⟨digits, rfl | rfl, hdigits⟩
      · exact hdigits
      · exact absurd rfl (hplus digits)

end Handheld.Numeral
