import Handheld.Machine.Query
import Handheld.Proofs.Numeral

/-!
# Addresses in paths

What the machine prints as a number can be put into a path, where it is read as an address.

1. `Names` says which texts name an address: decimal numerals, and hexadecimal ones after their
   mark. `parseAddress?_eq_some_iff` says that these are the texts that are read.
2. `Printed` are the texts of the values that hold an address, and the hexadecimal numerals of it in
   whatever case and length, and `Printed.names` says that they name the address.
3. `printed_values_address_memory` says that they select the byte of memory at it.
-/

namespace Handheld

/-! ## Texts that name an address -/

/-- A text names an address if it denotes its number, in hexadecimal after a mark and otherwise in
decimal. -/
inductive Names (address : Word) : List Char → Prop
  | decimal {text : List Char} (h : Numeral.Denotes 10 text address.toNat) : Names address text
  | hexadecimal {mark : Char} {text : List Char} (hmark : mark = 'x' ∨ mark = 'X')
      (h : Numeral.Denotes 16 text address.toNat) : Names address ('0' :: mark :: text)

theorem address?_eq_some_iff {number : Nat} {address : Word} :
    address? number = some address ↔ number = address.toNat := by
  unfold address?
  constructor
  · intro h
    split_ifs at h with hlt
    cases h
    exact (UInt32.toNat_ofNat_of_lt' hlt).symm
  · rintro rfl
    rw [if_pos address.toNat_lt, UInt32.ofNat_toNat]

theorem bind_address?_eq_some_iff {radix : Nat} (hr : radix ≤ 16) {text : List Char}
    {address : Word} :
    (Numeral.read? radix text).bind address? = some address ↔
      Numeral.Denotes radix text address.toNat := by
  rw [Option.bind_eq_some_iff]
  simp only [address?_eq_some_iff, Numeral.read?_eq_some_iff hr, exists_eq_right]

theorem marked_eq_some_iff {text digits : List Char} :
    (after? ['0', 'x'] text <|> after? ['0', 'X'] text) = some digits ↔
      ∃ mark, (mark = 'x' ∨ mark = 'X') ∧ text = '0' :: mark :: digits := by
  constructor
  · intro h
    rcases (Option.orElse_eq_some _ _ _).mp h with h | ⟨-, h⟩
    · exact ⟨'x', .inl rfl, after?_eq_some_iff.mp h⟩
    · exact ⟨'X', .inr rfl, after?_eq_some_iff.mp h⟩
  · rintro ⟨mark, rfl | rfl, rfl⟩
    · rfl
    · rfl

/-- A mark is no decimal digit, so the two kinds of numerals are apart. -/
theorem not_denotes_marked {mark : Char} (hmark : mark = 'x' ∨ mark = 'X') (text : List Char)
    (value : Nat) : ¬ Numeral.Denotes 10 ('0' :: mark :: text) value := by
  rintro ⟨digits, rfl | hsigned, -, h⟩
  · obtain ⟨value, hlt, hdigit⟩ := h.exists_digit (List.mem_cons_of_mem _ List.mem_cons_self)
    have hletter : mark.toUpper.toNat = 88 := by
      rcases hmark with rfl | rfl
      · rfl
      · rfl
    rw [hdigit, Numeral.toNat_digit (hlt.trans (by decide)), if_pos hlt] at hletter
    omega
  · exact absurd (List.cons.inj hsigned).1 (by decide)

/-- Just the texts that name an address are read as it. -/
theorem parseAddress?_eq_some_iff {text : List Char} {address : Word} :
    parseAddress? text = some address ↔ Names address text := by
  unfold parseAddress?
  split
  · next digits hmarked =>
    obtain ⟨mark, hmark, rfl⟩ := marked_eq_some_iff.mp hmarked
    rw [bind_address?_eq_some_iff (by decide)]
    constructor
    · exact .hexadecimal hmark
    · intro h
      cases h with
      | decimal h => exact absurd h (not_denotes_marked hmark _ _)
      | hexadecimal _ h => exact h
  · next hplain =>
    rw [bind_address?_eq_some_iff (by decide)]
    constructor
    · exact .decimal
    · intro h
      cases h with
      | decimal h => exact h
      | hexadecimal hmark _ =>
        rw [marked_eq_some_iff.mpr ⟨_, hmark, rfl⟩] at hplain
        cases hplain

/-! ## Printed addresses -/

/-- The unsigned number that a value holds, if it holds one. -/
def Value.number? : Value → Option Nat
  | .byte value => some value.toNat
  | .halfword value => some value.toNat
  | .word value => some value.toNat
  | .count value => some value
  | _ => none

/-- The texts that an address is printed as: those of the values that hold it, of which a count is
in decimal, and its digits in hexadecimal after either mark, in either case and with any number of
leading zeros. -/
inductive Printed (address : Word) : String → Prop
  | value {value : Value} (h : value.number? = some address.toNat) : Printed address value.toText
  | hexadecimal {mark : Char} {count : Nat} {digits : List Char} (hmark : mark = 'x' ∨ mark = 'X')
      (hcount : 0 < count) (hfits : address.toNat < 16 ^ count)
      (hdigits : digits.map Char.toUpper = Numeral.hex count address.toNat) :
      Printed address (String.ofList ('0' :: mark :: digits))

theorem names_hexText {count : Nat} {address : Word} (hcount : 0 < count)
    (hfits : address.toNat < 16 ^ count) :
    Names address (Value.hexText count address.toNat).toList := by
  rw [Value.hexText, String.toList_ofList]
  exact .hexadecimal (.inl rfl) (Numeral.denotes_hex hcount hfits (Numeral.map_toUpper_hex ..))

theorem Value.names_toText {value : Value} {address : Word}
    (h : value.number? = some address.toNat) : Names address value.toText.toList := by
  cases value with
  | byte held =>
    have hheld : held.toNat = address.toNat := Option.some.inj h
    rw [Value.toText, hheld]
    exact names_hexText (by decide) (hheld ▸ held.toNat_lt)
  | halfword held =>
    have hheld : held.toNat = address.toNat := Option.some.inj h
    rw [Value.toText, hheld]
    exact names_hexText (by decide) (hheld ▸ held.toNat_lt)
  | word held =>
    have hheld : held.toNat = address.toNat := Option.some.inj h
    rw [Value.toText, hheld]
    exact names_hexText (by decide) address.toNat_lt
  | count held =>
    have hheld : held = address.toNat := Option.some.inj h
    rw [Value.toText, hheld, Numeral.text, String.toList_ofList]
    exact .decimal (Numeral.denotes_decimal _)
  | _ => cases h

theorem Printed.names {address : Word} {text : String} (h : Printed address text) :
    Names address text.toList := by
  cases h with
  | value h => exact Value.names_toText h
  | hexadecimal hmark hcount hfits hdigits =>
    rw [String.toList_ofList]
    exact .hexadecimal hmark (Numeral.denotes_hex hcount hfits hdigits)

/-! ## Queries -/

/-- A path into memory shows the byte at the address that follows. -/
theorem Machine.query_memory {P : Type} [Peripherals P] (m : Machine P) (text : String) :
    m.query ("memory." ++ text) =
      ((parseAddress? text.toList).bind m.board.peek).map Value.byte := by
  have hmemory : after? "memory.".toList ("memory." ++ text).toList = some text.toList :=
    after?_eq_some_iff.mpr String.toList_append
  have hcpu : after? "cpu.".toList ("memory." ++ text).toList = none := by
    rw [String.toList_append]
    rfl
  unfold query
  rw [hcpu, hmemory]

/-- **Printed values address memory.** A text is read as an address just if it names it. So the text
of every value that holds an address is read as the address, be it in hexadecimal or in decimal, and
so are its digits in hexadecimal after either mark, in either case and with any number of leading
zeros. After `memory.` each of these texts asks a machine for the byte that a look at memory shows
at the address, if it shows one. -/
theorem printed_values_address_memory (address : Word) :
    (∀ text : String, parseAddress? text.toList = some address ↔ Names address text.toList) ∧
    ∀ text : String, Printed address text →
      parseAddress? text.toList = some address ∧
      ∀ {P : Type} [Peripherals P] (m : Machine P),
        m.query ("memory." ++ text) = (m.board.peek address).map Value.byte := by
  refine ⟨fun text => parseAddress?_eq_some_iff, fun text hprinted => ?_⟩
  have hread : parseAddress? text.toList = some address :=
    parseAddress?_eq_some_iff.mpr hprinted.names
  refine ⟨hread, fun m => ?_⟩
  rw [m.query_memory, hread, Option.bind_some]

/-- A byte of the cartridge, by the text of its address as a word and by another with letters in
lower case and zeros before them. -/
theorem printed_values_address_memory_letter :
    let dump : ByteArray := ⟨(List.replicate 10 (0 : UInt8) ++ [7]).toArray⟩
    ∃ m : Machine Detached, Machine.build ⟨.empty, dump, .direct⟩ ⟨⟩ = .ok m ∧
      Printed 0x0800000A "0x0800000A" ∧ Printed 0x0800000A "0X000800000a" ∧
      m.query ("memory." ++ "0x0800000A") = some (.byte 7) ∧
      m.query ("memory." ++ "0X000800000a") = some (.byte 7) := by
  intro dump
  have hshown : ((Machine.build ⟨.empty, dump, .direct⟩ (⟨⟩ : Detached)).toOption.bind fun m =>
      m.board.peek 0x0800000A) = some 7 := by decide +kernel
  have hword : Printed 0x0800000A "0x0800000A" := by
    have htext : (Value.word 0x0800000A).toText = "0x0800000A" := by decide +kernel
    exact htext ▸ .value rfl
  have hletter : Printed 0x0800000A "0X000800000a" := by
    have hdigits : "000800000a".toList.map Char.toUpper = Numeral.hex 10 0x0800000A := by
      decide +kernel
    exact .hexadecimal (.inr rfl) (by decide) (by decide) hdigits
  obtain ⟨-, hall⟩ := printed_values_address_memory 0x0800000A
  cases hbuild : Machine.build ⟨.empty, dump, .direct⟩ (⟨⟩ : Detached) with
  | error e =>
    rw [hbuild] at hshown
    cases hshown
  | ok m =>
    rw [hbuild] at hshown
    have hpeek : m.board.peek 0x0800000A = some 7 := hshown
    refine ⟨m, rfl, hword, hletter, ?_, ?_⟩
    · rw [(hall _ hword).2 m, hpeek]
      rfl
    · rw [(hall _ hletter).2 m, hpeek]
      rfl

end Handheld
