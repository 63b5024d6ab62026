import Mathlib.Algebra.BigOperators.Intervals
import Mathlib.Data.List.TakeWhile
import Handheld.Proofs.Machine.Bounds

/-!
# Headers

A header is read from thirty bytes of a cartridge, past the end of the dump if need be, and one of
them checks the others.

1. `cell` is a byte of an image or of a dump, all ones past the end, so that padding does not show.
   `parse?_congr` says that a header is read from the bytes at its `places` alone.
2. `Spells` is the text that a field stands for, and `spells_printable` says that it is read.
3. `valid_iff` is the check as a `total`, which notices a change of a single byte
   (`total_of_single`).
4. `header_describes` puts all together.
-/

namespace Handheld

namespace Header

/-! ## Bytes -/

/-- A byte of an image, all ones past its end. -/
def cell (image : ByteArray) (index : Nat) : UInt8 :=
  if h : index < image.size then image[index] else 0xFF

/-- The places of the bytes that a header is read from. -/
def places : Finset Nat := Finset.Icc 0xA0 0xBD

/-- The bytes from one place up to another. -/
def field (bytes : Nat → UInt8) (start stop : Nat) : List UInt8 :=
  (List.range (stop - start)).map fun index => bytes (start + index)

theorem field_congr {first second : Nat → UInt8} {start stop : Nat}
    (h : ∀ index, start ≤ index → index < stop → first index = second index) :
    field first start stop = field second start stop := by
  refine List.map_congr_left fun index hindex => h _ (Nat.le_add_right ..) ?_
  have := List.mem_range.mp hindex
  omega

theorem byteAt_eq_cell {size : Nat} (image : Memory size) {index : Nat} (h : index < size) :
    image.byteAt index = cell image.bytes index := by
  have hinside : index < image.bytes.size := by
    rw [image.size_bytes]
    exact h
  rw [Memory.byteAt, dif_pos hinside, cell, dif_pos hinside]

/-- The header that some bytes hold. -/
def ofBytes (bytes : Nat → UInt8) : Header where
  title := printable (field bytes 0xA0 0xAC)
  code := "AGB-" ++ printable (field bytes 0xAC 0xB0)
  stored := bytes 0xBD
  computed := check (field bytes 0xA0 0xBD)

theorem ofBytes_congr {first second : Nat → UInt8}
    (h : ∀ index ∈ places, first index = second index) : ofBytes first = ofBytes second := by
  have hplaces (index : Nat) (hstart : 0xA0 ≤ index) (hstop : index ≤ 0xBD) :
      first index = second index := h index (Finset.mem_Icc.mpr ⟨hstart, hstop⟩)
  have htitle : field first 0xA0 0xAC = field second 0xA0 0xAC :=
    field_congr fun index _ _ => hplaces index (by omega) (by omega)
  have hcode : field first 0xAC 0xB0 = field second 0xAC 0xB0 :=
    field_congr fun index _ _ => hplaces index (by omega) (by omega)
  have hchecked : field first 0xA0 0xBD = field second 0xA0 0xBD :=
    field_congr fun index _ _ => hplaces index (by omega) (by omega)
  unfold ofBytes
  rw [htitle, hcode, hchecked, hplaces 0xBD (by decide) (by decide)]

/-- An image that is long enough holds the header of its bytes. -/
theorem parse?_eq {image : ByteArray} (h : extent ≤ image.size) :
    parse? image = some (ofBytes (cell image)) := by
  have hbytes : ofMemory (⟨image, rfl⟩ : Memory image.size) = ofBytes (cell image) := by
    refine ofBytes_congr fun index hindex => byteAt_eq_cell _ ?_
    have := (Finset.mem_Icc.mp hindex).2
    unfold extent at h
    omega
  rw [parse?, if_pos h, hbytes]

/-- The padding of a cartridge is what its dump has past the end. -/
theorem cell_of_ofDump {dump : ByteArray} {rom : Rom} (h : Rom.ofDump dump = .ok rom) {index : Nat}
    (hindex : index < rom.size) : cell rom.image.bytes index = cell dump index := by
  rw [← byteAt_eq_cell rom.image hindex]
  unfold Rom.ofDump at h
  split_ifs at h with hempty hmax
  cases h
  exact Rom.byteAt_padded (Rom.le_mappedSize _) hindex

theorem parse?_of_ofDump {dump : ByteArray} {rom : Rom} (h : Rom.ofDump dump = .ok rom) :
    parse? rom.image.bytes = some (ofBytes (cell dump)) := by
  have hsize : extent ≤ rom.size := Nat.le_trans (by decide) rom.size_ge
  rw [parse?_eq (rom.image.size_bytes.symm ▸ hsize)]
  refine congrArg some (ofBytes_congr fun index hindex => cell_of_ofDump h ?_)
  exact (Nat.lt_succ_of_le (Finset.mem_Icc.mp hindex).2).trans_le hsize

/-! ## Text -/

/-- Whether a byte is printable. -/
def IsPrintable (code : Nat) : Prop := 0x20 ≤ code ∧ code < 0x7F

instance : DecidablePred IsPrintable := fun _ => inferInstanceAs (Decidable (_ ∧ _))

/-- A character stands for a byte if it has its code, or is a question mark where that is not
printable. -/
def Shows (byte : UInt8) (char : Char) : Prop :=
  if IsPrintable byte.toNat then char.toNat = byte.toNat else char = '?'

/-- The text of a field: its bytes up to the first zero, character by character. -/
structure Spells (bytes : List UInt8) (text : String) : Prop where
  printable : ∀ char ∈ text.toList, IsPrintable char.toNat
  spelt : ∃ before after, bytes = before ++ after ∧ 0 ∉ before ∧
    (∀ byte ∈ after.head?, byte = 0) ∧ List.Forall₂ Shows before text.toList

theorem Shows.isPrintable {byte : UInt8} {char : Char} (h : Shows byte char) :
    IsPrintable char.toNat := by
  unfold Shows at h
  split_ifs at h with hbyte
  · rwa [h]
  · rw [h]
    decide

/-- A text is no longer than its field. -/
theorem Spells.length_le {bytes : List UInt8} {text : String} (h : Spells bytes text) :
    text.length ≤ bytes.length := by
  obtain ⟨before, after, rfl, -, -, hshows⟩ := h.spelt
  rw [← String.length_toList, ← hshows.length_eq, List.length_append]
  exact Nat.le_add_right ..

theorem toNat_ofNat {code : Nat} (h : code < 0x7F) : (Char.ofNat code).toNat = code := by
  have hvalid : code.isValidChar := .inl (by omega)
  rw [Char.ofNat, dif_pos hvalid]
  rfl

theorem shows_ite (byte : UInt8) :
    Shows byte (if 0x20 ≤ byte ∧ byte < 0x7F then Char.ofNat byte.toNat else '?') := by
  have hiff : (0x20 ≤ byte ∧ byte < 0x7F) ↔ IsPrintable byte.toNat := Iff.rfl
  by_cases h : IsPrintable byte.toNat
  · rw [if_pos (hiff.mpr h), Shows, if_pos h]
    exact toNat_ofNat h.2
  · rw [if_neg (hiff.not.mpr h), Shows, if_neg h]

/-- The text read from some bytes is the one that they spell. -/
theorem spells_printable (bytes : List UInt8) : Spells bytes (printable bytes) := by
  have htext : (printable bytes).toList = (bytes.takeWhile (· != 0)).map fun byte =>
      if 0x20 ≤ byte ∧ byte < 0x7F then Char.ofNat byte.toNat else '?' :=
    String.toList_ofList
  constructor
  · intro char hchar
    rw [htext] at hchar
    obtain ⟨byte, -, rfl⟩ := List.mem_map.mp hchar
    exact (shows_ite byte).isPrintable
  · refine ⟨bytes.takeWhile (· != 0), bytes.dropWhile (· != 0),
      List.takeWhile_append_dropWhile.symm, ?_, ?_, ?_⟩
    · intro hmem
      simpa using List.mem_takeWhile_imp hmem
    · intro byte hbyte
      have hfind : bytes.find? (· == 0) = (bytes.dropWhile (· != 0)).head? :=
        List.find?_eq_head?_dropWhile_not ..
      rw [← hfind] at hbyte
      simpa using List.find?_some hbyte
    · rw [htext, List.forall₂_map_right_iff]
      exact List.forall₂_same.mpr fun byte _ => shows_ite byte

/-! ## The check -/

/-- The sum of the bytes that a header is read from. -/
def total (bytes : Nat → UInt8) : Nat :=
  ∑ index ∈ places, (bytes index).toNat

/-- What is taken away is missing from the rest. -/
theorem foldl_sub_modEq (bytes : List UInt8) : ∀ start : UInt8,
    (bytes.foldl (fun sofar byte => sofar - byte) start).toNat + (bytes.map UInt8.toNat).sum ≡
      start.toNat [MOD 256] := by
  induction bytes with
  | nil => exact fun _ => rfl
  | cons byte rest ih =>
    intro start
    have hrest := ih (start - byte)
    have hbyte := byte.toNat_lt
    rw [List.foldl_cons, List.map_cons, List.sum_cons]
    rw [UInt8.toNat_sub] at hrest
    unfold Nat.ModEq at hrest ⊢
    omega

theorem sum_field (bytes : Nat → UInt8) (start stop : Nat) :
    ((field bytes start stop).map UInt8.toNat).sum =
      ∑ index ∈ Finset.Ico start stop, (bytes index).toNat := by
  rw [Finset.sum_Ico_eq_sum_range, field, List.map_map]
  rfl

theorem total_eq (bytes : Nat → UInt8) :
    total bytes = ((field bytes 0xA0 0xBD).map UInt8.toNat).sum + (bytes 0xBD).toNat := by
  rw [sum_field]
  exact Finset.sum_Ico_succ_top (by decide) _

/-- The check byte is right if it makes the sum what it should be. -/
theorem valid_iff (bytes : Nat → UInt8) :
    (ofBytes bytes).valid = true ↔ total bytes + 0x19 ≡ 0 [MOD 256] := by
  have hcheck := foldl_sub_modEq (field bytes 0xA0 0xBD) 0
  have hstored := (bytes 0xBD).toNat_lt
  have hvalid : (ofBytes bytes).valid = true ↔
      bytes 0xBD = check (field bytes 0xA0 0xBD) := beq_iff_eq
  rw [hvalid, ← UInt8.toNat_inj, check, UInt8.toNat_sub, total_eq]
  unfold Nat.ModEq at hcheck ⊢
  change _ = 0 at hcheck
  change _ = (2 ^ 8 - 25 + _) % 2 ^ 8 ↔ _
  omega

/-- A sum notices a change of a single byte. -/
theorem total_of_single {first second : Nat → UInt8} {place : Nat} (hplace : place ∈ places)
    (hne : first place ≠ second place)
    (h : ∀ index ∈ places, index ≠ place → first index = second index) :
    ¬ total first ≡ total second [MOD 256] := by
  have hrest : ∑ index ∈ places.erase place, (first index).toNat =
      ∑ index ∈ places.erase place, (second index).toNat := by
    refine Finset.sum_congr rfl fun index hindex => ?_
    rw [h index (Finset.mem_of_mem_erase hindex) (Finset.ne_of_mem_erase hindex)]
  intro hsum
  unfold total at hsum
  rw [← Finset.add_sum_erase _ _ hplace, ← Finset.add_sum_erase _ _ hplace, hrest] at hsum
  have hmod : (first place).toNat ≡ (second place).toNat [MOD 256] :=
    Nat.ModEq.add_right_cancel' _ hsum
  have heq := hmod.eq_of_lt_of_lt (first place).toNat_lt (second place).toNat_lt
  exact hne (UInt8.toNat_inj.mp heq)

/-! ## All together -/

/-- What a header has to say about the bytes that it is read from. -/
structure Describes (bytes : Nat → UInt8) (header : Header) : Prop where
  title : header.title.length ≤ 12 ∧ Spells (field bytes 0xA0 0xAC) header.title
  code : ∃ code, header.code = "AGB-" ++ code ∧ code.length ≤ 4 ∧
    Spells (field bytes 0xAC 0xB0) code
  valid : header.valid = true ↔ total bytes + 0x19 ≡ 0 [MOD 256]

theorem describes_ofBytes (bytes : Nat → UInt8) : Describes bytes (ofBytes bytes) where
  title := ⟨(spells_printable _).length_le, spells_printable _⟩
  code := ⟨_, rfl, (spells_printable _).length_le, spells_printable _⟩
  valid := valid_iff bytes

/-- **A header is what its thirty bytes say.** Every cartridge that maps a dump has a header. It
tells the title and the code that the dump spells, and is valid just if the bytes from 0xA0 to 0xBD
and 0x19 add up to zero modulo 256. Any other image with the same bytes there has the same header,
and one that differs in exactly one of them from an image with a valid header has one that is not
valid. -/
theorem header_describes {dump : ByteArray} {rom : Rom} (h : Rom.ofDump dump = .ok rom) :
    ∃ header, parse? rom.image.bytes = some header ∧ Describes (cell dump) header ∧
      ∀ other : ByteArray, extent ≤ other.size →
        ((∀ index ∈ places, cell other index = cell dump index) → parse? other = some header) ∧
        ∀ place ∈ places, header.valid = true →
          (∀ index ∈ places, cell other index = cell dump index ↔ index ≠ place) →
          ∃ changed, parse? other = some changed ∧ changed.valid = false := by
  refine ⟨ofBytes (cell dump), parse?_of_ofDump h, describes_ofBytes _, fun other hother => ?_⟩
  have hparse := parse?_eq hother
  refine ⟨fun hsame => ?_, fun place hplace hvalid hsame => ⟨_, hparse, ?_⟩⟩
  · rw [hparse, ofBytes_congr hsame]
  · have hne : cell other place ≠ cell dump place := fun he => (hsame place hplace).mp he rfl
    have hsum : ¬ total (cell other) ≡ total (cell dump) [MOD 256] :=
      total_of_single hplace hne fun index hindex hindex' => (hsame index hindex).mpr hindex'
    rw [← Bool.not_eq_true, valid_iff]
    intro hzero
    have hboth := hzero.trans ((valid_iff _).mp hvalid).symm
    exact hsum (Nat.ModEq.add_right_cancel' _ hboth)

/-- A dump that ends with its header, with a byte in the title that is not printable. Where that
byte is another, the check byte is wrong. -/
theorem header_describes_short :
    let dump (second : UInt8) : ByteArray :=
      ⟨(List.replicate 0xA0 0 ++ [0x48, second] ++ List.replicate 27 0 ++ [0x98]).toArray⟩
    ∃ rom header changed, Rom.ofDump (dump 7) = .ok rom ∧
      parse? rom.image.bytes = some header ∧ header.valid = true ∧ header.title.length ≤ 12 ∧
      parse? (dump 8) = some changed ∧ changed.valid = false := by
  intro dump
  obtain ⟨rom, hrom, -, -⟩ := @Rom.ofDump_ok (dump 7) (by decide +kernel) (by decide +kernel)
  obtain ⟨header, hparse, hdescribes, hother⟩ := header_describes hrom
  have hvalid : header.valid = true := hdescribes.valid.mpr (by decide +kernel)
  obtain ⟨-, hsingle⟩ := hother (dump 8) (by decide +kernel)
  obtain ⟨changed, hchanged, hinvalid⟩ :=
    hsingle 0xA1 (by decide +kernel) hvalid (by decide +kernel)
  exact ⟨rom, header, changed, hrom, hparse, hvalid, hdescribes.title.1, hchanged, hinvalid⟩

end Header

end Handheld
