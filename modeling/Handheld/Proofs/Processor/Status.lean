import Handheld.Proofs.Word
import Handheld.Processor.Condition

/-!
# Fields of the status word

Each change of a status word replaces the bits of one mask, so the fields apart from it stay.

1. A bit that is set can be seen (`has_setBit_true`), and other bits stay as they were
   (`has_setBit_of_disjoint`, `has_setMode`).
2. The mode field outlives changes of control bits (`mode?_setThumb`, `mode?_setBit`), and
   `mode?_setMode` reads back the mode entered.
3. The instruction set outlives changes of the other control bits (`thumb_setBit`).
4. A status word is its packed flags and its other bits (`flags_eq_ofNibble`, `ext_flags`), so
   keeping some flags is replacing them by themselves (`setNZC_eq`, `setNZ_eq`).
5. The table of conditions tells what a condition asks of the flags (`passes_eq`).
-/

namespace Handheld

/-! ## Masks -/

theorem Flags.nibble_and (flags : Flags) :
    flags.nibble <<< 28 &&& Status.flagsMask = flags.nibble <<< 28 := by
  rcases flags with ⟨n, z, c, v⟩
  cases n <;> cases z <;> cases c <;> cases v <;> decide

theorem Flags.nibble_ofNibble {k : Word} (h : k.toNat < 16) : (ofNibble k).nibble = k := by
  have hall : ∀ n : Fin 16, (ofNibble (UInt32.ofNat n)).nibble = UInt32.ofNat n := by
    decide +kernel
  have hk := hall ⟨k.toNat, h⟩
  rwa [UInt32.ofNat_toNat] at hk

theorem Condition.ofCode_congr {a b : Word} (h : a &&& 0xF = b &&& 0xF) :
    Condition.ofCode a = Condition.ofCode b := by
  unfold Condition.ofCode
  rw [h]

namespace Mode

theorem bits_and (mode : Mode) : mode.bits &&& fieldMask = mode.bits := by
  cases mode <;> decide

theorem ofBits?_bits (mode : Mode) : ofBits? mode.bits = some mode := by
  cases mode <;> decide

/-- Only the mode field tells the mode. -/
theorem ofBits?_congr {a b : Word} (h : a &&& fieldMask = b &&& fieldMask) :
    ofBits? a = ofBits? b := by
  unfold ofBits?
  rw [h]

end Mode

namespace Status

theorem has_congr {s t : Status} {mask : Word} (h : s.bits &&& mask = t.bits &&& mask) :
    s.has mask = t.has mask := by
  unfold has
  rw [h]

/-- Setting or clearing bits leaves the others. -/
theorem setBit_and (s : Status) {mask k : Word} (on : Bool) (h : mask &&& k = 0) :
    (s.setBit mask on).bits &&& k = s.bits &&& k := by
  cases on
  · exact clear_and _ h
  · exact set_and _ h

theorem has_setBit_of_disjoint (s : Status) {mask k : Word} (on : Bool) (h : mask &&& k = 0) :
    (s.setBit mask on).has k = s.has k :=
  has_congr (setBit_and s on h)

theorem has_setMode (s : Status) (mode : Mode) {k : Word} (h : Mode.fieldMask &&& k = 0) :
    (s.setMode mode).has k = s.has k :=
  has_congr (insert_and _ mode.bits_and h)

/-- A bit that is set can be seen. -/
theorem has_setBit_true (s : Status) {mask k : Word} (h : mask &&& k = k) (hk : k ≠ 0) :
    (s.setBit mask true).has k = true := by
  have hb : (s.setBit mask true).bits &&& k = k := by
    show (s.bits ||| mask) &&& k = k
    rw [or_and, h, and_or_self]
  unfold has
  rw [hb]
  exact bne_iff_ne.mpr hk

/-- A change of the flags leaves the other bits. -/
theorem setFlags_and (s : Status) (flags : Flags) {k : Word} (h : flagsMask &&& k = 0) :
    (s.setFlags flags).bits &&& k = s.bits &&& k :=
  insert_and _ flags.nibble_and h

/-- The condition flags read back as they were put in. -/
theorem flags_setFlags (s : Status) (flags : Flags) : (s.setFlags flags).flags = flags := by
  have hbits (mask : Word) (hmask : Status.flagsMask &&& mask = mask) :
      (s.setFlags flags).has mask = (flags.nibble <<< 28 &&& mask != 0) := by
    have hsame : (s.setFlags flags).bits &&& mask = flags.nibble <<< 28 &&& mask := by
      show (s.bits &&& ~~~flagsMask ||| flags.nibble <<< 28) &&& mask = _
      rw [← hmask, ← UInt32.and_assoc, insert_and_self _ flags.nibble_and, ← UInt32.and_assoc,
        flags.nibble_and]
    rw [has, hsame]
  rw [Status.flags, hbits _ (by decide), hbits _ (by decide), hbits _ (by decide),
    hbits _ (by decide)]
  rcases flags with ⟨n, z, c, v⟩
  cases n <;> cases z <;> cases c <;> cases v <;> decide

/-! ## Packed flags -/

theorem toNat_flagNibble_lt (s : Status) : s.flagNibble.toNat < 16 := by
  have h := s.bits.toNat_lt
  have hn : s.flagNibble.toNat = s.bits.toNat / 2 ^ 28 := toNat_shiftRight 28 rfl
  omega

/-- The condition flags are packed into the top four bits. -/
theorem flags_eq_ofNibble (s : Status) : s.flags = Flags.ofNibble s.flagNibble := by
  have hbit (m mask : Word) (hm : m <<< 28 = mask) (hm' : mask >>> 28 = m) :
      s.has mask = (s.flagNibble &&& m != 0) := by
    have h : s.bits &&& mask = 0 ↔ s.flagNibble &&& m = 0 := and_eq_zero_iff hm hm'
    rw [has, Bool.eq_iff_iff, bne_iff_ne, bne_iff_ne, ne_eq, ne_eq, h]
  rw [flags, hbit 8 negative rfl rfl, hbit 4 zero rfl rfl, hbit 2 carryBit rfl rfl,
    hbit 1 overflow rfl rfl]
  rfl

theorem and_flagsMask (s : Status) : s.bits &&& flagsMask = s.flags.nibble <<< 28 := by
  have hfield : field s.bits 28 0xF = s.flagNibble := by
    refine field_eq 28 rfl 4 rfl ?_
    have hn : s.flagNibble.toNat = s.bits.toNat / 2 ^ 28 := toNat_shiftRight 28 rfl
    rw [← hn]
    exact Nat.mod_eq_of_lt s.toNat_flagNibble_lt
  rw [flags_eq_ofNibble, Flags.nibble_ofNibble s.toNat_flagNibble_lt, ← hfield, ← and_shiftLeft]
  rfl

/-- A status word is its condition flags and its other bits. -/
theorem ext_flags {s t : Status} (hf : s.flags = t.flags)
    (hb : s.bits &&& ~~~flagsMask = t.bits &&& ~~~flagsMask) : s = t := by
  have hall : ~~~flagsMask ||| flagsMask = -1 := by decide
  have hbits (u : Status) : u.bits = u.bits &&& ~~~flagsMask ||| u.flags.nibble <<< 28 := by
    rw [← and_flagsMask, ← and_or, hall, UInt32.and_neg_one]
  have h : s.bits = t.bits := by rw [hbits s, hbits t, hf, hb]
  cases s
  cases t
  cases h
  rfl

section Keeping

variable (s : Status) (flags : Flags) {kept mask : Word}

theorem has_keeping_of_disjoint (h : kept &&& mask = 0) :
    (s.setFlagsKeeping kept flags).has mask = (s.setFlags flags).has mask :=
  has_congr (insert_and _ (and_and_self ..) h)

theorem has_keeping (h : kept &&& mask = mask) :
    (s.setFlagsKeeping kept flags).has mask = s.has mask := by
  apply has_congr
  rw [← h, ← UInt32.and_assoc, ← UInt32.and_assoc]
  exact congrArg (· &&& mask) (insert_and_self _ (and_and_self ..))

theorem keeping_and (h : kept &&& ~~~flagsMask = 0) :
    (s.setFlagsKeeping kept flags).bits &&& ~~~flagsMask = s.bits &&& ~~~flagsMask :=
  (insert_and _ (and_and_self ..) h).trans (s.setFlags_and flags (by decide))

end Keeping

theorem setNZC_eq (s : Status) (flags : Flags) :
    s.setNZC flags = s.setFlags { flags with v := s.flags.v } := by
  refine ext_flags ?_ ?_
  · have h := s.flags_setFlags flags
    rw [flags_setFlags, setNZC, Status.flags, has_keeping_of_disjoint _ _ (by decide),
      has_keeping_of_disjoint _ _ (by decide), has_keeping_of_disjoint _ _ (by decide),
      has_keeping _ _ (by decide)]
    exact congrArg (fun flags : Flags => { flags with v := s.flags.v }) h
  · rw [setFlags_and _ _ (by decide)]
    exact keeping_and _ _ (by decide)

theorem setNZ_eq (s : Status) (flags : Flags) :
    s.setNZ flags = s.setFlags { flags with c := s.flags.c, v := s.flags.v } := by
  refine ext_flags ?_ ?_
  · have h := s.flags_setFlags flags
    rw [flags_setFlags, setNZ, Status.flags, has_keeping_of_disjoint _ _ (by decide),
      has_keeping_of_disjoint _ _ (by decide), has_keeping _ _ (by decide),
      has_keeping _ _ (by decide)]
    exact congrArg (fun flags : Flags => { flags with c := s.flags.c, v := s.flags.v }) h
  · rw [setFlags_and _ _ (by decide)]
    exact keeping_and _ _ (by decide)

/-! ## Conditions -/

/-- The table holds what the conditions ask for. -/
theorem passes_eq (s : Status) (code : Word) :
    s.passes code = (Condition.ofCode code).holds s.flags := by
  have hall : ∀ code nibble : Fin 16,
      (Condition.table.get code &&& 1 <<< (UInt32.ofNat nibble).toUInt16 != 0) =
        (Condition.ofCode (UInt32.ofNat code)).holds (Flags.ofNibble (UInt32.ofNat nibble)) := by
    decide +kernel
  have hcode : Condition.ofCode (code &&& 0xF) = Condition.ofCode code :=
    Condition.ofCode_congr (and_and_self ..)
  have h := hall ⟨(code &&& 0xF).toNat, Condition.code_lt code⟩
    ⟨s.flagNibble.toNat, s.toNat_flagNibble_lt⟩
  simp only [UInt32.ofNat_toNat, hcode] at h
  rw [← flags_eq_ofNibble] at h
  exact h

/-! ## The mode -/

theorem mode?_setMode (s : Status) (mode : Mode) : (s.setMode mode).mode? = some mode := by
  have h : (s.setMode mode).bits &&& Mode.fieldMask = mode.bits &&& Mode.fieldMask := by
    rw [setMode, insert_and_self _ mode.bits_and, mode.bits_and]
  rw [mode?, Mode.ofBits?_congr h, Mode.ofBits?_bits]

theorem mode?_setBit (s : Status) {mask : Word} (on : Bool) (h : mask &&& Mode.fieldMask = 0) :
    (s.setBit mask on).mode? = s.mode? :=
  Mode.ofBits?_congr (setBit_and s on h)

theorem mode?_setThumb (s : Status) (thumb : Bool) : (s.setThumb thumb).mode? = s.mode? :=
  mode?_setBit s thumb (by decide)

/-! ## The instruction set -/

theorem thumb_setBit (s : Status) {mask : Word} (on : Bool) (h : mask &&& thumbBit = 0) :
    (s.setBit mask on).thumb = s.thumb :=
  has_setBit_of_disjoint s on h

theorem thumb_setThumb_false (s : Status) : (s.setThumb false).thumb = false := by
  have h : s.bits &&& ~~~thumbBit &&& thumbBit = 0 := by
    rw [UInt32.and_assoc, UInt32.not_and_self, UInt32.and_zero]
  show (s.bits &&& ~~~thumbBit &&& thumbBit != 0) = false
  rw [h]; rfl

theorem thumb_setThumb (s : Status) (thumb : Bool) : (s.setThumb thumb).thumb = thumb := by
  cases thumb with
  | false => exact s.thumb_setThumb_false
  | true => exact s.has_setBit_true (by decide) (by decide)

end Status

end Handheld
