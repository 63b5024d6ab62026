import Mathlib.Data.Nat.Bitwise
import Handheld.Machine.Keypad
import Handheld.Proofs.History
import Handheld.Proofs.Word

/-!
# Buttons

The host holds buttons and lets them go, the machine sees them as they were at its last poll, and
the selection says which of them it asks for. Each of the three goes its own way, whatever the order
of the calls.

1. `Button.index` is the place of a button, and `and_allBits_eq_iff` compares sets of buttons.
2. `Keypad.Operation` is what the host and the machine do to a keypad. `Held` are the buttons that
   the host holds after some operations, `Seen` those that the snapshot shows, and `lastWritten` is
   what is left of the selection.
3. `condition_iff` says when the keypad asks for an interrupt.
4. `keypad_latches` puts all together.
-/

namespace Handheld

/-! ## Places -/

namespace Button

/-- The place of a button among the bits. -/
def index : Button → Nat
  | a => 0
  | b => 1
  | select => 2
  | start => 3
  | right => 4
  | left => 5
  | up => 6
  | down => 7
  | r => 8
  | l => 9

theorem index_lt (button : Button) : button.index < 10 := by
  cases button <;> decide

theorem index_injective : Function.Injective index := by
  intro first second h
  cases first <;> cases second <;> first | rfl | cases h

theorem exists_index {place : Nat} (h : place < 10) : ∃ button : Button, button.index = place := by
  interval_cases place
  exacts [⟨a, rfl⟩, ⟨b, rfl⟩, ⟨select, rfl⟩, ⟨start, rfl⟩, ⟨right, rfl⟩, ⟨left, rfl⟩, ⟨up, rfl⟩,
    ⟨down, rfl⟩, ⟨r, rfl⟩, ⟨l, rfl⟩]

theorem toNat_bit (button : Button) : button.bit.toNat = 2 ^ button.index := by
  cases button <;> rfl

theorem testBit_bit (button other : Button) :
    other.bit.toNat.testBit button.index = decide (other = button) := by
  rw [toNat_bit, Nat.testBit_two_pow]
  exact decide_eq_decide.mpr index_injective.eq_iff

theorem testBit_allBits (place : Nat) : allBits.toNat.testBit place = decide (place < 10) :=
  Nat.testBit_two_pow_sub_one 10 place

end Button

/-- A mask of one bit tests it. -/
theorem and_eq_zero_iff_testBit (value : UInt16) {mask : UInt16} {place : Nat}
    (h : mask.toNat = 2 ^ place) : value &&& mask = 0 ↔ value.toNat.testBit place = false := by
  have hpos := Nat.two_pow_pos place
  rw [← UInt16.toNat_inj, UInt16.toNat_and, h, Nat.and_two_pow]
  cases value.toNat.testBit place <;> simp

/-- Sets of buttons are compared button by button. -/
theorem and_allBits_eq_iff {first second : UInt16} :
    first &&& Button.allBits = second &&& Button.allBits ↔
      ∀ button : Button, first.toNat.testBit button.index = second.toNat.testBit button.index := by
  rw [← UInt16.toNat_inj]
  constructor
  · intro h button
    have hbit := congrArg (Nat.testBit · button.index) h
    simpa [Button.testBit_allBits, button.index_lt] using hbit
  · intro h
    apply Nat.eq_of_testBit_eq
    intro place
    rw [UInt16.toNat_and, UInt16.toNat_and, Nat.testBit_and, Nat.testBit_and,
      Button.testBit_allBits]
    by_cases hplace : place < 10
    · obtain ⟨button, rfl⟩ := Button.exists_index hplace
      rw [h]
    · rw [decide_eq_false hplace, Bool.and_false, Bool.and_false]

namespace Keypad

/-! ## Operations -/

/-- What the host does to a keypad, and what the machine does. -/
inductive Operation
  | press (button : Button)
  | release (button : Button)
  | hold (bits : UInt16)
  | write (address : Word) (value : UInt8)
  | reset
  | poll (stopped : Bool)
  deriving DecidableEq

/-- The keypad after an operation. -/
def perform (keypad : Keypad) : Operation → Keypad
  | .press button => keypad.press button
  | .release button => keypad.release button
  | .hold bits => keypad.hold bits
  | .write address value => keypad.write address value
  | .reset => keypad.reset
  | .poll stopped => (keypad.poll stopped).2

/-- A new keypad after some operations. -/
def afterAll (ops : List Operation) : Keypad :=
  ops.foldl perform initial

/-! ## The buttons that are held -/

/-- Whether the host holds a button. -/
def down (keypad : Keypad) (button : Button) : Bool :=
  keypad.pressed.toNat.testBit button.index

/-- What an operation makes of a button, where it is a call of the host that affects it. -/
def affects (button : Button) : Operation → Option Bool
  | .press other => if other = button then some true else none
  | .release other => if other = button then some false else none
  | .hold bits => some (bits.toNat.testBit button.index)
  | _ => none

/-- A button is held if the last call that affects it presses it. -/
def Held (ops : List Operation) (button : Button) : Prop :=
  (ops.filterMap (affects button)).getLast? = some true

instance (ops : List Operation) : DecidablePred (Held ops) := fun button =>
  inferInstanceAs (Decidable ((ops.filterMap (affects button)).getLast? = some true))

theorem down_eq (keypad : Keypad) (button : Button) :
    keypad.down button = keypad.held.toNat.testBit button.index := by
  rw [down, pressed, UInt16.toNat_and, Nat.testBit_and, Button.testBit_allBits,
    decide_eq_true button.index_lt, Bool.and_true]

theorem down_write (keypad : Keypad) (address : Word) (value : UInt8) (button : Button) :
    (keypad.write address value).down button = keypad.down button := by
  unfold write
  split <;> rfl

theorem down_perform (button : Button) (keypad : Keypad) (op : Operation) :
    (keypad.perform op).down button = (affects button op).getD (keypad.down button) := by
  have hlt := button.index_lt
  cases op with
  | press other =>
    have hbit := Button.testBit_bit button other
    rw [down_eq, down_eq]
    simp only [perform, press, affects, UInt16.toNat_or, Nat.testBit_or, hbit]
    by_cases h : other = button <;> simp [h]
  | release other =>
    have hbit := Button.testBit_bit button other
    rw [down_eq, down_eq]
    simp only [perform, release, affects, UInt16.toNat_and, Nat.testBit_and,
      testBit_not _ (show button.index < 16 by omega), hbit]
    by_cases h : other = button <;> simp [h]
  | hold bits =>
    rw [down_eq]
    simp [perform, hold, affects, Button.testBit_allBits, hlt]
  | write address value => exact down_write keypad address value button
  | reset => rfl
  | poll stopped => rfl

theorem down_initial (button : Button) : initial.down button = false := by
  cases button <;> rfl

theorem down_afterAll (ops : List Operation) (button : Button) :
    (afterAll ops).down button = true ↔ Held ops button := by
  unfold afterAll Held
  rw [History.view_foldl_const (down · button) (affects button) (down_perform button),
    down_initial]
  cases (ops.filterMap (affects button)).getLast? <;> simp

/-! ## The buttons that show -/

/-- Whether the snapshot shows a button as held, by a clear bit. -/
def shows (keypad : Keypad) (button : Button) : Bool :=
  !keypad.input.toNat.testBit button.index

/-- An operation that renews the snapshot. -/
def Operation.Renews : Operation → Prop
  | .reset | .poll _ => True
  | _ => False

/-- A button is seen if it was held at the last poll since the last reset. -/
def Seen (ops : List Operation) (button : Button) : Prop :=
  ∃ before stopped after, ops = before ++ .poll stopped :: after ∧ Held before button ∧
    ∀ op ∈ after, ¬ op.Renews

/-- How an operation that renews the snapshot shows a button. -/
def exposes (button : Button) (keypad : Keypad) : Operation → Option Bool
  | .poll _ => some (keypad.down button)
  | .reset => some false
  | _ => none

theorem exposes_eq_none_iff (button : Button) (keypad : Keypad) (op : Operation) :
    exposes button keypad op = none ↔ ¬ op.Renews := by
  cases op <;> simp [exposes, Operation.Renews]

theorem shows_of_allBits {keypad : Keypad} (h : keypad.input = Button.allBits) (button : Button) :
    keypad.shows button = false := by
  rw [shows, h, Button.testBit_allBits, decide_eq_true button.index_lt, Bool.not_true]

theorem shows_poll (keypad : Keypad) (stopped : Bool) (button : Button) :
    (keypad.poll stopped).2.shows button = keypad.down button := by
  have hlt := button.index_lt
  show (!(~~~keypad.pressed &&& Button.allBits).toNat.testBit button.index) = _
  rw [UInt16.toNat_and, Nat.testBit_and, testBit_not _ (by omega), Button.testBit_allBits,
    decide_eq_true hlt, Bool.and_true, Bool.not_not]
  rfl

theorem shows_perform (button : Button) (keypad : Keypad) (op : Operation) :
    (keypad.perform op).shows button = (exposes button keypad op).getD (keypad.shows button) := by
  cases op with
  | press other => rfl
  | release other => rfl
  | hold bits => rfl
  | write address value =>
    show (keypad.write address value).shows button = keypad.shows button
    unfold write
    split <;> rfl
  | reset => exact shows_of_allBits rfl button
  | poll stopped => exact shows_poll keypad stopped button

theorem shows_afterAll (ops : List Operation) (button : Button) :
    (afterAll ops).shows button = true ↔ Seen ops button := by
  have hinitial : initial.shows button = false := shows_of_allBits rfl button
  have hlast : (afterAll ops).shows button = true ↔
      History.lastMark perform (exposes button) initial ops = some true := by
    unfold afterAll
    rw [History.view_foldl (shows · button) (shows_perform button), hinitial]
    cases History.lastMark perform (exposes button) initial ops <;> simp
  rw [hlast, History.lastMark_eq_some_iff]
  have hafter {keypad : Keypad} {after : List Operation} :
      History.lastMark perform (exposes button) keypad after = none ↔ ∀ op ∈ after, ¬ op.Renews :=
    History.lastMark_eq_none_iff_forall (exposes_eq_none_iff button)
  constructor
  · rintro ⟨before, op, after, rfl, hmark, hnone⟩
    cases op with
    | poll stopped =>
      have hdown : (afterAll before).down button = true := Option.some.inj hmark
      exact ⟨before, stopped, after, rfl, (down_afterAll before button).mp hdown,
        hafter.mp hnone⟩
    | reset => cases hmark
    | _ => cases hmark
  · rintro ⟨before, stopped, after, rfl, hheld, hnone⟩
    exact ⟨before, .poll stopped, after, rfl,
      congrArg some ((down_afterAll before button).mpr hheld), hafter.mpr hnone⟩

/-- The snapshot has no bits beside those of the buttons. -/
theorem input_and_allBits (ops : List Operation) :
    (afterAll ops).input &&& Button.allBits = (afterAll ops).input := by
  have hinitial : initial.input &&& Button.allBits = initial.input := rfl
  refine List.foldlRecOn (motive := fun keypad : Keypad =>
    keypad.input &&& Button.allBits = keypad.input) ops perform hinitial fun keypad h op _ => ?_
  cases op with
  | write address value =>
    show (keypad.write address value).input &&& _ = (keypad.write address value).input
    unfold write
    split <;> exact h
  | poll stopped =>
    show ~~~keypad.pressed &&& Button.allBits &&& Button.allBits = _
    rw [UInt16.and_assoc, UInt16.and_self]
    rfl
  | reset => exact UInt16.and_self
  | press button => exact h
  | release button => exact h
  | hold bits => exact h

/-- The snapshot has a bit for each button that it does not show, and no others. -/
theorem testBit_input (ops : List Operation) (place : Nat) :
    (afterAll ops).input.toNat.testBit place = true ↔
      ∃ button : Button, button.index = place ∧ ¬ Seen ops button := by
  rw [← input_and_allBits, UInt16.toNat_and, Nat.testBit_and, Button.testBit_allBits,
    Bool.and_eq_true, decide_eq_true_eq]
  constructor
  · rintro ⟨hbit, hplace⟩
    obtain ⟨button, rfl⟩ := Button.exists_index hplace
    refine ⟨button, rfl, fun hseen => ?_⟩
    have hshows := (shows_afterAll ops button).mpr hseen
    rw [shows, hbit] at hshows
    cases hshows
  · rintro ⟨button, rfl, hseen⟩
    rw [← shows_afterAll, shows, Bool.not_eq_true', Bool.not_eq_false] at hseen
    exact ⟨hseen, button.index_lt⟩

/-! ## The selection -/

/-- A byte of the selection. -/
inductive SelectionByte
  | low
  | high
  deriving DecidableEq

namespace SelectionByte

/-- The address of a byte. -/
def address : SelectionByte → Word
  | low => selectionAddress
  | high => selectionAddress + 1

/-- The bits of a byte that can be written. -/
def writable : SelectionByte → UInt8
  | low => 0xFF
  | high => 0xC3

/-- A byte of a halfword. -/
def of (value : UInt16) : SelectionByte → UInt8
  | low => lowByte value
  | high => highByte value

end SelectionByte

/-- What an operation leaves in a byte of the selection, where it writes the byte or resets it. -/
def leaves (byte : SelectionByte) : Operation → Option UInt8
  | .write address value => if address = byte.address then some (value &&& byte.writable) else none
  | .reset => some 0
  | _ => none

/-- What some operations last left in a byte of the selection. -/
def lastLeft (ops : List Operation) (byte : SelectionByte) : UInt8 :=
  (ops.filterMap (leaves byte)).getLast?.getD 0

/-- The selection that the bytes left behind spell. -/
def lastSelection (ops : List Operation) : Nat :=
  (lastLeft ops .low).toNat + 2 ^ 8 * (lastLeft ops .high).toNat

/-- A write to a byte of the selection changes that byte, and any other write none. -/
theorem selection_write (keypad : Keypad) (byte : SelectionByte) (address : Word) (value : UInt8) :
    byte.of (keypad.write address value).selection =
      if address = byte.address then value &&& byte.writable else byte.of keypad.selection := by
  by_cases hlow : address = selectionAddress
  · subst hlow
    cases byte with
    | low => exact (lowByte_withLowByte ..).trans UInt8.and_neg_one.symm
    | high => exact highByte_withLowByte ..
  by_cases hhigh : address = selectionAddress + 1
  · subst hhigh
    cases byte with
    | low => exact lowByte_withHighByte ..
    | high => exact highByte_withHighByte ..
  have hne : address ≠ byte.address := by cases byte <;> assumption
  rw [if_neg hne]
  unfold write
  split
  case h_1 h => exact absurd (UInt32.toNat_inj.mp h) hlow
  case h_2 h => exact absurd (UInt32.toNat_inj.mp h) hhigh
  case h_3 => rfl

theorem SelectionByte.of_zero (byte : SelectionByte) : byte.of 0 = 0 := by
  cases byte <;> rfl

theorem selection_perform (byte : SelectionByte) (keypad : Keypad) (op : Operation) :
    byte.of (keypad.perform op).selection = (leaves byte op).getD (byte.of keypad.selection) := by
  cases op with
  | write address value =>
    exact (selection_write keypad byte address value).trans (History.getD_ite ..).symm
  | reset => exact byte.of_zero
  | _ => rfl

theorem selection_afterAll (ops : List Operation) (byte : SelectionByte) :
    byte.of (afterAll ops).selection = lastLeft ops byte := by
  have hrun := History.view_foldl_const (fun keypad : Keypad => byte.of keypad.selection)
    (leaves byte) (selection_perform byte) ops initial
  have hinitial : byte.of initial.selection = 0 := byte.of_zero
  rwa [hinitial] at hrun

theorem toNat_selection (ops : List Operation) :
    (afterAll ops).selection.toNat = lastSelection ops := by
  rw [toNat_eq_bytes]
  unfold lastSelection
  rw [← selection_afterAll, ← selection_afterAll]
  rfl

theorem read?_selection (keypad : Keypad) (byte : SelectionByte) :
    keypad.read? byte.address = some (byte.of keypad.selection) := by
  cases byte <;> rfl

/-! ## The condition -/

/-- Whether a button is selected. -/
def selects (keypad : Keypad) (button : Button) : Bool :=
  keypad.selection.toNat.testBit button.index

/-- Through a mask of one bit nothing is seen if the bit is clear. -/
theorem and_beq_zero (value : UInt16) {mask : UInt16} {place : Nat} (h : mask.toNat = 2 ^ place) :
    (value &&& mask == 0) = !value.toNat.testBit place := by
  have hiff := and_eq_zero_iff_testBit value h
  cases hbit : value.toNat.testBit place with
  | false => exact beq_iff_eq.mpr (hiff.mpr hbit)
  | true =>
    refine beq_eq_false_iff_ne.mpr fun hzero => ?_
    rw [hiff.mp hzero] at hbit
    cases hbit

/-- The buttons that are both held and selected, compared with others. -/
theorem pressed_and_selected_eq_iff (keypad : Keypad) (bits : UInt16) :
    keypad.pressed &&& keypad.selected = bits &&& Button.allBits ↔
      ∀ button : Button, (keypad.down button && keypad.selects button) =
        bits.toNat.testBit button.index := by
  have hassoc : keypad.pressed &&& keypad.selected =
      keypad.pressed &&& keypad.selection &&& Button.allBits := (UInt16.and_assoc ..).symm
  rw [hassoc, and_allBits_eq_iff]
  refine forall_congr' fun button => ?_
  rw [UInt16.toNat_and, Nat.testBit_and]
  rfl

/-- The keypad asks for an interrupt where it may, a button is selected, and one of the selected
buttons is held, or all of them. -/
theorem condition_iff (keypad : Keypad) (stopped : Bool) :
    keypad.condition stopped = true ↔
      (∃ button, keypad.selects button = true) ∧
        (keypad.selection.toNat.testBit 14 = true ∨ stopped = true) ∧
        if keypad.selection.toNat.testBit 15 = true then
          ∀ button, keypad.selects button = true → keypad.down button = true
        else ∃ button, keypad.selects button = true ∧ keypad.down button = true := by
  have hselected : keypad.selected ≠ 0 ↔ ∃ button, keypad.selects button = true := by
    have h : keypad.selected = 0 &&& Button.allBits ↔ _ := and_allBits_eq_iff
    rw [UInt16.zero_and] at h
    simp [h, selects]
  have hany : keypad.pressed &&& keypad.selected ≠ 0 ↔
      ∃ button, keypad.selects button = true ∧ keypad.down button = true := by
    have h := keypad.pressed_and_selected_eq_iff 0
    rw [UInt16.zero_and] at h
    simp [h, and_comm]
  have hevery : keypad.pressed &&& keypad.selected = keypad.selected ↔
      ∀ button, keypad.selects button = true → keypad.down button = true := by
    refine (keypad.pressed_and_selected_eq_iff keypad.selection).trans (forall_congr' fun _ => ?_)
    exact Bool.and_eq_right_iff_imp
  unfold condition
  simp only [and_beq_zero _ (show (0x4000 : UInt16).toNat = 2 ^ 14 from rfl),
    and_beq_zero _ (show (0x8000 : UInt16).toNat = 2 ^ 15 from rfl)]
  rw [← hselected, ← hany, ← hevery]
  by_cases hnone : keypad.selected = 0
  · simp [hnone]
  · cases keypad.selection.toNat.testBit 14 <;> cases keypad.selection.toNat.testBit 15 <;>
      cases stopped <;> simp [hnone]

/-! ## All together -/

/-- Whether some operations leave a button selected. -/
def Selected (ops : List Operation) (button : Button) : Prop :=
  (lastSelection ops).testBit button.index = true

instance (ops : List Operation) : DecidablePred (Selected ops) := fun button =>
  inferInstanceAs (Decidable ((lastSelection ops).testBit button.index = true))

/-- **The keypad latches.** After any operations the host holds the buttons whose last call pressed
them. The snapshot has a bit for each button but those that were held at the last poll since the
last reset, and the selection has what was last written to its two bytes, as far as it can be
written. A poll asks for an interrupt just if a button is selected, bit 14 allows it or the machine
is stopped, and all selected buttons are held, or any of them where bit 15 is clear. -/
theorem keypad_latches (ops : List Operation) :
    (∀ button, (afterAll ops).down button = true ↔ Held ops button) ∧
    (∀ place, (afterAll ops).input.toNat.testBit place = true ↔
      ∃ button : Button, button.index = place ∧ ¬ Seen ops button) ∧
    (afterAll ops).read? inputAddress = some (lowByte (afterAll ops).input) ∧
    (afterAll ops).read? (inputAddress + 1) = some (highByte (afterAll ops).input) ∧
    (∀ byte : SelectionByte, (afterAll ops).read? byte.address = some (lastLeft ops byte)) ∧
    ∀ stopped, ((afterAll ops).poll stopped).1 = true ↔
      (∃ button, Selected ops button) ∧
        ((lastSelection ops).testBit 14 = true ∨ stopped = true) ∧
        if (lastSelection ops).testBit 15 = true then
          ∀ button, Selected ops button → Held ops button
        else ∃ button, Selected ops button ∧ Held ops button := by
  refine ⟨down_afterAll ops, testBit_input ops, rfl, rfl, fun byte => ?_, fun stopped => ?_⟩
  · rw [read?_selection, selection_afterAll]
  · have hselected (button : Button) :
        (afterAll ops).selects button = true ↔ Selected ops button := by
      rw [selects, toNat_selection, Selected]
    show (afterAll ops).condition stopped = true ↔ _
    rw [condition_iff, toNat_selection]
    simp only [hselected, down_afterAll]

/-- Two buttons are asked for together. The second one is pressed after a poll, so it does not show
yet, but the next poll asks for an interrupt; with one of them let go again it does not. -/
theorem keypad_latches_both :
    let ops : List Operation :=
      [.write selectionAddress 0x03, .write (selectionAddress + 1) 0xFC, .press .a, .poll false,
        .press .b]
    (afterAll ops).read? (selectionAddress + 1) = some 0xC0 ∧
      (∃ button : Button, button.index = 1 ∧ ¬ Seen ops button) ∧
      ((afterAll ops).poll false).1 = true ∧
      ((afterAll (ops ++ [.release .a])).poll false).1 = false := by
  intro ops
  obtain ⟨-, hinput, -, -, hselection, hpoll⟩ := keypad_latches ops
  obtain ⟨-, -, -, -, -, hreleased⟩ := keypad_latches (ops ++ [.release .a])
  refine ⟨(hselection .high).trans (by decide +kernel), (hinput 1).mp (by decide +kernel),
    (hpoll false).mpr ⟨⟨.a, by decide +kernel⟩, .inl (by decide +kernel), ?_⟩, ?_⟩
  · rw [if_pos (by decide +kernel)]
    intro button
    cases button <;> decide +kernel
  · rw [← Bool.not_eq_true, hreleased false]
    rintro ⟨-, -, hheld⟩
    rw [if_pos (by decide +kernel)] at hheld
    exact absurd (hheld .a (by decide +kernel)) (by decide +kernel)

end Keypad

end Handheld
