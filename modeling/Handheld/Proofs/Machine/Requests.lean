import Mathlib.Tactic
import Handheld.Machine.Control
import Handheld.Proofs.History
import Handheld.Proofs.Word

/-!
# Interrupt requests

A source stays requested from the request on until it is acknowledged, whatever else is done to the
control block in between.

1. `home_eq_iff` keeps the mirrors of memory control apart from the other registers, so that only
   two addresses reach the request register (`requested_write_of_ne`).
2. `Operation` is what the machine does to its control block, and `isRequested_perform` says what
   that does to one source.
3. `requests_latched` reads a request off a whole run.
-/

namespace Handheld.Control

/-! ## Addresses -/

theorem home_and (address : Word) : home address &&& 0xFF00FFFC = address &&& 0xFF00FFFC := by
  unfold home
  split
  · rw [UInt32.and_assoc]
    rfl
  · rfl

/-- A register that is not mirrored has one address. -/
theorem home_eq_iff {address register : Word} (h : register &&& 0xFF00FFFC ≠ memoryAddress) :
    home address = register ↔ address = register := by
  constructor
  · intro hhome
    have hne : ¬ address &&& 0xFF00FFFC = memoryAddress := by
      rw [← home_and, hhome]
      exact h
    rwa [home, if_neg hne] at hhome
  · rintro rfl
    exact if_neg h

/-! ## Writes -/

theorem requested_write_low (control : Control) (value : UInt8) :
    (control.write requestAddress value).requested = control.requested &&& ~~~value.toUInt16 :=
  rfl

theorem requested_write_high (control : Control) (value : UInt8) :
    (control.write (requestAddress + 1) value).requested =
      control.requested &&& (~~~(value.toUInt16 <<< 8) &&& Interrupt.allBits) :=
  rfl

/-- No other register, and no mirror, reaches the requests. -/
theorem requested_write_of_ne (control : Control) {address : Word} (value : UInt8)
    (hlow : address ≠ requestAddress) (hhigh : address ≠ requestAddress + 1) :
    (control.write address value).requested = control.requested := by
  have hl : (home address).toNat ≠ 0x04000202 := fun h =>
    hlow ((home_eq_iff (by decide)).mp (UInt32.toNat_inj.mp h))
  have hh : (home address).toNat ≠ 0x04000203 := fun h =>
    hhigh ((home_eq_iff (by decide)).mp (UInt32.toNat_inj.mp h))
  unfold write
  split <;> try rfl
  · exact absurd ‹_› hl
  · exact absurd ‹_› hh

/-! ## One source -/

/-- Whether a source is requested. -/
def isRequested (control : Control) (source : Nat) : Bool :=
  control.requested.toNat.testBit source

/-- The address of the byte of the request register that holds a source. -/
def requestByte (source : Nat) : Word :=
  requestAddress + UInt32.ofNat (source / 8)

theorem requestByte_of_lt {source : Nat} (h : source < 8) : requestByte source = requestAddress := by
  rw [requestByte, Nat.div_eq_of_lt h]
  rfl

theorem requestByte_of_le {source : Nat} (h : 8 ≤ source) (hlt : source < 16) :
    requestByte source = requestAddress + 1 := by
  have hdiv : source / 8 = 1 := by omega
  rw [requestByte, hdiv]
  rfl

theorem isRequested_write_low (control : Control) (value : UInt8) {source : Nat}
    (h : source < 16) :
    (control.write requestAddress value).isRequested source =
      (control.isRequested source && !value.toNat.testBit source) := by
  unfold isRequested
  rw [requested_write_low, UInt16.toNat_and, Nat.testBit_and, testBit_not _ h, UInt8.toNat_toUInt16]

theorem isRequested_write_high (control : Control) (value : UInt8) {source : Nat}
    (h : source < 14) :
    (control.write (requestAddress + 1) value).isRequested source =
      (control.isRequested source && !(decide (8 ≤ source) && value.toNat.testBit (source - 8))) := by
  have hall : Interrupt.allBits.toNat.testBit source = true := by
    revert source
    decide
  have hshift : (value.toUInt16 <<< 8).toNat.testBit source =
      (decide (8 ≤ source) && value.toNat.testBit (source - 8)) := by
    rw [UInt16.toNat_shiftLeft, UInt8.toNat_toUInt16]
    show ((value.toNat <<< 8) % 2 ^ 16).testBit source = _
    rw [Nat.testBit_mod_two_pow, Nat.testBit_shiftLeft, decide_eq_true (by omega), Bool.true_and]
  unfold isRequested
  rw [requested_write_high, UInt16.toNat_and, Nat.testBit_and, UInt16.toNat_and, Nat.testBit_and,
    hall, Bool.and_true, testBit_not _ (by omega), hshift]

/-- A source is acknowledged by its own bit of its own byte, and by no other write. -/
theorem isRequested_write (control : Control) (address : Word) (value : UInt8) {source : Nat}
    (h : source < 14) :
    (control.write address value).isRequested source =
      if address = requestByte source ∧ value.toNat.testBit (source % 8) = true then false
      else control.isRequested source := by
  by_cases hlow : address = requestAddress
  · subst hlow
    rw [isRequested_write_low control value (by omega)]
    by_cases hs : source < 8
    · rw [requestByte_of_lt hs, Nat.mod_eq_of_lt hs]
      cases value.toNat.testBit source <;> simp
    · have hbit : value.toNat.testBit source = false :=
        Nat.testBit_lt_two_pow (value.toNat_lt.trans_le
          (Nat.pow_le_pow_right (by decide) (Nat.le_of_not_lt hs)))
      have hne : requestAddress ≠ requestAddress + 1 := by decide
      rw [requestByte_of_le (by omega) (by omega), if_neg fun hb => hne hb.1, hbit, Bool.not_false,
        Bool.and_true]
  by_cases hhigh : address = requestAddress + 1
  · subst hhigh
    rw [isRequested_write_high control value h]
    by_cases hs : source < 8
    · have hne : requestAddress + 1 ≠ requestAddress := by decide
      rw [requestByte_of_lt hs, if_neg fun hb => hne hb.1, decide_eq_false (by omega),
        Bool.false_and, Bool.not_false, Bool.and_true]
    · have hmod : source % 8 = source - 8 := by omega
      rw [requestByte_of_le (by omega) (by omega), hmod, decide_eq_true (by omega)]
      cases value.toNat.testBit (source - 8) <;> simp
  · have hne : address ≠ requestByte source := by
      by_cases hs : source < 8
      · rwa [requestByte_of_lt hs]
      · rwa [requestByte_of_le (by omega) (by omega)]
    rw [if_neg fun hb => hne hb.1]
    unfold isRequested
    rw [requested_write_of_ne control value hlow hhigh]

/-- A request is latched unless the machine is stopped. -/
theorem isRequested_request (control : Control) (sources : UInt16) (source : Nat) :
    (control.request sources).isRequested source =
      if control.power ≠ .stopped ∧ sources.toNat.testBit source = true then true
      else control.isRequested source := by
  unfold request isRequested
  by_cases hpower : control.power ≠ .stopped
  · rw [if_pos hpower, UInt16.toNat_or, Nat.testBit_or]
    cases sources.toNat.testBit source <;> simp [hpower]
  · have hmark : ¬ (control.power ≠ .stopped ∧ sources.toNat.testBit source = true) :=
      fun h => hpower h.1
    rw [if_neg hpower, if_neg hmark]
    split <;> rfl

theorem isRequested_initial (source : Nat) : initial.isRequested source = false :=
  Nat.zero_testBit source

/-! ## Operations -/

/-- What is done to a control block. -/
inductive Operation
  | request (sources : UInt16)
  | write (address : Word) (value : UInt8)
  | poll
  | reset
  deriving DecidableEq

/-- The control block after an operation. -/
def perform (control : Control) : Operation → Control
  | .request sources => control.request sources
  | .write address value => control.write address value
  | .poll => control.poll.2
  | .reset => initial

/-- The control block after some operations from its reset on. -/
def afterAll (ops : List Operation) : Control :=
  ops.foldl perform initial

/-- An operation that takes a request back: a reset, or a one written to the source's bit. -/
def Operation.Withdraws (source : Nat) : Operation → Prop
  | .write address value => address = requestByte source ∧ value.toNat.testBit (source % 8) = true
  | .reset => True
  | _ => False

instance (source : Nat) : DecidablePred (Operation.Withdraws source)
  | .request _ => isFalse id
  | .write address value =>
    inferInstanceAs (Decidable
      (address = requestByte source ∧ value.toNat.testBit (source % 8) = true))
  | .poll => isFalse id
  | .reset => isTrue trivial

/-- What an operation makes of the request of a source, where it does not leave it. -/
def requestMark (source : Nat) (control : Control) : Operation → Option Bool
  | .request sources =>
    if control.power ≠ .stopped ∧ sources.toNat.testBit source = true then some true else none
  | .write address value =>
    if address = requestByte source ∧ value.toNat.testBit (source % 8) = true then some false
    else none
  | .poll => none
  | .reset => some false

theorem requestMark_eq_some_true_iff {source : Nat} {control : Control} {op : Operation} :
    requestMark source control op = some true ↔
      ∃ sources, op = .request sources ∧ control.power ≠ .stopped ∧
        sources.toNat.testBit source = true := by
  cases op with
  | request sources => simp [requestMark]
  | write address value => simp [requestMark]
  | poll => simp [requestMark]
  | reset => simp [requestMark]

theorem requestMark_eq_some_false_iff {source : Nat} {control : Control} {op : Operation} :
    requestMark source control op = some false ↔ op.Withdraws source := by
  cases op with
  | request sources =>
    refine iff_of_false (fun h => ?_) id
    simp only [requestMark] at h
    split_ifs at h
    cases h
  | write address value =>
    unfold requestMark
    exact Option.ite_none_right_eq_some.trans (and_iff_left rfl)
  | poll => exact iff_of_false nofun id
  | reset => exact iff_of_true rfl trivial

/-- An operation does to a source what its mark says. -/
theorem isRequested_perform {source : Nat} (h : source < 14) (control : Control)
    (op : Operation) :
    (control.perform op).isRequested source =
      (requestMark source control op).getD (control.isRequested source) := by
  cases op with
  | request sources =>
    exact (isRequested_request control sources source).trans (History.getD_ite ..).symm
  | write address value =>
    exact (isRequested_write control address value h).trans (History.getD_ite ..).symm
  | poll =>
    show (if control.pending then control.wake else control).isRequested source = _
    split <;> rfl
  | reset => exact isRequested_initial source

/-- A run leaves a source requested just if its last mark is a request. -/
theorem isRequested_afterAll {source : Nat} (h : source < 14) (ops : List Operation) :
    (afterAll ops).isRequested source = true ↔
      History.lastMark perform (requestMark source) initial ops = some true := by
  unfold afterAll
  rw [History.view_foldl (isRequested · source) (isRequested_perform h), isRequested_initial]
  cases History.lastMark perform (requestMark source) initial ops <;> simp

/-- Where nothing takes a request back, a run can but make it again. -/
theorem lastMark_ne_false {source : Nat} {ops : List Operation}
    (h : ∀ op ∈ ops, ¬ op.Withdraws source) (control : Control) :
    History.lastMark perform (requestMark source) control ops ≠ some false := by
  intro hlast
  obtain ⟨before, op, after, rfl, hmark, -⟩ := History.lastMark_eq_some_iff.mp hlast
  exact h op (List.mem_append_right _ List.mem_cons_self) (requestMark_eq_some_false_iff.mp hmark)

/-- The last mark is a request just if a request was latched and not taken back. -/
theorem lastMark_eq_true_iff {source : Nat} {ops : List Operation} {control : Control} :
    History.lastMark perform (requestMark source) control ops = some true ↔
      ∃ before sources after, ops = before ++ .request sources :: after ∧
        (before.foldl perform control).power ≠ .stopped ∧
        sources.toNat.testBit source = true ∧ ∀ op ∈ after, ¬ op.Withdraws source := by
  constructor
  · intro hlast
    obtain ⟨before, op, after, hops, hmark, hafter⟩ := History.lastMark_eq_some_iff.mp hlast
    obtain ⟨sources, rfl, hpower, hsource⟩ := requestMark_eq_some_true_iff.mp hmark
    refine ⟨before, sources, after, hops, hpower, hsource, fun op hmem hwithdraws => ?_⟩
    obtain ⟨between, later, rfl⟩ := List.append_of_mem hmem
    have hnone := History.lastMark_eq_none_iff.mp hafter between op later rfl
    rw [requestMark_eq_some_false_iff.mpr hwithdraws] at hnone
    cases hnone
  · rintro ⟨before, sources, after, rfl, hpower, hsource, hafter⟩
    have hmark := requestMark_eq_some_true_iff.mpr ⟨sources, rfl, hpower, hsource⟩
    have hne := lastMark_ne_false hafter
      (perform (before.foldl perform control) (.request sources))
    rw [History.lastMark_split, hmark]
    -- Later marks can only be requests, too.
    rcases hlast : History.lastMark perform (requestMark source)
      (perform (before.foldl perform control) (.request sources)) after with _ | (_ | _)
    · rfl
    · exact absurd hlast hne
    · rfl

/-! ## Runs -/

/-- **Requests are latched until they are acknowledged.** After any operations a source is requested
just if it was requested at a time when the machine was not stopped, and neither a reset nor a one
written to its bit has come since. Such a write acknowledges its source and no other, and no other
register and no mirror reaches the requests. -/
theorem requests_latched :
    (∀ (ops : List Operation) (source : Fin 14),
      (afterAll ops).isRequested source = true ↔
        ∃ before sources after, ops = before ++ .request sources :: after ∧
          (afterAll before).power ≠ .stopped ∧ sources.toNat.testBit source = true ∧
          ∀ op ∈ after, ¬ op.Withdraws source) ∧
    (∀ (control : Control) (address : Word) (value : UInt8) (source : Fin 14),
      (control.write address value).isRequested source =
        if address = requestByte source ∧ value.toNat.testBit (source % 8) = true then false
        else control.isRequested source) ∧
    ∀ (control : Control) (address : Word) (value : UInt8), address ≠ requestAddress →
      address ≠ requestAddress + 1 → (control.write address value).requested = control.requested := by
  refine ⟨fun ops source => ?_, ?_, ?_⟩
  · rw [isRequested_afterAll source.isLt, lastMark_eq_true_iff]
    rfl
  · exact fun control address value source => isRequested_write control address value source.isLt
  · exact fun control address value => requested_write_of_ne control value

/-- The vertical blank is requested together with the keypad. Its request outlives a stop, what is
requested meanwhile, and the acknowledgement of the keypad. -/
theorem requests_latched_vBlank :
    let ops : List Operation :=
      [.request 0x1001, .write powerAddress 0x80, .request 0x0002, .poll,
        .write (requestAddress + 1) 0x10]
    (afterAll ops).isRequested 0 = true ∧
      ((afterAll ops).write requestAddress 0x01).isRequested 0 = false ∧
      ((afterAll ops).write (memoryAddress + 0x10000) 0xFF).requested =
        (afterAll ops).requested := by
  intro ops
  obtain ⟨hrun, hwrite, hother⟩ := requests_latched
  refine ⟨(hrun ops 0).mpr ⟨[], 0x1001, ops.tail, rfl, ?_, ?_, ?_⟩, ?_, ?_⟩
  · decide +kernel
  · decide +kernel
  · decide +kernel
  · exact (hwrite (afterAll ops) requestAddress 0x01 0).trans (if_pos (by decide +kernel))
  · exact hother _ _ _ (by decide) (by decide)

end Handheld.Control
