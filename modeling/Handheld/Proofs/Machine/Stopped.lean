import Mathlib.Data.Nat.Bitwise
import Handheld.Proofs.Machine.Wakeup
import Handheld.Proofs.Machine.Watched

/-!
# The stopped machine

While the machine is stopped, all but the video unit and the keypad sleeps.

1. `Control.Woken` says what brings the machine out of stop, and `requestAll_of_stopped` that
   nothing else comes of a request.
2. `Machine.Frozen` is what a batch leaves alone, and `Machine.Nap` all that a batch does which
   finds the machine stopped. `runBatch_nap` is such a batch.
3. `Machine.Dozes` says that some batches find the machine so, `Machine.Naps` what they then do,
   and `stop_freezes` is all of it.
-/

namespace Handheld

/-- A passage of the video unit alone. -/
def Passage.OfVideo : Passage → Prop
  | .videoRound _ _ => True
  | _ => False

/-! ## Waking up -/

/-- Through a mask of one bit either nothing is seen or all of it. -/
theorem and_twoPow (x : UInt16) {mask : UInt16} {place : Nat} (h : mask.toNat = 2 ^ place) :
    x &&& mask = 0 ∨ x &&& mask = mask := by
  rw [← UInt16.toNat_inj, ← UInt16.toNat_inj, UInt16.toNat_and, h, Nat.and_two_pow]
  cases x.toNat.testBit place
  · exact Or.inl (Nat.zero_mul _)
  · exact Or.inr (Nat.one_mul _)

/-- Something is seen through two masks where it is seen through one of them. -/
theorem and_or_and_ne_zero (x mask mask' y : UInt16) :
    x &&& (mask ||| mask') &&& y ≠ 0 ↔ x &&& mask &&& y ≠ 0 ∨ x &&& mask' &&& y ≠ 0 := by
  have hor : x &&& (mask ||| mask') &&& y = x &&& mask &&& y ||| x &&& mask' &&& y := by
    apply UInt16.eq_of_toBitVec_eq
    ext place hp
    simp only [UInt16.toBitVec_and, UInt16.toBitVec_or, BitVec.getElem_and, BitVec.getElem_or,
      Bool.and_or_distrib_left, Bool.and_or_distrib_right]
  rw [hor, Ne, UInt16.or_eq_zero_iff, not_and_or]

/-- Both words have a bit where what they share has it. -/
theorem and_and_twoPow (x y : UInt16) {mask : UInt16} {place : Nat} (h : mask.toNat = 2 ^ place) :
    x &&& mask &&& y ≠ 0 ↔ x &&& mask ≠ 0 ∧ y &&& mask ≠ 0 := by
  rcases and_twoPow x h with hx | hx
  · rw [hx, UInt16.zero_and]
    exact ⟨fun hn => absurd rfl hn, fun hn => absurd rfl hn.1⟩
  · have hmask : mask ≠ 0 := by
      rintro rfl
      exact absurd h.symm (Nat.two_pow_pos place).ne'
    rw [hx, UInt16.and_comm]
    exact ⟨fun hn => ⟨hmask, hn⟩, fun hn => hn.2⟩

namespace Control

/-- The sources that can bring the machine out of stop. -/
def wakers : List Interrupt := [.keypad, .gamePak, .serial]

/-- Some signals hold a request that is enabled and can bring the machine out of stop. -/
def Woken (control : Control) (raised : Signals) : Prop :=
  ∃ source ∈ wakers, raised.interrupts &&& source.bit ≠ 0 ∧ control.enabled &&& source.bit ≠ 0

theorem woken_iff (control : Control) (raised : Signals) :
    control.Woken raised ↔ raised.interrupts &&& wakeSources &&& control.enabled ≠ 0 := by
  have hkeypad := and_and_twoPow raised.interrupts control.enabled
    (show Interrupt.keypad.bit.toNat = 2 ^ 12 from rfl)
  have hgamePak := and_and_twoPow raised.interrupts control.enabled
    (show Interrupt.gamePak.bit.toNat = 2 ^ 13 from rfl)
  have hserial := and_and_twoPow raised.interrupts control.enabled
    (show Interrupt.serial.bit.toNat = 2 ^ 7 from rfl)
  unfold wakeSources
  rw [and_or_and_ne_zero, and_or_and_ne_zero, hkeypad, hgamePak, hserial]
  unfold Woken wakers
  simp only [List.mem_cons, List.not_mem_nil, or_false, exists_eq_or_imp, exists_eq_left, or_assoc]

/-- While the machine is stopped, a request of a waker that is enabled ends that, and is not
latched; nothing comes of any other. -/
theorem requestAll_of_stopped (control : Control) (raised : Signals)
    (h : control.power = .stopped) :
    (control.Woken raised → control.requestAll raised = control.wake) ∧
      (¬ control.Woken raised → control.requestAll raised = control) := by
  have hpower : ¬ control.power ≠ .stopped := not_not.mpr h
  have hrequest : control.request raised.interrupts =
      if raised.interrupts &&& wakeSources &&& control.enabled ≠ 0 then control.wake
      else control := if_neg hpower
  rw [woken_iff]
  unfold requestAll
  constructor
  · intro hw
    have hraised : raised.interrupts ≠ 0 := by
      intro hz
      rw [hz, UInt16.zero_and, UInt16.zero_and] at hw
      exact hw rfl
    rw [if_pos hraised, hrequest, if_pos hw]
  · intro hw
    split_ifs
    · rw [hrequest, if_neg hw]
    · rfl

end Control

namespace Machine

variable {P : Type}

/-- The keypad may bring the machine out of stop, and changes nothing else in the control block. -/
theorem control_pollKeypad_of_stopped (m : Machine P) (h : m.board.control.power = .stopped) :
    m.pollKeypad.board.control = m.board.control ∨
      m.pollKeypad.board.control = m.board.control.wake := by
  have hc : m.pollKeypad.board.control =
      if m.board.keypad.condition (m.board.control.power = .stopped) then
        m.board.control.request Interrupt.keypad.bit
      else m.board.control := rfl
  rw [hc]
  split_ifs
  · exact m.board.control.request_of_stopped _ h
  · exact Or.inl rfl

/-! ## What is left alone -/

/-- Machines that agree in all but the time, what is plugged in, the buttons and the power-down
mode. -/
structure Frozen (m m' : Machine P) : Prop where
  processor : m'.processor = m.processor
  bios : m'.board.bios = m.board.bios
  large : m'.board.large = m.board.large
  small : m'.board.small = m.board.small
  rom : m'.board.rom = m.board.rom
  control : { m'.board.control with power := m.board.control.power } = m.board.control
  selection : m'.board.keypad.selection = m.board.keypad.selection
  dma : m'.board.dma = m.board.dma
  prefetched : m'.board.prefetched = m.board.prefetched
  header : m'.header = m.header
  boot : m'.boot = m.boot
  carried : m'.carried = m.carried

theorem Frozen.refl (m : Machine P) : m.Frozen m :=
  ⟨rfl, rfl, rfl, rfl, rfl, rfl, rfl, rfl, rfl, rfl, rfl, rfl⟩

theorem Frozen.trans {m m₁ m₂ : Machine P} (h : m.Frozen m₁) (k : m₁.Frozen m₂) :
    m.Frozen m₂ where
  processor := k.processor.trans h.processor
  bios := k.bios.trans h.bios
  large := k.large.trans h.large
  small := k.small.trans h.small
  rom := k.rom.trans h.rom
  control := (congrArg (fun control : Control => { control with power := m.board.control.power })
    k.control).trans h.control
  selection := k.selection.trans h.selection
  dma := k.dma.trans h.dma
  prefetched := k.prefetched.trans h.prefetched
  header := k.header.trans h.header
  boot := k.boot.trans h.boot
  carried := k.carried.trans h.carried

theorem frozen_hold (m : Machine P) (buttons : UInt16) : m.Frozen (m.hold buttons) :=
  ⟨rfl, rfl, rfl, rfl, rfl, rfl, rfl, rfl, rfl, rfl, rfl, rfl⟩

variable [plugged : Peripherals P]

/-! ## Batches -/

/-- The ticks that the video unit is handed while all else is stopped. -/
def napTicks (m : Machine P) : UInt32 := m.stoppedTicks.toUInt32

/-- What the video unit raises when it is handed them. -/
def napSignals (m : Machine P) : Signals :=
  (Peripherals.sync .video m.napTicks m.board.peripherals).1

/-- All that a batch does in which all but the video unit and the keypad is stopped. -/
structure Nap (m : Machine P) (transfers : Nat) (m' : Machine P) : Prop where
  /-- The ticks lead to the next event of the video unit, but are never none. -/
  ticks : (m.napTicks.toNat : Int) = max 1 (Peripherals.nextEvent .video m.board.peripherals).toInt
  batch : m.runBatch transfers = some (m.napTicks.toNat, m')
  /-- The video unit is handed them and its triggers are delivered; nothing else is called. -/
  contacts : m.board.dma = .attached → ∀ contacts, (m.watched contacts).runBatch transfers =
    some (m.napTicks.toNat, m'.watched
      (contacts ++ (Passage.videoRound m.napTicks m.napSignals).contacts))
  /-- Nor is anything else asked: other peripherals may answer all else as they like. -/
  asked : ∀ other : Peripherals P, other.nextEvent .video = plugged.nextEvent .video →
    other.sync .video = plugged.sync .video → other.trigger = plugged.trigger →
      @runBatch P other m transfers = @runBatch P plugged m transfers
  frozen : m.Frozen m'
  woken : m.board.control.Woken m.napSignals → m'.board.control.power = .running
  asleep : ¬ m.board.control.Woken m.napSignals → m'.board.control.power = .stopped

theorem toNat_napTicks (m : Machine P) : (m.napTicks.toNat : Int) =
    max 1 (Peripherals.nextEvent .video m.board.peripherals).toInt := by
  have hpos := m.stoppedTicks_pos
  have hmax : m.stoppedTicks = if 1 ≤ Peripherals.nextEvent .video m.board.peripherals then
      Peripherals.nextEvent .video m.board.peripherals else 1 := rfl
  have htoInt : m.stoppedTicks.toInt =
      max 1 (Peripherals.nextEvent .video m.board.peripherals).toInt := by
    rw [hmax]
    split_ifs with h
    · exact (max_eq_right (Int32.le_iff_toInt_le.mp h)).symm
    · exact (max_eq_left (not_le.mp (mt Int32.le_iff_toInt_le.mpr h)).le).symm
  unfold napTicks
  rw [m.toNat_stoppedTicks, ← htoInt]
  omega

theorem runStopped_watched {m : Machine P} (hd : m.board.dma = .attached)
    (contacts : List Contact) :
    (m.watched contacts).runStopped = m.runStopped.watched
      (contacts ++ (Passage.videoRound m.napTicks m.napSignals).contacts) := by
  have hround := videoRound_watched m.napTicks m.board.peripherals contacts
  have hd' : (m.watched contacts).board.dma = .attached := hd
  have hsignals : m.napSignals = (Dma.attached.videoRound m.napTicks m.board.peripherals).1 := rfl
  have hticks : (m.watched contacts).stoppedTicks = m.stoppedTicks := rfl
  rw [runStopped_eq, runStopped_eq, hd, hd', hsignals, hticks]
  exact congrArg (fun result : Signals × Watched P => ({ m with
    elapsed := m.elapsed.advance m.stoppedTicks.toInt
    board := { m.board with
      control := m.board.control.requestAll result.1
      peripherals := result.2 } } : Machine (Watched P))) hround

/-- What is not asked has no say. -/
theorem runStopped_asked (m : Machine P) (other : Peripherals P)
    (hnext : other.nextEvent .video = plugged.nextEvent .video)
    (hsync : other.sync .video = plugged.sync .video) (htrigger : other.trigger = plugged.trigger) :
    @runStopped P other m = @runStopped P plugged m := by
  have hdeliver : @Dma.deliver P other m.board.dma = @Dma.deliver P plugged m.board.dma := by
    unfold Dma.deliver Dma.trigger
    cases m.board.dma with
    | attached => simp only [htrigger]
    | vacant => rfl
  unfold runStopped raise trigger
  rw [hnext, hsync]
  simp only [Board.modifyControl, hdeliver]

/-- A batch that finds the machine stopped, and its keypad not waking it. -/
theorem runBatch_nap (m : Machine P) (transfers : Nat)
    (h : m.pollKeypad.board.control.power = .stopped) :
    m.Nap transfers m.pollKeypad.runStopped := by
  have hcontrol := control_pollKeypad m h
  have hpower : m.board.control.power = .stopped := by
    rw [← hcontrol]
    exact h
  have hafter : m.pollKeypad.runStopped.board.control =
      m.board.control.requestAll m.napSignals :=
    congrArg (fun control : Control => control.requestAll m.napSignals) hcontrol
  obtain ⟨hwoken, hasleep⟩ := m.board.control.requestAll_of_stopped m.napSignals hpower
  have hreturned : (m.pollKeypad.runStopped.elapsed - m.elapsed).count = m.napTicks.toNat :=
    m.pollKeypad.returned_runStopped
  refine
    { ticks := m.toNat_napTicks
      batch := ?_
      contacts := fun hd contacts => ?_
      asked := fun other hnext hsync htrigger => ?_
      frozen := ⟨rfl, rfl, rfl, rfl, rfl, ?_, rfl, rfl, rfl, rfl, rfl, rfl⟩
      woken := fun hw => ?_
      asleep := fun hw => ?_ }
  · rw [runBatch_stopped transfers h, hreturned]
  · have hw : (m.watched contacts).pollKeypad.board.control.power = .stopped := h
    have hrun : (m.watched contacts).pollKeypad.runStopped = m.pollKeypad.runStopped.watched
        (contacts ++ (Passage.videoRound m.napTicks m.napSignals).contacts) :=
      runStopped_watched (m := m.pollKeypad) hd contacts
    rw [runBatch_stopped transfers hw, hrun]
    exact congrArg (fun ticks => some (ticks, _)) hreturned
  · have hrun := @runStopped_asked P plugged m.pollKeypad other hnext hsync htrigger
    rw [@runBatch_stopped P other m transfers h, @runBatch_stopped P plugged m transfers h, hrun]
  · rw [hafter]
    by_cases hw : m.board.control.Woken m.napSignals
    · rw [hwoken hw]
      rfl
    · rw [hasleep hw]
  · rw [hafter, hwoken hw]
    rfl
  · rw [hafter, hasleep hw]
    exact hpower

/-! ## Any number of them -/

/-- Each of some batches finds the machine stopped, and its keypad not waking it. -/
def Dozes : List (UInt16 × Nat) → Machine P → Prop
  | [], _ => True
  | (buttons, transfers) :: rest, m =>
    (m.hold buttons).pollKeypad.board.control.power = .stopped ∧
      ∀ ticks after, (m.hold buttons).runBatch transfers = some (ticks, after) → Dozes rest after

/-- Some batches, each of them a nap. -/
inductive Naps : Machine P → List (UInt16 × Nat) → Machine P → Prop
  | refl (m : Machine P) : Naps m [] m
  | nap {m after m' : Machine P} {buttons : UInt16} {transfers : Nat}
    {batches : List (UInt16 × Nat)} (h : (m.hold buttons).Nap transfers after)
    (rest : Naps after batches m') : Naps m ((buttons, transfers) :: batches) m'

theorem Naps.frozen {m m' : Machine P} {batches : List (UInt16 × Nat)} (h : Naps m batches m') :
    m.Frozen m' := by
  induction h with
  | refl m => exact .refl m
  | nap h _ ih => exact (frozen_hold _ _).trans (h.frozen.trans ih)

theorem runBatches_dozes (batches : List (UInt16 × Nat)) :
    ∀ (m : Machine P) (tally : Tally) (contacts : List Contact), Dozes batches m →
      ∃ tally' m', Naps m batches m' ∧ m.runBatches batches tally = some (tally', m') ∧
        (m.board.dma = .attached → ∃ passages, (m.watched contacts).runBatches batches tally =
            some (tally', m'.watched (contacts ++ contactsOf passages)) ∧
          ∀ passage ∈ passages, passage.OfVideo) := by
  induction batches with
  | nil =>
    intro m tally contacts _
    refine ⟨tally, m, .refl m, rfl, fun _ => ⟨[], ?_, ?_⟩⟩
    · exact congrArg (fun log => some (tally, m.watched log)) (List.append_nil contacts).symm
    · exact fun _ hm => nomatch hm
  | cons batch rest ih =>
    intro m tally contacts hdozes
    rcases batch with ⟨buttons, transfers⟩
    have hnap := (m.hold buttons).runBatch_nap transfers hdozes.1
    have hrest := hdozes.2 _ _ hnap.batch
    let first := Passage.videoRound (m.hold buttons).napTicks (m.hold buttons).napSignals
    let after := (m.hold buttons).pollKeypad.runStopped
    let sofar := tally.add (m.hold buttons) (m.hold buttons).napTicks.toNat
    obtain ⟨tally', m', hnaps, hrun, hcontacts⟩ :=
      ih after sofar (contacts ++ first.contacts) hrest
    refine ⟨tally', m', .nap hnap hnaps, ?_, fun hd => ?_⟩
    · unfold runBatches
      rw [hnap.batch]
      exact hrun
    · obtain ⟨passages, hwatched, hvideo⟩ := hcontacts (hnap.frozen.dma.trans hd)
      have hhold : (m.watched contacts).hold buttons = (m.hold buttons).watched contacts := rfl
      refine ⟨first :: passages, ?_, fun passage hm => ?_⟩
      · unfold runBatches
        rw [hhold, hnap.contacts hd contacts]
        refine hwatched.trans ?_
        rw [List.append_assoc]
        rfl
      · rcases List.mem_cons.mp hm with rfl | hm
        · trivial
        · exact hvideo passage hm

/-- **Stop freezes all but video and keypad.** A batch that finds the machine stopped, its keypad
not waking it, returns the ticks to the next event of the video unit, but never none, hands them to
that unit and delivers its triggers, calls and asks nothing else that is plugged in, leaves the
processor, work RAM, what is carried and all registers of the control block alone, and ends awake
exactly where the video unit raised an enabled request that wakes the machine. So does any number
of such batches in a row, whatever the buttons are. A keypad that does wake the machine leaves the
control block alone, too. -/
theorem stop_freezes (m : Machine P) :
    (m.pollKeypad.board.control.power = .stopped → ∀ transfers, ∃ m', m.Nap transfers m') ∧
    (∀ batches tally contacts, Dozes batches m →
      ∃ tally' m', Naps m batches m' ∧ m.Frozen m' ∧
        m.runBatches batches tally = some (tally', m') ∧
        (m.board.dma = .attached → ∃ passages, (m.watched contacts).runBatches batches tally =
            some (tally', m'.watched (contacts ++ contactsOf passages)) ∧
          ∀ passage ∈ passages, passage.OfVideo)) ∧
    (m.board.control.power = .stopped →
      m.pollKeypad.board.control = m.board.control ∨
        m.pollKeypad.board.control = m.board.control.wake) := by
  refine ⟨fun h transfers => ⟨_, m.runBatch_nap transfers h⟩, fun batches tally contacts h => ?_,
    m.control_pollKeypad_of_stopped⟩
  obtain ⟨tally', m', hnaps, hrest⟩ := runBatches_dozes batches m tally contacts h
  exact ⟨tally', m', hnaps, hnaps.frozen, hrest⟩

end Machine

/-! ## A run -/

/-- A video unit that raises a vertical blank some times, and then a request of the serial link. -/
structure Alarm where
  left : Nat

instance : Peripherals Alarm where
  nextEvent _ _ := 100
  sync _ _ state :=
    (⟨if state.left = 0 then Interrupt.serial.bit else Interrupt.vBlank.bit, 1⟩, ⟨state.left - 1⟩)
  readRegister _ _ state := (none, state)
  writeRegister _ _ _ state := state
  readVideo _ _ state := (none, state)
  writeVideo _ _ _ state := state
  transferPending _ := false
  trigger _ state := state
  transfer _ := .done ⟨0, Signals.empty⟩

namespace Alarm

/-- A machine that was stopped with both requests enabled. -/
def machine : Machine Alarm :=
  { Bursts.machine with
    board :=
      { Bursts.machine.board with
        control := { Control.initial with enabled := 0x0081, power := .stopped }
        peripherals := ⟨1⟩ } }

/-- Two batches, of which the second wakes the machine. -/
def batches : List (UInt16 × Nat) := [(0, 0), (0, 0)]

theorem dozes : machine.Dozes batches := by
  refine ⟨by decide +kernel, fun ticks after h => ⟨?_, fun _ _ _ => trivial⟩⟩
  have hpower : ((machine.hold 0).runBatch 0).map
      (fun result => (result.2.hold 0).pollKeypad.board.control.power) = some .stopped := by
    decide +kernel
  rw [h] at hpower
  exact Option.some.inj hpower

end Alarm

namespace Machine

theorem stop_freezes_alarm :
    Alarm.machine.Dozes Alarm.batches ∧ ∃ tally m' passages,
      Alarm.machine.Naps Alarm.batches m' ∧ Alarm.machine.Frozen m' ∧
        Alarm.machine.runBatches Alarm.batches Tally.zero = some (tally, m') ∧
        (Alarm.machine.watched []).runBatches Alarm.batches Tally.zero =
          some (tally, m'.watched (contactsOf passages)) ∧
        tally = ⟨200, 200, 0⟩ ∧ m'.board.control.power = .running ∧
        m'.board.control.requested = 0 := by
  have hends : (Alarm.machine.runBatches Alarm.batches Tally.zero).map (fun result =>
      (result.1, result.2.board.control.power, result.2.board.control.requested)) =
        some (⟨200, 200, 0⟩, .running, 0) := by decide +kernel
  obtain ⟨-, hrun, -⟩ := Alarm.machine.stop_freezes
  obtain ⟨tally, m', hnaps, hfrozen, hplain, hcontacts⟩ :=
    hrun Alarm.batches Tally.zero [] Alarm.dozes
  obtain ⟨passages, hwatched, -⟩ := hcontacts rfl
  rw [hplain] at hends
  obtain ⟨htally, hpower, hrequested⟩ : tally = ⟨200, 200, 0⟩ ∧
      m'.board.control.power = .running ∧ m'.board.control.requested = 0 := by
    simpa using hends
  exact ⟨Alarm.dozes, tally, m', passages, hnaps, hfrozen, hplain, hwatched, htally, hpower,
    hrequested⟩

end Machine

end Handheld
