import Handheld.Proofs.Machine.Lockstep

/-!
# Watched peripherals

Whatever is plugged into the machine can be plugged in under watch: every call that may change it is
noted, in order, and passed through.

1. `Watched` is such a state, and `Passage` one thing that a machine does with what is plugged in:
   an access of a program, a transfer, a round of the timed units or of the video unit alone.
2. `Watches` says that a record is made of whole passages. `deliver_watched`, `round_watched` and
   `videoRound_watched` are what the rounds add to it.
3. `watched_lockstep` says that the machine does not notice the watch, and that whatever it does
   adds whole passages to the record.
-/

namespace Handheld

/-! ## Contacts -/

/-- An access of a program to something plugged in. -/
inductive DeviceAccess
  | readRegister (block : Block) (address : Word)
  | writeRegister (block : Block) (address : Word) (value : UInt8)
  | readVideo (address : Word) (width : Width)
  | writeVideo (address value : Word) (width : Width)
  deriving DecidableEq

/-- A call that may change what is plugged in. -/
inductive Contact
  | access (made : DeviceAccess)
  /-- A unit was handed some ticks and raised some signals. -/
  | sync (unit : Timed) (ticks : UInt32) (raised : Signals)
  /-- The DMA controller was told of a trigger. -/
  | trigger (raised : Trigger)
  /-- The DMA controller was asked for a transfer of roughly some cycles. -/
  | transfer (limit : Int32)
  deriving DecidableEq

/-- Peripherals under watch, with the contacts made so far from the first on. -/
structure Watched (P : Type) where
  plugged : P
  contacts : List Contact

/-- The same conversation of a device under watch. -/
def BusProgram.watched {P α : Type} : BusProgram P α → BusProgram (Watched P) α
  | done result => done result
  | read address width next => read address width fun answer => (next answer).watched
  | write address value width next =>
    write address value width fun answer => (next answer).watched
  | fetch address width next => fetch address width fun answer => (next answer).watched
  | latch word next => latch word next.watched
  | update change next =>
    update (fun state => { state with plugged := change state.plugged })
      fun state => (next state.plugged).watched

instance {P : Type} [Peripherals P] : Peripherals (Watched P) where
  nextEvent unit state := Peripherals.nextEvent unit state.plugged
  sync unit ticks state :=
    match Peripherals.sync unit ticks state.plugged with
    | (raised, plugged) => (raised, ⟨plugged, state.contacts ++ [.sync unit ticks raised]⟩)
  readRegister block address state :=
    match Peripherals.readRegister block address state.plugged with
    | (byte, plugged) =>
      (byte, ⟨plugged, state.contacts ++ [.access (.readRegister block address)]⟩)
  writeRegister block address value state :=
    ⟨Peripherals.writeRegister block address value state.plugged,
      state.contacts ++ [.access (.writeRegister block address value)]⟩
  readVideo address width state :=
    match Peripherals.readVideo address width state.plugged with
    | (data, plugged) => (data, ⟨plugged, state.contacts ++ [.access (.readVideo address width)]⟩)
  writeVideo address value width state :=
    ⟨Peripherals.writeVideo address value width state.plugged,
      state.contacts ++ [.access (.writeVideo address value width)]⟩
  transferPending state := Peripherals.transferPending state.plugged
  trigger raised state :=
    ⟨Peripherals.trigger raised state.plugged, state.contacts ++ [.trigger raised]⟩
  transfer limit :=
    .update (fun state => { state with contacts := state.contacts ++ [.transfer limit] })
      fun _ => (Peripherals.transfer limit).watched

/-! ## Passages -/

/-- One thing that a machine does with what is plugged in. -/
inductive Passage
  | access (made : DeviceAccess)
  | transfer (limit : Int32)
  /-- The timed units are handed some ticks, and what any of them raised is delivered. -/
  | round (ticks : UInt32) (timers audio video : Signals)
  /-- The video unit alone is handed some ticks, and what it raised is delivered. -/
  | videoRound (ticks : UInt32) (raised : Signals)
  deriving DecidableEq

/-- The contacts that are made in a passage. -/
def Passage.contacts : Passage → List Contact
  | access made => [.access made]
  | transfer limit => [.transfer limit]
  | round ticks timers audio video =>
    [.sync .timers ticks timers, .sync .audio ticks audio, .sync .video ticks video] ++
      ((timers.union audio).union video).triggers.map .trigger
  | videoRound ticks raised => .sync .video ticks raised :: raised.triggers.map .trigger

/-- The contacts that are made in some passages. -/
def contactsOf (passages : List Passage) : List Contact :=
  passages.flatMap Passage.contacts

theorem contactsOf_append (first second : List Passage) :
    contactsOf (first ++ second) = contactsOf first ++ contactsOf second :=
  List.flatMap_append

variable {P : Type}

/-- Peripherals are under watch, and the contacts so far make whole passages. -/
structure Watches (state : P) (watched : Watched P) : Prop where
  plugged : watched.plugged = state
  whole : ∃ passages, watched.contacts = contactsOf passages

/-- One more passage makes a whole again. -/
theorem Watches.pass {state : P} {watched : Watched P} (h : Watches state watched)
    (passage : Passage) (after : P) :
    Watches after ⟨after, watched.contacts ++ passage.contacts⟩ := by
  obtain ⟨passages, hp⟩ := h.whole
  refine ⟨rfl, passages ++ [passage], ?_⟩
  rw [contactsOf_append, hp]
  exact congrArg (contactsOf passages ++ ·) (List.append_nil _).symm

variable [Peripherals P]

/-- The controller that is plugged in hears every trigger; a stand-in would hear none. -/
theorem deliver_watched (signals : Signals) (state : P) (contacts : List Contact) :
    Dma.attached.deliver signals (⟨state, contacts⟩ : Watched P) =
      ⟨Dma.attached.deliver signals state, contacts ++ signals.triggers.map .trigger⟩ := by
  unfold Dma.deliver
  generalize signals.triggers = triggers
  induction triggers generalizing state contacts with
  | nil => simp
  | cons raised rest ih =>
    refine (ih (Dma.attached.trigger raised state) (contacts ++ [.trigger raised])).trans ?_
    simp

/-- A round under watch is one passage. -/
theorem round_watched (ticks : UInt32) (state : P) (contacts : List Contact) :
    ∃ timers audio video,
      Dma.attached.round ticks (⟨state, contacts⟩ : Watched P) =
        ((Dma.attached.round ticks state).1, ⟨(Dma.attached.round ticks state).2,
          contacts ++ (Passage.round ticks timers audio video).contacts⟩) := by
  let timers := Peripherals.sync .timers ticks state
  let audio := Peripherals.sync .audio ticks timers.2
  let video := Peripherals.sync .video ticks audio.2
  have hd := deliver_watched ((timers.1.union audio.1).union video.1) video.2
    (contacts ++ [.sync .timers ticks timers.1] ++ [.sync .audio ticks audio.1] ++
      [.sync .video ticks video.1])
  refine ⟨timers.1, audio.1, video.1, ?_⟩
  refine (congrArg (Prod.mk _) hd).trans ?_
  simp only [List.append_assoc]
  rfl

/-- So is a round of the video unit alone. -/
theorem videoRound_watched (ticks : UInt32) (state : P) (contacts : List Contact) :
    Dma.attached.videoRound ticks (⟨state, contacts⟩ : Watched P) =
      ((Dma.attached.videoRound ticks state).1,
        ⟨(Dma.attached.videoRound ticks state).2, contacts ++
          (Passage.videoRound ticks (Dma.attached.videoRound ticks state).1).contacts⟩) := by
  have hd := deliver_watched (Peripherals.sync .video ticks state).1
    (Peripherals.sync .video ticks state).2
    (contacts ++ [.sync .video ticks (Peripherals.sync .video ticks state).1])
  refine (congrArg (Prod.mk _) hd).trans ?_
  rw [List.append_assoc]
  rfl

theorem Watches.round {state : P} {watched : Watched P} (h : Watches state watched)
    (ticks : UInt32) :
    (Dma.attached.round ticks watched).1 = (Dma.attached.round ticks state).1 ∧
      Watches (Dma.attached.round ticks state).2 (Dma.attached.round ticks watched).2 := by
  rcases watched with ⟨plugged, contacts⟩
  obtain ⟨timers, audio, video, hround⟩ := round_watched ticks plugged contacts
  obtain rfl : plugged = state := h.plugged
  rw [hround]
  exact ⟨rfl, h.pass (.round ticks timers audio video) _⟩

theorem Watches.videoRound {state : P} {watched : Watched P} (h : Watches state watched)
    (ticks : UInt32) :
    (Dma.attached.videoRound ticks watched).1 = (Dma.attached.videoRound ticks state).1 ∧
      Watches (Dma.attached.videoRound ticks state).2
        (Dma.attached.videoRound ticks watched).2 := by
  rcases watched with ⟨plugged, contacts⟩
  obtain rfl : plugged = state := h.plugged
  rw [videoRound_watched]
  exact ⟨rfl, h.pass (.videoRound ticks _) _⟩

/-! ## Boards -/

/-- A program gets the same answers under watch. -/
theorem watches_answers : Answers (Watches (P := P)) where
  readRegister := by
    rintro state ⟨_, contacts⟩ ⟨rfl, whole⟩ block address
    exact ⟨rfl, Watches.pass ⟨rfl, whole⟩ (.access (.readRegister block address)) _⟩
  writeRegister := by
    rintro state ⟨_, contacts⟩ ⟨rfl, whole⟩ block address value
    exact Watches.pass ⟨rfl, whole⟩ (.access (.writeRegister block address value)) _
  readVideo := by
    rintro state ⟨_, contacts⟩ ⟨rfl, whole⟩ address width
    exact ⟨rfl, Watches.pass ⟨rfl, whole⟩ (.access (.readVideo address width)) _⟩
  writeVideo := by
    rintro state ⟨_, contacts⟩ ⟨rfl, whole⟩ address value width
    exact Watches.pass ⟨rfl, whole⟩ (.access (.writeVideo address value width)) _

namespace Board

/-- A board and the same board with its peripherals under watch. -/
abbrev Watches (board : Board P) (watched : Board (Watched P)) : Prop :=
  board.Alike Handheld.Watches (fun _ _ => True) watched

/-- The processor does not notice the watch. -/
theorem watches_sim : BusSim .eq (Watches : Board P → Board (Watched P) → Prop) :=
  sim watches_answers .any

/-- Equal results of two conversations, of which one is under watch. -/
def Agree (result : Slice × Board P) (watched : Slice × Board (Watched P)) : Prop :=
  watched.1 = result.1 ∧ result.2.Watches watched.2

/-- Neither does the DMA controller. -/
theorem runProgram_watched (program : BusProgram P Slice) :
    ∀ {board : Board P} {watched : Board (Watched P)}, board.Watches watched →
      Agree (runProgram program board) (runProgram program.watched watched) := by
  have S := watches_sim (P := P)
  induction program with
  | done result => exact fun h => ⟨rfl, h⟩
  | read address width next ih =>
    intro board watched h
    have hread := S.read h address width
    show Agree (runProgram (next (Bus.read board address width).1) _)
      (runProgram (next (Bus.read watched address width).1).watched _)
    rw [hread.answer_eq]
    exact ih _ hread.bus
  | write address value width next ih =>
    intro board watched h
    have hwrite := S.write h address value width
    show Agree (runProgram (next (Bus.write board address value width).1) _)
      (runProgram (next (Bus.write watched address value width).1).watched _)
    rw [hwrite.timing.eq]
    exact ih _ hwrite.bus
  | fetch address width next ih =>
    intro board watched h
    have hfetch := S.fetch h address width
    show Agree (runProgram (next (Bus.fetch board address width).1) _)
      (runProgram (next (Bus.fetch watched address width).1).watched _)
    rw [hfetch.answer_eq]
    exact ih _ hfetch.bus
  | latch word next ih => exact fun h => ih (S.latch h word)
  | update change next ih =>
    rintro board _ ⟨⟨hplugged, whole⟩, -⟩
    rename_i watched
    have h : (board.modifyPeripherals change).Watches
        ((board.plug watched).modifyPeripherals fun state =>
          { state with plugged := change state.plugged }) :=
      .plug ⟨congrArg change hplugged, whole⟩ trivial
    show Agree (runProgram (next board.peripherals) _)
      (runProgram (next watched.plugged).watched _)
    rw [hplugged]
    exact ih _ h

end Board

/-- The machine does not notice the watch, and all that it does with what is plugged in is done in
whole passages. -/
theorem watched_lockstep :
    Lockstep .attached Eq (Board.Watches : Board P → Board (Watched P) → Prop) where
  control h := h.control
  keypad := by
    rintro _ _ ⟨-, -⟩
    rfl
  slot := by
    rintro _ _ ⟨-, -⟩
    rfl
  nextEvent := by
    rintro _ _ ⟨related, -⟩ unit
    rw [← related.plugged]
    rfl
  pending := by
    rintro _ _ ⟨related, -⟩
    rw [← related.plugged]
    rfl
  withControl := by
    rintro _ _ ⟨related, -⟩ control
    exact .plug related trivial
  withKeypad := by
    rintro _ _ ⟨related, -⟩ keypad
    exact .plug related trivial
  withSlot := by
    rintro _ _ ⟨related, -⟩ slot
    exact .plug related trivial
  step := by
    rintro p _ a b rfl h
    have hs := Processor.step_alike Board.watches_sim (.refl p) h
    exact ⟨hs.processor.eq.symm, hs.bus, hs.cycles.symm⟩
  interrupt := by
    rintro p _ a b rfl h
    have hs := Processor.requestInterrupt_alike Board.watches_sim (.refl p) h
    exact ⟨hs.processor.eq.symm, hs.bus, hs.cycles.symm⟩
  round := by
    rintro _ _ ⟨related, -⟩ ticks
    obtain ⟨hsignals, hrelated⟩ := related.round ticks
    exact ⟨hsignals, .plug hrelated trivial⟩
  videoRound := by
    rintro _ _ ⟨related, -⟩ ticks
    obtain ⟨hsignals, hrelated⟩ := related.videoRound ticks
    exact ⟨hsignals, .plug hrelated trivial⟩
  transfer := by
    rintro board _ ⟨related, -⟩ limit
    rename_i watched
    have h : board.Watches
        { board with
          peripherals := ⟨watched.plugged, watched.contacts ++ [.transfer limit]⟩ } :=
      .plug (related.plugged.symm ▸ related.pass (.transfer limit) _) trivial
    exact Board.runProgram_watched (Peripherals.transfer limit) h

/-! ## Machines -/

namespace Machine

/-- The machine with its peripherals under watch, some contacts having been made. -/
def watched (m : Machine P) (contacts : List Contact) : Machine (Watched P) :=
  { m with board := m.board.plug ⟨m.board.peripherals, contacts⟩ }

/-- A machine and the same machine under watch. -/
abbrev UnderWatch (m : Machine P) (w : Machine (Watched P)) : Prop :=
  m.Related Eq Board.Watches w

omit [Peripherals P] in
theorem underWatch_watched (m : Machine P) (passages : List Passage) :
    m.UnderWatch (m.watched (contactsOf passages)) :=
  ⟨rfl, .plug ⟨rfl, passages, rfl⟩ trivial, rfl, rfl, rfl, rfl⟩

omit [Peripherals P] in
/-- A machine under watch is what it would be without, and its record is made of whole passages. -/
theorem UnderWatch.eq_watched {m : Machine P} {w : Machine (Watched P)} (h : m.UnderWatch w) :
    ∃ passages, w = m.watched (contactsOf passages) := by
  rcases m with ⟨processor, board, header, boot, elapsed, carried⟩
  rcases w with ⟨processor', board', header', boot', elapsed', carried'⟩
  obtain ⟨hprocessor, ⟨related, -⟩, hheader, hboot, helapsed, hcarried⟩ := h
  rename_i state
  rcases state with ⟨plugged, contacts⟩
  obtain ⟨hplugged, passages, hcontacts⟩ := related
  simp only at hprocessor hheader hboot helapsed hcarried hplugged hcontacts
  subst hprocessor hheader hboot helapsed hcarried hplugged hcontacts
  exact ⟨passages, rfl⟩

end Machine

end Handheld
