import Handheld.Machine
import Handheld.Proofs.Processor.Simulation

/-!
# Alike boards

The processor meets what is plugged into the board through its registers and video memory alone.
So states of the peripherals that answer there alike are not told apart by any program, and what
is said of the registers of the board itself need only be kept by the writes to them.

1. `Answers` relates states that answer alike, and `Kept` is a property of the board's own
   registers that writes keep.
2. `Board.Alike` relates boards that differ in what is plugged in, and `Board.sim` says that the
   processor goes the same way on them.
-/

namespace Handheld

variable {P D : Type}

/-- The board with something else plugged in. -/
def Board.plug (board : Board P) (state : D) : Board D :=
  { board with peripherals := state }

/-- Related states answer alike where a program meets them, and stay related. -/
structure Answers [Peripherals P] [Peripherals D] (A : P → D → Prop) : Prop where
  readRegister : ∀ {s : P} {t : D}, A s t → ∀ block address,
    (Peripherals.readRegister block address t).1 = (Peripherals.readRegister block address s).1 ∧
      A (Peripherals.readRegister block address s).2 (Peripherals.readRegister block address t).2
  writeRegister : ∀ {s : P} {t : D}, A s t → ∀ block address value,
    A (Peripherals.writeRegister block address value s)
      (Peripherals.writeRegister block address value t)
  readVideo : ∀ {s : P} {t : D}, A s t → ∀ address width,
    (Peripherals.readVideo address width t).1 = (Peripherals.readVideo address width s).1 ∧
      A (Peripherals.readVideo address width s).2 (Peripherals.readVideo address width t).2
  writeVideo : ∀ {s : P} {t : D}, A s t → ∀ address value width,
    A (Peripherals.writeVideo address value width s) (Peripherals.writeVideo address value width t)

/-- A property of the control block and the keypad that every write to their registers keeps. -/
structure Kept (I : Control → Keypad → Prop) : Prop where
  control : ∀ {control keypad}, I control keypad → ∀ address value,
    I (control.write address value) keypad
  keypad : ∀ {control keypad}, I control keypad → ∀ address value,
    I control (keypad.write address value)

theorem Answers.readDma [Peripherals P] [Peripherals D] {A : P → D → Prop} (hA : Answers A) {s : P}
    {t : D} (h : A s t) (dma : Dma) (address : Word) :
    (dma.readRegister address t).1 = (dma.readRegister address s).1 ∧
      A (dma.readRegister address s).2 (dma.readRegister address t).2 := by
  cases dma with
  | attached => exact hA.readRegister h .dma address
  | vacant => exact ⟨rfl, h⟩

theorem Answers.writeDma [Peripherals P] [Peripherals D] {A : P → D → Prop} (hA : Answers A) {s : P}
    {t : D} (h : A s t) (dma : Dma) (address : Word) (value : UInt8) :
    A (dma.writeRegister address value s) (dma.writeRegister address value t) := by
  cases dma with
  | attached => exact hA.writeRegister h .dma address value
  | vacant => exact h

theorem Kept.any : Kept fun _ _ => True where
  control _ _ _ := trivial
  keypad _ _ _ := trivial

namespace Board

/-- Boards that differ in what is plugged in alone, which is related; their own registers have a
property. -/
inductive Alike (A : P → D → Prop) (I : Control → Keypad → Prop) (board : Board P) :
    Board D → Prop
  | plug {state : D} (related : A board.peripherals state) (kept : I board.control board.keypad) :
    Alike A I board (board.plug state)

variable {A : P → D → Prop} {I : Control → Keypad → Prop} {board : Board P} {other : Board D}

theorem Alike.plug_eq (h : board.Alike A I other) : other = board.plug other.peripherals := by
  cases h
  rfl

theorem Alike.control (h : board.Alike A I other) : other.control = board.control := by
  cases h
  rfl

theorem Alike.related (h : board.Alike A I other) : A board.peripherals other.peripherals := by
  cases h
  assumption

theorem Alike.kept (h : board.Alike A I other) : I board.control board.keypad := by
  cases h
  assumption

variable [Peripherals P] [Peripherals D]

/-! ## Registers -/

theorem readRegister_alike (hA : Answers A) (h : board.Alike A I other) (address : Word) :
    (other.readRegister address).1 = (board.readRegister address).1 ∧
      (board.readRegister address).2.Alike A I (other.readRegister address).2 := by
  cases h with
  | plug related kept =>
    unfold readRegister
    cases registerOwner address with
    | plugged block =>
      by_cases hdma : block = .dma
      · have hr := hA.readDma related board.dma address
        simp only [plug, hdma, if_true]
        exact ⟨hr.1, .plug hr.2 kept⟩
      · have hr := hA.readRegister related block address
        simp only [plug, hdma, if_false]
        exact ⟨hr.1, .plug hr.2 kept⟩
    | _ => exact ⟨rfl, .plug related kept⟩

theorem writeRegister_alike (hA : Answers A) (hI : Kept I) (h : board.Alike A I other)
    (address : Word) (value : UInt8) :
    (board.writeRegister address value).Alike A I (other.writeRegister address value) := by
  cases h with
  | plug related kept =>
    unfold writeRegister
    cases registerOwner address with
    | plugged block =>
      by_cases hdma : block = .dma
      · simp only [plug, hdma, if_true]
        exact .plug (hA.writeDma related board.dma address value) kept
      · simp only [plug, hdma, if_false]
        exact .plug (hA.writeRegister related block address value) kept
    | keypad => exact .plug related (hI.keypad kept address value)
    | control => exact .plug related (hI.control kept address value)

theorem readLanes_alike (hA : Answers A) (base openWord : Word) (lanes : List Nat) :
    ∀ (sofar : Word) {board : Board P} {other : Board D}, board.Alike A I other →
      (readLanes base openWord lanes sofar other).1 =
          (readLanes base openWord lanes sofar board).1 ∧
        (readLanes base openWord lanes sofar board).2.Alike A I
          (readLanes base openWord lanes sofar other).2 := by
  induction lanes with
  | nil => exact fun sofar _ _ h => ⟨rfl, h⟩
  | cons index rest ih =>
    intro sofar board other h
    obtain ⟨hbyte, hnext⟩ := readRegister_alike hA h (base + UInt32.ofNat index)
    unfold readLanes
    simp only [hbyte]
    exact ih _ hnext

theorem writeLanes_alike (hA : Answers A) (hI : Kept I) (base value : Word) (lanes : List Nat) :
    ∀ {board : Board P} {other : Board D}, board.Alike A I other →
      (writeLanes base value lanes board).Alike A I (writeLanes base value lanes other) := by
  induction lanes with
  | nil => exact fun h => h
  | cons index rest ih => exact fun h => ih (writeRegister_alike hA hI h _ _)

/-! ## Accesses -/

theorem readAt_alike (hA : Answers A) (h : board.Alike A I other) (opcode : Bool)
    (address : Word) (width : Width) :
    ReadAlike .eq (Board.Alike A I) (board.readAt opcode address width)
      (other.readAt opcode address width) := by
  cases h with
  | plug related kept =>
    rename_i state
    have hp : (board.plug state).control.place (width.align address) =
        board.control.place (width.align address) := rfl
    unfold readAt
    simp only [hp]
    cases board.control.place (width.align address) with
    | registers =>
      have hl := readLanes_alike hA (width.align address)
        (board.openBus (width.align address) width) (List.range width.lanes) 0
        (.plug related kept)
      exact ⟨hl.1, .refl _, hl.2⟩
    | video =>
      have hv := hA.readVideo related (width.align address) width
      exact ⟨congrArg (fun data : Option Word =>
        data.getD (board.openBus (width.align address) width)) hv.1, .refl _, .plug hv.2 kept⟩
    | backup =>
      have hr := hA.readRegister related .backup address
      exact ⟨congrArg (fun byte : Option UInt8 =>
        (byte.getD 0).toUInt32 * 0x01010101 &&& width.mask) hr.1, .refl _, .plug hr.2 kept⟩
    | _ => exact ⟨rfl, .refl _, .plug related kept⟩

theorem writeAt_alike (hA : Answers A) (hI : Kept I) (h : board.Alike A I other)
    (address value : Word) (width : Width) :
    WriteAlike .eq (Board.Alike A I) (board.writeAt address value width)
      (other.writeAt address value width) := by
  cases h with
  | plug related kept =>
    rename_i state
    have hp : (board.plug state).control.place (width.align address) =
        board.control.place (width.align address) := rfl
    unfold writeAt
    simp only [hp]
    cases board.control.place (width.align address) with
    | large offset => exact ⟨.refl _, .plug related kept⟩
    | small offset => exact ⟨.refl _, .plug related kept⟩
    | registers =>
      exact ⟨.refl _, writeLanes_alike hA hI _ value _ (.plug related kept)⟩
    | video =>
      exact ⟨.refl _,
        .plug (hA.writeVideo related _ value width) kept⟩
    | backup =>
      exact ⟨.refl _,
        .plug (hA.writeRegister related .backup address _) kept⟩
    | _ => exact ⟨.refl _, .plug related kept⟩

/-- The processor goes the same way on alike boards. -/
theorem sim (hA : Answers A) (hI : Kept I) :
    BusSim .eq (Board.Alike A I : Board P → Board D → Prop) where
  read h := readAt_alike hA h false
  write h := writeAt_alike hA hI h
  fetch h := readAt_alike hA h true
  latch := by
    rintro _ _ ⟨related, kept⟩ word
    exact .plug related kept

end Board

end Handheld
