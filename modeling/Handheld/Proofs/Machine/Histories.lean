import Handheld.Proofs.Machine.Installed

/-!
# What a host may do

A host runs batches and frames, resets the machine, drives its bus and its processor by hand, and
changes the open parts of the board, among them the buttons that it holds.

1. `Deed` is one thing that a host may do, `Reply` what it learns, and `Machine.live` a history.
2. No deed changes what is installed (`installed_run`), and so no history does (`live_installed`).
-/

namespace Handheld

/-! ## Deeds -/

/-- What a host may do with a machine. -/
inductive Deed (P : Type)
  | batch (transfers : Nat)
  | frame (transfers : Nat)
  | reset
  | read (address : Word) (width : Width)
  | fetch (address : Word) (width : Width)
  | write (address value : Word) (width : Width)
  | latch (word : Word)
  | command (asked : Command)
  /-- The control block, the keypad with its buttons and what is plugged in are open to the host. -/
  | control (change : Control → Control)
  | keypad (change : Keypad → Keypad)
  | plug (change : P → P)

/-- What a host learns from a deed. -/
inductive Reply
  | ticks (count : Nat)
  | read (answer : Read)
  | timing (timing : Timing)
  | cycles (count : UInt32)
  | nothing
  deriving DecidableEq

variable {P : Type} [Peripherals P]

/-- The machine after a deed, and what the host learned from it. -/
def Deed.run (deed : Deed P) (m : Machine P) : Option (Reply × Machine P) :=
  match deed with
  | batch transfers => (m.runBatch transfers).map fun result => (.ticks result.1, result.2)
  | frame transfers => (m.runFrame transfers).map fun result => (.ticks result.1, result.2)
  | reset => some (.nothing, m.reset)
  | read address width =>
    match Bus.read m.board address width with
    | (answer, board) => some (.read answer, { m with board })
  | fetch address width =>
    match Bus.fetch m.board address width with
    | (answer, board) => some (.read answer, { m with board })
  | write address value width =>
    match Bus.write m.board address value width with
    | (timing, board) => some (.timing timing, { m with board })
  | latch word => some (.nothing, { m with board := Bus.latch m.board word })
  | command asked =>
    match asked.run m.processor m.board with
    | ⟨processor, board, cycles⟩ => some (.cycles cycles, { m with processor, board })
  | control change => some (.nothing, { m with board := m.board.modifyControl change })
  | keypad change =>
    some (.nothing, { m with board := { m.board with keypad := change m.board.keypad } })
  | plug change => some (.nothing, { m with board := m.board.modifyPeripherals change })

namespace Machine

/-- The machine after a history of deeds, and what the host learned from them. -/
def live : List (Deed P) → Machine P → Option (List Reply × Machine P)
  | [], m => some ([], m)
  | deed :: rest, m =>
    match deed.run m with
    | none => none
    | some (reply, m) => (live rest m).map fun result => (reply :: result.1, result.2)

/-! ## What no deed changes -/

theorem installed_run {deed : Deed P} {m m' : Machine P} {reply : Reply}
    (h : deed.run m = some (reply, m')) : m.Installed m' := by
  cases deed with
  | batch transfers =>
    obtain ⟨result, hb, he⟩ := Option.map_eq_some_iff.mp h
    cases he
    exact installed_runBatch hb
  | frame transfers =>
    obtain ⟨result, hf, he⟩ := Option.map_eq_some_iff.mp h
    cases he
    exact installed_runTicks _ _ _ hf
  | reset =>
    cases h
    exact m.installed_reset
  | read address width =>
    cases h
    exact .of_fixed (m.board.keeps_fixed.read (.refl _) address width) rfl rfl
  | fetch address width =>
    cases h
    exact .of_fixed (m.board.keeps_fixed.fetch (.refl _) address width) rfl rfl
  | write address value width =>
    cases h
    exact .of_fixed (m.board.keeps_fixed.write (.refl _) address value width) rfl rfl
  | command asked =>
    cases h
    exact .of_fixed (m.board.fixed_command m.processor asked) rfl rfl
  | _ =>
    cases h
    exact ⟨rfl, rfl, rfl, rfl, rfl⟩

theorem live_installed (history : List (Deed P)) :
    ∀ {m m' : Machine P} {replies : List Reply}, m.live history = some (replies, m') →
      m.Installed m' := by
  induction history with
  | nil =>
    intro m m' replies h
    cases h
    exact .refl m
  | cons deed rest ih =>
    intro m m' replies h
    unfold live at h
    cases hd : deed.run m with
    | none => rw [hd] at h; cases h
    | some result =>
      rw [hd] at h
      obtain ⟨later, hl, he⟩ := Option.map_eq_some_iff.mp h
      cases he
      exact (installed_run hd).trans (ih hl)

end Machine

end Handheld
