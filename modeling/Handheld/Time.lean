/-!
# Time

Time is counted in ticks of one master clock.

1. `Ticks.elapsed` says how far a signed amount moves time forward: not at all unless it is
   positive, and by at most `2 ^ 32 - 1` at once.
2. `Clock` relates ticks to frames and seconds.
-/

namespace Handheld

/-! ## Ticks -/

/-- A cumulative count of master clock ticks. -/
structure Ticks where
  count : Nat
  deriving DecidableEq, Inhabited

namespace Ticks

def zero : Ticks := ⟨0⟩

/-- The ticks that pass when a signed amount of cycles is spent; none unless it is positive. -/
def elapsed (cycles : Int) : Option UInt32 :=
  if cycles ≤ 0 then none
  else some (UInt32.ofNat (min cycles.toNat 0xFFFFFFFF))

theorem elapsed_eq_none_iff {cycles : Int} : elapsed cycles = none ↔ cycles ≤ 0 := by
  unfold elapsed; split <;> simp_all

/-- Move forward by a signed amount; what is not positive moves nothing. -/
def advance (ticks : Ticks) (cycles : Int) : Ticks :=
  match elapsed cycles with
  | none => ticks
  | some passed => ⟨ticks.count + passed.toNat⟩

instance : Add Ticks := ⟨fun a b => ⟨a.count + b.count⟩⟩

/-- The ticks from the second count to the first, none if the first is the smaller. -/
instance : Sub Ticks := ⟨fun a b => ⟨a.count - b.count⟩⟩

end Ticks

/-! ## The master clock -/

/-- A crystal frequency in hertz and the length of a video frame in its cycles. -/
structure Clock where
  frequency : Nat
  cyclesPerFrame : Nat
  deriving DecidableEq

namespace Clock

/-- A crystal of 2^24 Hz and frames of 228 lines, each 1232 cycles long. -/
def handheld : Clock := ⟨16777216, 228 * 1232⟩

def ticksPerFrame (clock : Clock) : Ticks := ⟨clock.cyclesPerFrame⟩

/-- Frames per thousand seconds, rounded down; a frame of no cycles has no rate. -/
def frameRate? (clock : Clock) : Option Nat :=
  if clock.cyclesPerFrame = 0 then none
  else some (clock.frequency * 1000 / clock.cyclesPerFrame)

end Clock

end Handheld
