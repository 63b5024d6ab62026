import Handheld.Word

/-!
# The barrel shifter

A shift takes a value, an amount and the carry flag, and gives a value and a carry.

1. `Shift.byAmount` shifts by any amount; an amount of zero passes value and carry through.
2. `Shift.byImmediate` reads a five-bit field, in which zero stands for another shift: by 32 to
   the right, or a rotation by one through the carry.
-/

namespace Handheld

/-- The kind of a shift. -/
inductive Shift
  | lsl
  | lsr
  | asr
  | ror
  deriving DecidableEq, Inhabited

/-- A value and the carry that goes with it. -/
structure Shifted where
  value : Word
  carry : Bool
  deriving DecidableEq, Inhabited

namespace Shift

/-- The kind that the low two bits of a code select. -/
def ofCode (code : Word) : Shift :=
  match (code &&& 3).toNat with
  | 0 => lsl
  | 1 => lsr
  | 2 => asr
  | _ => ror

/-- Shift left, filling with zeros. -/
def left (value amount : Word) (carry : Bool) : Shifted :=
  if amount = 0 then ⟨value, carry⟩
  else if amount < 32 then ⟨value <<< amount, bit value (32 - amount)⟩
  else if amount = 32 then ⟨0, bit value 0⟩
  else ⟨0, false⟩

/-- Shift right, filling with zeros. -/
def right (value amount : Word) (carry : Bool) : Shifted :=
  if amount = 0 then ⟨value, carry⟩
  else if amount < 32 then ⟨value >>> amount, bit value (amount - 1)⟩
  else if amount = 32 then ⟨0, bit value 31⟩
  else ⟨0, false⟩

/-- Shift right, filling with the sign. -/
def arithmetic (value amount : Word) (carry : Bool) : Shifted :=
  if amount = 0 then ⟨value, carry⟩
  else if amount < 32 then
    ⟨(value.toInt32 >>> amount.toInt32).toUInt32, bit value (amount - 1)⟩
  else ⟨(value.toInt32 >>> 31).toUInt32, bit value 31⟩

/-- Rotate right; the carry is the top bit of the result. -/
def rotate (value amount : Word) (carry : Bool) : Shifted :=
  if amount = 0 then ⟨value, carry⟩
  else
    let result := rotateRight value (amount &&& 31)
    ⟨result, bit result 31⟩

/-- Rotate right by one place through the carry. -/
def throughCarry (value : Word) (carry : Bool) : Shifted :=
  ⟨carry.toUInt32 <<< 31 ||| value >>> 1, bit value 0⟩

/-- Shift by any amount. -/
def byAmount (shift : Shift) (value amount : Word) (carry : Bool) : Shifted :=
  match shift with
  | lsl => left value amount carry
  | lsr => right value amount carry
  | asr => arithmetic value amount carry
  | ror => rotate value amount carry

/-- Shift by the five-bit field of an instruction. -/
def byImmediate (shift : Shift) (value amount : Word) (carry : Bool) : Shifted :=
  if amount = 0 then
    match shift with
    | lsl => left value 0 carry
    | lsr => right value 32 carry
    | asr => arithmetic value 32 carry
    | ror => throughCarry value carry
  else shift.byAmount value amount carry

end Shift

end Handheld
