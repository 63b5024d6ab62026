/-!
# Words

The words that the handheld computes with, and the ways it reads parts of them.

1. `bit`, `field` and `lane` read one bit, some bits and one byte of a word; `signExtend` reads
   its low bits as a signed number.
2. `rotateRight` rotates by an amount below 32.
3. `withLowByte` and `withHighByte` replace one byte of a halfword, as a byte-wide write does.
-/

namespace Handheld

/-- A 32-bit address, opcode or register value. -/
abbrev Word := UInt32

/-! ## Parts of words -/

/-- Whether a bit of a word is set. -/
def bit (word index : Word) : Bool :=
  (word >>> index) &&& 1 == 1

/-- The bits of a word from a position on, as far as a mask reaches. -/
def field (word position mask : Word) : Word :=
  (word >>> position) &&& mask

theorem toNat_and_le (word mask : Word) : (word &&& mask).toNat ≤ mask.toNat := by
  rw [UInt32.toNat_and]
  exact Nat.and_le_right

/-- Byte `index` of a word, the lowest first. -/
def lane (word : Word) (index : Nat) : UInt8 :=
  (word >>> UInt32.ofNat (8 * index)).toUInt8

/-- The low `bits` bits of a word as a signed number. -/
def signExtend (bits word : Word) : Word :=
  ((word <<< (32 - bits)).toInt32 >>> (32 - bits).toInt32).toUInt32

/-- A word rotated right by an amount below 32. -/
def rotateRight (word amount : Word) : Word :=
  word >>> amount ||| word <<< (32 - amount)

/-! ## Registers of two bytes -/

def lowByte (value : UInt16) : UInt8 := value.toUInt8

def highByte (value : UInt16) : UInt8 := (value >>> 8).toUInt8

def withLowByte (value : UInt16) (byte : UInt8) : UInt16 :=
  value &&& (0xFF00 : UInt16) ||| byte.toUInt16

def withHighByte (value : UInt16) (byte : UInt8) : UInt16 :=
  value &&& (0x00FF : UInt16) ||| byte.toUInt16 <<< (8 : UInt16)

end Handheld
