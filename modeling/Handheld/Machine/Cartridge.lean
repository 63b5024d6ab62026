import Handheld.Memory
import Handheld.Numeral

/-!
# Cartridges

A machine is built from a boot image and a cartridge dump, which have to fit.

1. `bootMemory` and `Rom.ofDump` turn the images into what the bus maps, or refuse them.
2. `Header.parse?` reads what identifies a cartridge.
-/

namespace Handheld

/-! ## Configuration -/

/-- How the machine starts. -/
inductive Boot
  /-- It runs the boot image from the reset vector. -/
  | bios
  /-- It skips the boot image, which may be empty, and starts on the cartridge. -/
  | direct
  deriving DecidableEq, Inhabited

/-- What a machine is built from. -/
structure Config where
  bios : ByteArray
  rom : ByteArray
  boot : Boot

/-- The size of the boot memory: 16K. -/
def biosSize : Nat := 0x4000

/-- The size of the largest cartridge: 32M. -/
def romMaxSize : Nat := 0x2000000

/-- Why a machine cannot be built. -/
inductive BuildError
  | biosSize (size : Nat)
  | emptyRom
  | romTooLarge (size : Nat)
  deriving DecidableEq

def BuildError.message : BuildError → String
  | .biosSize size =>
    "BIOS image is " ++ Numeral.text size ++ " bytes, expected " ++ Numeral.text Handheld.biosSize
  | .emptyRom => "cartridge image is empty"
  | .romTooLarge size =>
    "cartridge image is " ++ Numeral.text size ++ " bytes, larger than " ++
      Numeral.text romMaxSize

/-- The boot memory of an image: its first 16K, or zeros where a direct start needs none. -/
def bootMemory (image : ByteArray) (boot : Boot) : Except BuildError (Memory biosSize) :=
  if image.size = 0 ∧ boot = .direct then .ok (Memory.filled biosSize 0)
  else if h : biosSize ≤ image.size then
    .ok ⟨image.extract 0 biosSize, by rw [ByteArray.size_extract]; omega⟩
  else .error (.biosSize image.size)

/-! ## Cartridge ROM -/

/-- The least size of a mapped cartridge. -/
def romMinSize : Nat := 0x100

/-- A cartridge as the bus maps it: whole words, and at least as long as a header. -/
structure Rom where
  size : Nat
  image : Memory size
  size_ge : romMinSize ≤ size
  size_le : size ≤ romMaxSize
  size_mod : size % 4 = 0

namespace Rom

/-- The size of the cartridge that maps a dump. -/
def mappedSize (dump : Nat) : Nat :=
  max ((dump + 3) / 4 * 4) romMinSize

theorem le_mappedSize (dump : Nat) : dump ≤ mappedSize dump := by
  simp only [mappedSize]; omega

theorem mappedSize_le {dump : Nat} (h : dump ≤ romMaxSize) : mappedSize dump ≤ romMaxSize := by
  simp only [mappedSize, romMaxSize, romMinSize] at *; omega

theorem mappedSize_mod (dump : Nat) : mappedSize dump % 4 = 0 := by
  simp only [mappedSize, romMinSize]; omega

/-- Some bytes, and after them all ones up to a size. -/
def padded (dump : ByteArray) (size : Nat) : ByteArray :=
  dump ++ (Memory.filled (size - dump.size) 0xFF).bytes

theorem size_padded {dump : ByteArray} {size : Nat} (h : dump.size ≤ size) :
    (padded dump size).size = size := by
  simp only [padded, ByteArray.size_append, (Memory.filled _ _).size_bytes]; omega

/-- The cartridge that maps a dump, all ones past its end. -/
def ofDump (dump : ByteArray) : Except BuildError Rom :=
  if dump.size = 0 then .error .emptyRom
  else if h : dump.size ≤ romMaxSize then
    .ok
      { size := mappedSize dump.size
        image := ⟨padded dump (mappedSize dump.size), size_padded (le_mappedSize _)⟩
        size_ge := Nat.le_max_right ..
        size_le := mappedSize_le h
        size_mod := mappedSize_mod _ }
  else .error (.romTooLarge dump.size)

/-- The value of a width at an offset; a cartridge reads as zero past its end. -/
def load (rom : Rom) (offset : Nat) (width : Width) : Word :=
  if offset < rom.size then rom.image.load offset width else 0

end Rom

/-! ## The header -/

/-- What identifies a cartridge. -/
structure Header where
  title : String
  /-- The game code, after a fixed beginning. -/
  code : String
  /-- The check byte that the cartridge holds. -/
  stored : UInt8
  /-- The check byte that the rest of the header calls for. -/
  computed : UInt8
  deriving DecidableEq

namespace Header

/-- The number of bytes up to the end of the header. -/
def extent : Nat := 0xBE

/-- Bytes as text up to the first zero, with a question mark for what is not printable. -/
def printable (bytes : List UInt8) : String :=
  String.ofList ((bytes.takeWhile (· != 0)).map fun byte =>
    if 0x20 ≤ byte ∧ byte < 0x7F then Char.ofNat byte.toNat else '?')

/-- The check byte that some header bytes call for. -/
def check (bytes : List UInt8) : UInt8 :=
  bytes.foldl (fun sofar byte => sofar - byte) 0 - 0x19

/-- The bytes of a memory from one offset up to another. -/
def bytesBetween {size : Nat} (image : Memory size) (start stop : Nat) : List UInt8 :=
  (List.range (stop - start)).map fun index => image.byteAt (start + index)

/-- The header that a memory holds. -/
def ofMemory {size : Nat} (image : Memory size) : Header where
  title := printable (bytesBetween image 0xA0 0xAC)
  code := "AGB-" ++ printable (bytesBetween image 0xAC 0xB0)
  stored := image.byteAt 0xBD
  computed := check (bytesBetween image 0xA0 0xBD)

/-- The header of an image that is long enough to hold one. -/
def parse? (image : ByteArray) : Option Header :=
  if extent ≤ image.size then some (ofMemory (⟨image, rfl⟩ : Memory image.size)) else none

def valid (header : Header) : Bool :=
  header.stored == header.computed

end Header

end Handheld
