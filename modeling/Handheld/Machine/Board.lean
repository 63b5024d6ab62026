import Handheld.Machine.Cartridge
import Handheld.Machine.Control
import Handheld.Machine.Keypad
import Handheld.Machine.Peripherals

/-!
# The board

The board connects the processor to memory, to the control block and the keypad, and to what is
plugged in. Bits 24 to 31 of an address select a region; what nothing answers reads as the word
in the processor's fetch slot.

1. `Place` says where an access goes, and `Board.place` decodes an address to it.
2. `Board.readAt` and `Board.writeAt` are the accesses, and `Board.peek` looks at memory without
   one.
3. `Board.runProgram` lets a device talk to the board.
-/

namespace Handheld

/-! ## Places -/

/-- Where an access goes. -/
inductive Place
  | bios (offset : Nat)
  | large (offset : Nat)
  | small (offset : Nat)
  | registers
  | video
  | cartridge (offset : Nat)
  | backup
  | nothing
  deriving DecidableEq

def largeSize : Nat := 0x40000

def smallSize : Nat := 0x8000

/-- The place of an address in a work RAM region. Large work RAM that is switched off gives way
to the small one. -/
def Control.ramPlace (control : Control) (large : Bool) (address : Word) : Place :=
  if !control.ramEnabled then .nothing
  else if large && control.largeRamEnabled then .large (address &&& 0x3FFFF).toNat
  else .small (address &&& 0x7FFF).toNat

/-- The place of an address. -/
def Control.place (control : Control) (address : Word) : Place :=
  match (address >>> 24).toNat with
  | 0x00 => if address.toNat < biosSize then .bios address.toNat else .nothing
  | 0x02 => control.ramPlace true address
  | 0x03 => control.ramPlace false address
  | 0x04 => .registers
  | 0x05 | 0x06 | 0x07 => .video
  | 0x08 | 0x09 | 0x0A | 0x0B | 0x0C | 0x0D => .cartridge (address &&& 0x01FFFFFF).toNat
  | 0x0E | 0x0F => .backup
  | _ => .nothing

/-- What answers at a register address. -/
inductive RegisterOwner
  | plugged (block : Block)
  | keypad
  | control
  deriving DecidableEq

def registerOwner (address : Word) : RegisterOwner :=
  if address < 0x04000060 then .plugged .video
  else if address < 0x040000B0 then .plugged .audio
  else if address < 0x04000100 then .plugged .dma
  else if address < 0x04000120 then .plugged .timers
  else if address < 0x04000130 then .plugged .serial
  else if address < 0x04000134 then .keypad
  else if address < 0x04000200 then .plugged .serial
  else .control

/-! ## The board -/

/-- The board with everything on it. -/
structure Board (P : Type) where
  bios : Memory biosSize
  large : Memory largeSize
  small : Memory smallSize
  rom : Rom
  control : Control
  keypad : Keypad
  peripherals : P
  /-- What the slot of the DMA controller holds. -/
  dma : Dma
  /-- The word in the processor's fetch slot. -/
  prefetched : Word

namespace Board

variable {P : Type}

/-- The board of a configuration, with some peripherals plugged in. -/
def build (config : Config) (peripherals : P) : Except BuildError (Board P) := do
  let bios ← bootMemory config.bios config.boot
  let rom ← Rom.ofDump config.rom
  return ⟨bios, Memory.filled largeSize 0, Memory.filled smallSize 0, rom, Control.initial,
    Keypad.initial, peripherals, .attached, 0⟩

/-- Clear work RAM and the registers of the board; what is plugged in keeps its state. -/
def reset (board : Board P) : Board P :=
  { board with
    large := Memory.filled largeSize 0
    small := Memory.filled smallSize 0
    control := Control.initial
    keypad := board.keypad.reset
    prefetched := 0 }

def modifyControl (board : Board P) (change : Control → Control) : Board P :=
  { board with control := change board.control }

def modifyPeripherals (board : Board P) (change : P → P) : Board P :=
  { board with peripherals := change board.peripherals }

/-- The byte of memory at an address, without an access; peripherals have none to show. -/
def peek (board : Board P) (address : Word) : Option UInt8 :=
  match (address >>> 24).toNat with
  | 0x00 =>
    if address.toNat < biosSize then some (board.bios.byteAt address.toNat) else none
  | 0x02 => some (board.large.byteAt (address &&& 0x3FFFF).toNat)
  | 0x03 => some (board.small.byteAt (address &&& 0x7FFF).toNat)
  | 0x08 | 0x09 | 0x0A | 0x0B | 0x0C | 0x0D =>
    let offset := (address &&& 0x01FFFFFF).toNat
    if offset < board.rom.size then some (board.rom.image.byteAt offset) else none
  | _ => none

/-! ## Accesses -/

/-- What a read sees where nothing answers: the lanes of the word in the fetch slot. -/
def openBus (board : Board P) (address : Word) (width : Width) : Word :=
  match width with
  | .word => board.prefetched
  | .halfword => field board.prefetched ((address &&& 2) * 8) 0xFFFF
  | .byte => field board.prefetched ((address &&& 3) * 8) 0xFF

/-- The cost of video memory: its bus is narrow but for the sprites in region 7. -/
def videoWait (address : Word) (width : Width) : Timing :=
  if address >>> 24 = 0x07 then Timing.single
  else
    match width with
    | .word => Timing.uniform 2
    | _ => Timing.single

/-- The cost of an opcode or data read from the cartridge; a cartridge that prefetches has
opcodes ready. -/
def cartridgeReadWait (control : Control) (opcode : Bool) (address : Word) (width : Width) :
    Timing :=
  if opcode && control.prefetchEnabled then
    match width with
    | .word => Timing.uniform 2
    | _ => Timing.single
  else control.romWait address width

/-- The byte that a write to the backup carries: the lane that the address selects. -/
def backupLane (address value : Word) (width : Width) : UInt8 :=
  lane value (address &&& (width.bytes - 1)).toNat

variable [Peripherals P]

/-- Read a register byte. Those of the DMA controller are read by way of its slot. -/
def readRegister (board : Board P) (address : Word) : Option UInt8 × Board P :=
  match registerOwner address with
  | .keypad => (board.keypad.read? address, board)
  | .control => (board.control.read? address, board)
  | .plugged block =>
    let answer :=
      if block = .dma then board.dma.readRegister address board.peripherals
      else Peripherals.readRegister block address board.peripherals
    match answer with
    | (byte, peripherals) => (byte, { board with peripherals })

def writeRegister (board : Board P) (address : Word) (value : UInt8) : Board P :=
  match registerOwner address with
  | .keypad => { board with keypad := board.keypad.write address value }
  | .control => { board with control := board.control.write address value }
  | .plugged block =>
    if block = .dma then board.modifyPeripherals (board.dma.writeRegister address value)
    else board.modifyPeripherals (Peripherals.writeRegister block address value)

/-- Read the register bytes of some lanes; a lane without a register reads as the open bus. -/
def readLanes (base openWord : Word) : List Nat → Word → Board P → Word × Board P
  | [], sofar, board => (sofar, board)
  | index :: rest, sofar, board =>
    match board.readRegister (base + UInt32.ofNat index) with
    | (byte, board) =>
      let byte := byte.getD (lane openWord index)
      readLanes base openWord rest (sofar ||| byte.toUInt32 <<< UInt32.ofNat (8 * index)) board

/-- Write the register bytes of some lanes. -/
def writeLanes (base value : Word) (lanes : List Nat) (board : Board P) : Board P :=
  lanes.foldl
    (fun board index => board.writeRegister (base + UInt32.ofNat index) (lane value index)) board

/-- Read at an address, as data or as an opcode. -/
def readAt (board : Board P) (opcode : Bool) (address : Word) (width : Width) :
    Read × Board P :=
  let base := width.align address
  match board.control.place base with
  | .bios offset => (Read.single (board.bios.load offset width), board)
  | .large offset => (⟨board.large.load offset width, board.control.largeRamWait width⟩, board)
  | .small offset => (Read.single (board.small.load offset width), board)
  | .registers =>
    match readLanes base (board.openBus base width) (List.range width.lanes) 0 board with
    | (data, board) => (Read.single data, board)
  | .video =>
    match Peripherals.readVideo base width board.peripherals with
    | (answer, peripherals) =>
      let data := answer.getD (board.openBus base width)
      (⟨data, videoWait base width⟩, { board with peripherals })
  | .cartridge offset =>
    (⟨board.rom.load offset width, cartridgeReadWait board.control opcode base width⟩, board)
  | .backup =>
    match Peripherals.readRegister .backup address board.peripherals with
    | (byte, peripherals) =>
      let data := (byte.getD 0).toUInt32 * 0x01010101 &&& width.mask
      (⟨data, board.control.backupWait⟩, { board with peripherals })
  | .nothing => (Read.single (board.openBus base width), board)

/-- Write the low bytes of a value at an address. -/
def writeAt (board : Board P) (address value : Word) (width : Width) : Timing × Board P :=
  let base := width.align address
  match board.control.place base with
  | .large offset =>
    match board with
    | ⟨bios, large, small, rom, control, keypad, peripherals, dma, prefetched⟩ =>
      (control.largeRamWait width,
        ⟨bios, large.store offset value width, small, rom, control, keypad, peripherals, dma,
          prefetched⟩)
  | .small offset =>
    match board with
    | ⟨bios, large, small, rom, control, keypad, peripherals, dma, prefetched⟩ =>
      (Timing.single,
        ⟨bios, large, small.store offset value width, rom, control, keypad, peripherals, dma,
          prefetched⟩)
  | .registers => (Timing.single, writeLanes base value (List.range width.lanes) board)
  | .video =>
    (videoWait base width, board.modifyPeripherals (Peripherals.writeVideo base value width))
  | .cartridge _ => (board.control.romWait base width, board)
  | .backup =>
    (board.control.backupWait,
      board.modifyPeripherals
        (Peripherals.writeRegister .backup address (backupLane address value width)))
  | .bios _ | .nothing => (Timing.single, board)

instance : Bus (Board P) where
  read board address width := board.readAt false address width
  write board address value width := board.writeAt address value width
  fetch board address width := board.readAt true address width
  latch board word := { board with prefetched := word }

/-- Hold a conversation of a device with the board. -/
def runProgram {α : Type} (program : BusProgram P α) (board : Board P) : α × Board P :=
  program.run peripherals (fun change board => board.modifyPeripherals change) board

end Board

end Handheld
