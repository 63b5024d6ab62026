import Handheld.Processor.Pipeline

/-!
# Data transfers

Loads and stores of single values and of lists of registers.

1. `loadValue` and `storeValue` move one value at any address; `extend` is what a load makes of
   the word it read.
2. `transfer` loads or stores a register, and `indexedTransfer` addresses it from a base.
3. `blockTransfer` moves a list of registers in ascending order.
-/

namespace Handheld

/-! ## What is moved, and where -/

/-- What a load or store moves. -/
structure Transfer where
  load : Bool
  register : Register
  width : Width
  /-- Whether a misaligned load rotates the addressed byte to the bottom. -/
  realign : Bool
  /-- Whether a load extends the sign. -/
  signed : Bool
  deriving DecidableEq

/-- How a transfer is addressed from a base register. -/
structure Indexing where
  base : Register
  /-- Whether the offset is added rather than subtracted. -/
  up : Bool
  /-- Whether the offset applies before the transfer. -/
  pre : Bool
  /-- Whether the base keeps the moved address. -/
  writeBack : Bool
  deriving DecidableEq

/-- The registers of a list, one bit for each, in ascending order. -/
def registersOf (list : UInt16) : List Register :=
  (List.finRange 16).filter fun number => bit list.toUInt32 (UInt32.ofNat number.val)

/-! ## Values -/

/-- What a load makes of the data read at an address: a misaligned value is rotated to bring
the addressed byte to the bottom, and a signed value is extended. A misaligned halfword counts
as a byte when its sign is extended. -/
def extend (address : Word) (width : Width) (realign signed : Bool) (data : Word) : Word :=
  let misaligned := address &&& (width.bytes - 1)
  let rotates := realign && misaligned != 0
  let value := data &&& width.mask
  let value := if rotates then rotateRight value (misaligned * 8) else value
  if signed then
    match width with
    | .byte => signExtend 8 value
    | .halfword => if rotates then signExtend 8 value else signExtend 16 value
    | .word => value
  else value

namespace Processor

variable {β : Type} [Bus β]

/-- Load a value at an address, aligned down on the bus. -/
def loadValue (bus : β) (address : Word) (width : Width) (realign signed : Bool) : Read × β :=
  match Bus.read bus (width.align address) width with
  | (answer, bus) => (⟨extend address width realign signed answer.data, answer.timing⟩, bus)

/-- Store the low bytes of a value at an address, aligned down on the bus. -/
def storeValue (bus : β) (address value : Word) (width : Width) : Timing × β :=
  Bus.write bus (width.align address) (value &&& width.mask) width

/-! ## Single transfers -/

/-- Load or store a register at an address. A store of the program counter reads it one
instruction ahead. -/
def transfer (p : Processor) (bus : β) (address : Word) (moved : Transfer) : Outcome β :=
  if moved.load then
    match loadValue bus address moved.width moved.realign moved.signed with
    | (answer, bus) =>
      let cycles := Cost.load p.fetchTiming answer.timing
      let p := p.set moved.register answer.data
      if moved.register = Register.pc then (p.completePcWrite bus false).costing cycles
      else ⟨p, bus, cycles⟩
  else
    let value := p.getAhead moved.register p.width.bytes
    match storeValue bus address value moved.width with
    | (timing, bus) => ⟨p, bus, Cost.store p.fetchTiming timing⟩

/-- Load or store a register at an address formed from a base. A transfer indexed afterwards
always writes the base back, and a value loaded into the base wins over it. -/
def indexedTransfer (p : Processor) (bus : β) (moved : Transfer) (indexing : Indexing)
    (offset : Word) : Outcome β :=
  let base := p.get indexing.base
  let shifted := if indexing.up then base + offset else base - offset
  let outcome := p.transfer bus (if indexing.pre then shifted else base) moved
  let clobbered := moved.load && moved.register = indexing.base
  if (indexing.writeBack || !indexing.pre) && !clobbered && indexing.base ≠ Register.pc then
    { outcome with processor := outcome.processor.set indexing.base shifted }
  else outcome

/-! ## Block transfers -/

/-- Load one register of a list, through the user bank where `user` asks for it. -/
def loadListed (p : Processor) (bus : β) (address : Word) (number : Register) (user : Bool) :
    Timing × Processor × β :=
  match loadValue bus address .word false false with
  | (answer, bus) =>
    (answer.timing, if user then p.setUser number answer.data else p.set number answer.data, bus)

/-- Store one register of a list, through the user bank where `user` asks for it. -/
def storeListed (p : Processor) (bus : β) (address : Word) (number : Register) (user : Bool) :
    Timing × Processor × β :=
  let value :=
    if number = Register.pc then p.getAhead Register.pc p.width.bytes
    else if user then p.registers.getUser number.val
    else p.get number
  match storeValue bus address value .word with
  | (timing, bus) => (timing, p, bus)

/-- Move the registers of a list to or from ascending addresses; after the first of them a
pending write-back of the base takes place. -/
def transferListed (load user : Bool) (pending : Option (Register × Word)) (first : Bool) :
    List Register → Word → Outcome β → Outcome β
  | [], _, outcome => outcome
  | number :: rest, address, ⟨p, bus, cycles⟩ =>
    match if load then p.loadListed bus address number user
      else p.storeListed bus address number user with
    | (timing, p, bus) =>
      let p :=
        match pending with
        | some (base, moved) => p.set base moved
        | none => p
      transferListed load user none false rest (address + 4)
        ⟨p, bus, cycles + Cost.blockWord timing first⟩

/-- Load or store a list of registers. An empty list stands for the program counter alone and
moves the base by 64. `userBank` selects the registers of user mode, but in a load of the
program counter it restores the saved status word instead. -/
def blockTransfer (p : Processor) (bus : β) (load : Bool) (list : UInt16) (indexing : Indexing)
    (userBank : Bool) : Outcome β :=
  let registers := if list = 0 then [Register.pc] else registersOf list
  let distance : Word := if list = 0 then 64 else UInt32.ofNat (4 * registers.length)
  let base := p.get indexing.base
  let moved := if indexing.up then base + distance else base - distance
  let lowest := if indexing.up then base else moved
  let start := if indexing.up = indexing.pre then lowest + 4 else lowest
  let loadsPc := load && registers.contains Register.pc
  let writesBack :=
    indexing.writeBack && indexing.base ≠ Register.pc &&
      !(load && registers.contains indexing.base)
  let outcome :=
    transferListed load (userBank && !loadsPc)
      (if writesBack then some (indexing.base, moved) else none) true registers start
      ⟨p, bus, Cost.blockStart p.fetchTiming load⟩
  if loadsPc then
    (outcome.processor.completePcWrite outcome.bus userBank).costing outcome.cycles
  else outcome

end Processor

end Handheld
