import Mathlib.Data.Nat.Digits.Defs
import Mathlib.Order.Bounds.Defs
import Handheld.Proofs.Machine.WorkRam

/-!
# Arrays that are long enough

A board is built from images of any length, or refused. After that no access looks at a length
again, but for the ends of the boot memory and of the cartridge, and yet none leaves an array.

1. `Memory.slice?` and its neighbours are accesses to an array that fail where they leave it, and
   `Control.windowWait?` are the lookups of wait states in their tables.
2. `Place.HasRoom` says that there is room for an access at its place, and `place_hasRoom` that
   there always is: addresses are aligned, and all sizes are whole words.
3. `Board.attempt` is an access that fails with the accesses to arrays that it makes, and
   `attempt_eq` says that it never does.
4. `Accepts` are the configurations that can be built, and `Mapped` is what is built from them.
   `construction_bounds` puts all together.
-/

namespace Handheld

/-! ## Arrays -/

/-- The number whose bytes are given, the lowest first. -/
def littleEndian (bytes : List UInt8) : Word :=
  bytes.foldr (fun byte sofar => sofar <<< 8 ||| byte.toUInt32) 0

theorem ofDigits_bytes_lt (bytes : List UInt8) :
    Nat.ofDigits 256 (bytes.map UInt8.toNat) < 256 ^ bytes.length := by
  rw [← List.length_map UInt8.toNat]
  refine Nat.ofDigits_lt_base_pow_length (by decide) fun digit hdigit => ?_
  obtain ⟨byte, -, rfl⟩ := List.mem_map.mp hdigit
  exact byte.toNat_lt

/-- As long as all bytes fit into a word, none is lost. -/
theorem toNat_littleEndian (bytes : List UInt8) (h : bytes.length ≤ 4) :
    (littleEndian bytes).toNat = Nat.ofDigits 256 (bytes.map UInt8.toNat) := by
  induction bytes with
  | nil => rfl
  | cons byte rest ih =>
    have hlength : rest.length ≤ 3 := Nat.le_of_succ_le_succ h
    have hrest := ih (hlength.trans (by decide))
    have hlt : Nat.ofDigits 256 (rest.map UInt8.toNat) < 2 ^ 24 :=
      (ofDigits_bytes_lt rest).trans_le (Nat.pow_le_pow_right (by decide) hlength)
    have hshift : (littleEndian rest <<< 8).toNat = (littleEndian rest).toNat <<< 8 := by
      have hroom : (littleEndian rest).toNat <<< 8 < 2 ^ 32 := by
        rw [hrest, Nat.shiftLeft_eq]
        omega
      rw [UInt32.toNat_shiftLeft]
      exact Nat.mod_eq_of_lt hroom
    have hbyte := byte.toNat_lt
    show (littleEndian rest <<< 8 ||| byte.toUInt32).toNat = _
    rw [UInt32.toNat_or, hshift, UInt8.toNat_toUInt32, ← Nat.shiftLeft_add_eq_or_of_lt hbyte,
      Nat.shiftLeft_eq, hrest, List.map_cons, Nat.ofDigits_cons]
    omega

namespace Memory

variable {size : Nat} (memory : Memory size)

/-- The bytes from one index up to another, where the array has them. -/
def slice? (start stop : Nat) : Option (List UInt8) :=
  if start ≤ stop ∧ stop ≤ memory.bytes.size then
    some (memory.bytes.extract start stop).data.toList
  else none

/-- The byte at an index, where the array has it. -/
def index? (index : Nat) : Option UInt8 :=
  if h : index < memory.bytes.size then some memory.bytes[index] else none

/-- The value of a width at an offset, where the array has its bytes. -/
def load? (offset : Nat) (width : Width) : Option Word :=
  (memory.slice? offset (offset + width.lanes)).map littleEndian

/-- Write the low bytes of a value at an offset, where the array has room for them. -/
def store? (offset : Nat) (value : Word) (width : Width) : Option (Memory size) :=
  if offset + width.lanes ≤ memory.bytes.size then some (memory.store offset value width) else none

theorem slice?_eq {start stop : Nat} (h : start ≤ stop) (hstop : stop ≤ size) :
    memory.slice? start stop = some (Header.bytesBetween memory start stop) := by
  have hsize := memory.size_bytes
  rw [slice?, if_pos ⟨h, by omega⟩]
  refine congrArg some (List.ext_getElem ?_ fun index hindex _ => ?_)
  · rw [Array.length_toList, Header.bytesBetween, List.length_map, List.length_range]
    show (memory.bytes.extract start stop).size = _
    rw [ByteArray.size_extract]
    omega
  · have hlength : index < (memory.bytes.extract start stop).size := hindex
    have hinside : start + index < memory.bytes.size := by
      rw [ByteArray.size_extract] at hlength
      omega
    have hextract := ByteArray.getElem_extract hlength
    simp only [Header.bytesBetween, List.getElem_map, List.getElem_range, byteAt, dif_pos hinside]
    exact hextract

theorem index?_eq {index : Nat} (h : index < size) :
    memory.index? index = some (memory.byteAt index) := by
  have hb : index < memory.bytes.size := by rw [memory.size_bytes]; exact h
  rw [index?, dif_pos hb, byteAt, dif_pos hb]

theorem index?_eq_ite (index : Nat) :
    memory.index? index = if index < size then some (memory.byteAt index) else none := by
  split_ifs with h
  · exact memory.index?_eq h
  · exact dif_neg (by rw [memory.size_bytes]; exact h)

theorem littleEndian_bytesBetween (offset : Nat) (width : Width) :
    littleEndian (Header.bytesBetween memory offset (offset + width.lanes)) =
      memory.load offset width := by
  have hlength : (Header.bytesBetween memory offset (offset + width.lanes)).length ≤ 4 := by
    rw [Header.bytesBetween, List.length_map, List.length_range, Nat.add_sub_cancel_left]
    exact width.lanes_le
  rw [← UInt32.toNat_inj, toNat_littleEndian _ hlength, load, Width.toNat_assemble,
    Header.bytesBetween, Nat.add_sub_cancel_left, List.map_map]
  rfl

theorem load?_eq {offset : Nat} {width : Width} (h : offset + width.lanes ≤ size) :
    memory.load? offset width = some (memory.load offset width) := by
  rw [load?, memory.slice?_eq (Nat.le_add_right ..) h, Option.map_some, littleEndian_bytesBetween]

/-- A word does not fit into three bytes. -/
example : (filled 3 0).load? 0 .word = none := rfl

theorem store?_eq {offset : Nat} {width : Width} (h : offset + width.lanes ≤ size) (value : Word) :
    memory.store? offset value width = some (memory.store offset value width) := by
  rw [store?, if_pos]
  rw [memory.size_bytes]
  exact h

end Memory

/-- The value of a width at an offset of a cartridge, which is zero past its end. -/
def Rom.load? (rom : Rom) (offset : Nat) (width : Width) : Option Word :=
  if offset < rom.image.bytes.size then rom.image.load? offset width else some 0

namespace Header

/-- The header of an image, where the image has all of its bytes. -/
def slices? {size : Nat} (image : Memory size) : Option Header := do
  let checked ← image.slice? 0xA0 0xBD
  let title ← image.slice? 0xA0 0xAC
  let code ← image.slice? 0xAC 0xB0
  let stored ← image.index? 0xBD
  return ⟨printable title, "AGB-" ++ printable code, stored, check checked⟩

theorem slices?_eq {size : Nat} {image : Memory size} (h : extent ≤ size) :
    slices? image = some (ofMemory image) := by
  unfold extent at h
  unfold slices?
  rw [image.slice?_eq (by decide) (by omega), image.slice?_eq (by decide) (by omega),
    image.slice?_eq (by decide) (by omega), image.index?_eq (by omega)]
  rfl

end Header

/-! ## Wait states -/

namespace Control

/-- The cost of a first access by a two-bit code, from a table of four. -/
def firstAccess? (code : UInt16) : Option UInt32 :=
  #[5, 4, 3, 9][(code &&& 3).toNat]?

/-- The cost of a second access by a one-bit code, from a table of two. -/
def secondAccess? (code : UInt16) (slow : UInt32) : Option UInt32 :=
  #[slow, 2][(code &&& 1).toNat]?

theorem firstAccess?_eq (code : UInt16) : firstAccess? code = some (firstAccess code) := by
  have hindex : (code &&& 3).toNat < 4 := by
    rw [UInt16.toNat_and]
    exact Nat.lt_of_le_of_lt Nat.and_le_right (by decide)
  unfold firstAccess? firstAccess
  generalize (code &&& 3).toNat = index at hindex ⊢
  interval_cases index <;> rfl

theorem secondAccess?_eq (code : UInt16) (slow : UInt32) :
    secondAccess? code slow = some (secondAccess code slow) := by
  have hindex : (code &&& 1).toNat < 2 := by
    rw [UInt16.toNat_and]
    exact Nat.lt_of_le_of_lt Nat.and_le_right (by decide)
  unfold secondAccess? secondAccess
  simp only [← UInt16.toNat_inj]
  generalize (code &&& 1).toNat = index at hindex ⊢
  interval_cases index <;> rfl

variable (control : Control)

/-- The cost of a halfword in a cartridge window, looked up by the codes for the window. -/
def windowWait? (address : Word) : Option Timing :=
  let wait := control.waitStates
  let look (first second : UInt16) (slow : UInt32) : Option Timing := do
    return ⟨← firstAccess? first, ← secondAccess? second slow⟩
  if address < 0x0A000000 then look (wait >>> 2) (wait >>> 4) 3
  else if address < 0x0C000000 then look (wait >>> 5) (wait >>> 7) 5
  else look (wait >>> 8) (wait >>> 10) 9

/-- The cost of an access to cartridge ROM, by way of the tables. -/
def romWait? (address : Word) (width : Width) : Option Timing := do
  let base := width.align address
  let half ← control.windowWait? base
  let timing : Timing :=
    match width with
    | .word => ⟨half.nonseq + half.seq, half.seq + half.seq⟩
    | _ => half
  return if base &&& 0x0001FFFF = 0 then ⟨timing.nonseq, timing.nonseq⟩ else timing

/-- The cost of an access to the cartridge backup, by way of the tables. -/
def backupWait? : Option Timing :=
  (firstAccess? control.waitStates).map Timing.uniform

theorem windowWait?_eq (address : Word) :
    control.windowWait? address = some (control.windowWait address) := by
  unfold windowWait? windowWait
  simp only [firstAccess?_eq, secondAccess?_eq]
  split_ifs <;> rfl

theorem romWait?_eq (address : Word) (width : Width) :
    control.romWait? address width = some (control.romWait address width) := by
  show (control.windowWait? (width.align address)).bind _ = _
  rw [windowWait?_eq]
  rfl

theorem backupWait?_eq : control.backupWait? = some control.backupWait := by
  rw [backupWait?, firstAccess?_eq, Option.map_some]
  rfl

end Control

/-! ## Places -/

/-- There is room for an access at its place. -/
def Place.HasRoom (width : Width) : Place → Prop
  | .bios offset => offset + width.lanes ≤ biosSize
  | .large offset => offset + width.lanes ≤ largeSize
  | .small offset => offset + width.lanes ≤ smallSize
  | .cartridge offset => width.lanes ∣ offset
  | .registers | .video | .backup | .nothing => True

theorem Width.lanes_dvd_four (width : Width) : width.lanes ∣ 4 := by
  cases width <;> decide

/-- What begins inside an array of whole words at a multiple of its width also ends there. -/
theorem Width.room {width : Width} {offset size : Nat} (hoffset : width.lanes ∣ offset)
    (hsize : 4 ∣ size) (h : offset < size) : offset + width.lanes ≤ size := by
  have hrest : width.lanes ≤ size - offset :=
    Nat.le_of_dvd (by omega) (Nat.dvd_sub (width.lanes_dvd_four.trans hsize) hoffset)
  omega

/-- Mirrors keep multiples of the width. -/
theorem Width.lanes_dvd_mirror {width : Width} {address mask : Word} (i : Nat)
    (hmask : mask.toNat = 2 ^ i - 1) (hi : 2 ≤ i) :
    width.lanes ∣ (width.align address &&& mask).toNat := by
  have hsize : width.lanes ∣ 2 ^ i := width.lanes_dvd_four.trans (Nat.pow_dvd_pow 2 hi)
  rw [UInt32.toNat_and, hmask, Nat.and_two_pow_sub_one_eq_mod]
  exact (Nat.dvd_mod_iff hsize).mpr (width.lanes_dvd_align address)

theorem mirror_lt {address mask : Word} {i : Nat} (hmask : mask.toNat = 2 ^ i - 1) :
    (address &&& mask).toNat < 2 ^ i := by
  have hpos := Nat.two_pow_pos i
  have hle := toNat_and_le address mask
  omega

namespace Control

variable (control : Control) (width : Width) (address : Word)

theorem ramPlace_hasRoom (large : Bool) :
    (control.ramPlace large (width.align address)).HasRoom width := by
  unfold ramPlace
  split_ifs
  · trivial
  · have hlt : (width.align address &&& 0x3FFFF).toNat < largeSize := mirror_lt (i := 18) rfl
    exact Width.room (Width.lanes_dvd_mirror 18 rfl (by decide)) (by decide) hlt
  · have hlt : (width.align address &&& 0x7FFF).toNat < smallSize := mirror_lt (i := 15) rfl
    exact Width.room (Width.lanes_dvd_mirror 15 rfl (by decide)) (by decide) hlt

/-- Every access has room where it goes. -/
theorem place_hasRoom : (control.place (width.align address)).HasRoom width := by
  unfold place
  split
  case h_1 =>
    split_ifs with h
    · exact Width.room (width.lanes_dvd_align address) (by decide) h
    · trivial
  case h_2 | h_3 => exact control.ramPlace_hasRoom width address _
  case h_8 | h_9 | h_10 | h_11 | h_12 | h_13 => exact Width.lanes_dvd_mirror 25 rfl (by decide)
  all_goals trivial

end Control

theorem Rom.load?_eq (rom : Rom) {offset : Nat} {width : Width} (h : width.lanes ∣ offset) :
    rom.load? offset width = some (rom.load offset width) := by
  rw [load?, load, rom.image.size_bytes]
  split_ifs with hlt
  · exact rom.image.load?_eq (Width.room h (Nat.dvd_of_mod_eq_zero rom.size_mod) hlt)
  · rfl

/-! ## Accesses -/

namespace Board

variable {P : Type}

/-- The cost of an opcode or data read from the cartridge, by way of the tables. -/
def cartridgeReadWait? (control : Control) (opcode : Bool) (address : Word) (width : Width) :
    Option Timing :=
  if opcode && control.prefetchEnabled then
    some (match width with
      | .word => Timing.uniform 2
      | _ => Timing.single)
  else control.romWait? address width

/-- The byte of memory at an address, without an access. The boot memory and the cartridge have none
to show past their ends; an array that is too short is another matter. -/
def peek? (board : Board P) (address : Word) : Option (Option UInt8) :=
  match (address >>> 24).toNat with
  | 0x00 => some (board.bios.index? address.toNat)
  | 0x02 => (board.large.index? (address &&& 0x3FFFF).toNat).map some
  | 0x03 => (board.small.index? (address &&& 0x7FFF).toNat).map some
  | 0x08 | 0x09 | 0x0A | 0x0B | 0x0C | 0x0D =>
    some (board.rom.image.index? (address &&& 0x01FFFFFF).toNat)
  | _ => some none

variable [Peripherals P]

/-- Read at an address, unless that leaves an array. Registers, video memory and the open bus have
none on the board. -/
def readAt? (board : Board P) (opcode : Bool) (address : Word) (width : Width) :
    Option (Read × Board P) :=
  let base := width.align address
  match board.control.place base with
  | .bios offset => do return (Read.single (← board.bios.load? offset width), board)
  | .large offset => do
    return (⟨← board.large.load? offset width, board.control.largeRamWait width⟩, board)
  | .small offset => do return (Read.single (← board.small.load? offset width), board)
  | .cartridge offset => do
    let data ← board.rom.load? offset width
    let timing ← cartridgeReadWait? board.control opcode base width
    return (⟨data, timing⟩, board)
  | .backup => do
    let timing ← board.control.backupWait?
    match board.readAt opcode address width with
    | (read, board) => return (⟨read.data, timing⟩, board)
  | .registers | .video | .nothing => some (board.readAt opcode address width)

/-- Write the low bytes of a value at an address, unless that leaves an array. -/
def writeAt? (board : Board P) (address value : Word) (width : Width) :
    Option (Timing × Board P) :=
  let base := width.align address
  match board.control.place base with
  | .large offset => do
    let large ← board.large.store? offset value width
    return (board.control.largeRamWait width, { board with large })
  | .small offset => do
    let small ← board.small.store? offset value width
    return (Timing.single, { board with small })
  | .cartridge _ => do return (← board.control.romWait? base width, board)
  | .backup => do
    return (← board.control.backupWait?, (board.writeAt address value width).2)
  | .bios _ | .registers | .video | .nothing => some (board.writeAt address value width)

omit [Peripherals P] in
theorem cartridgeReadWait?_eq (control : Control) (opcode : Bool) (address : Word) (width : Width) :
    cartridgeReadWait? control opcode address width =
      some (cartridgeReadWait control opcode address width) := by
  unfold cartridgeReadWait? cartridgeReadWait
  split_ifs
  · rfl
  · exact control.romWait?_eq address width

omit [Peripherals P] in
theorem peek?_eq (board : Board P) (address : Word) :
    board.peek? address = some (board.peek address) := by
  have hlarge : (address &&& 0x3FFFF).toNat < largeSize := mirror_lt (i := 18) rfl
  have hsmall : (address &&& 0x7FFF).toNat < smallSize := mirror_lt (i := 15) rfl
  unfold peek? peek
  simp only [board.bios.index?_eq_ite, board.rom.image.index?_eq_ite,
    board.large.index?_eq hlarge, board.small.index?_eq hsmall, Option.map_some]
  generalize (address >>> 24).toNat = region
  split <;> simp_all

theorem readAt?_eq (board : Board P) (opcode : Bool) (address : Word) (width : Width) :
    board.readAt? opcode address width = some (board.readAt opcode address width) := by
  have hroom := board.control.place_hasRoom width address
  unfold readAt? readAt
  simp only
  cases hplace : board.control.place (width.align address) with
  | bios offset =>
    rw [hplace] at hroom
    simp only [board.bios.load?_eq hroom]
    rfl
  | large offset =>
    rw [hplace] at hroom
    simp only [board.large.load?_eq hroom]
    rfl
  | small offset =>
    rw [hplace] at hroom
    simp only [board.small.load?_eq hroom]
    rfl
  | cartridge offset =>
    rw [hplace] at hroom
    simp only [board.rom.load?_eq hroom, cartridgeReadWait?_eq]
    rfl
  | backup =>
    simp only [Control.backupWait?_eq]
    rfl
  | _ => rfl

theorem writeAt?_eq (board : Board P) (address value : Word) (width : Width) :
    board.writeAt? address value width = some (board.writeAt address value width) := by
  have hroom := board.control.place_hasRoom width address
  unfold writeAt? writeAt
  simp only
  cases hplace : board.control.place (width.align address) with
  | large offset =>
    rw [hplace] at hroom
    simp only [board.large.store?_eq hroom]
    rfl
  | small offset =>
    rw [hplace] at hroom
    simp only [board.small.store?_eq hroom]
    rfl
  | cartridge offset =>
    simp only [Control.romWait?_eq]
    rfl
  | backup =>
    simp only [Control.backupWait?_eq]
    rfl
  | _ => rfl

/-! ## Sequences -/

/-- An access to a board over its bus, or a look at its memory. -/
inductive Access
  | read (address : Word) (width : Width)
  | fetch (address : Word) (width : Width)
  | write (address value : Word) (width : Width)
  | latch (word : Word)
  | peek (address : Word)
  deriving DecidableEq

/-- What an access comes to. -/
inductive Answer
  | read (read : Read)
  | written (timing : Timing)
  | latched
  | peeked (byte : Option UInt8)
  deriving DecidableEq

/-- Make an access. -/
def make (board : Board P) : Access → Answer × Board P
  | .read address width => (Bus.read board address width).map .read id
  | .fetch address width => (Bus.fetch board address width).map .read id
  | .write address value width => (Bus.write board address value width).map .written id
  | .latch word => (.latched, Bus.latch board word)
  | .peek address => (.peeked (board.peek address), board)

/-- Make an access, unless that leaves an array. -/
def attempt (board : Board P) : Access → Option (Answer × Board P)
  | .read address width => (board.readAt? false address width).map (Prod.map .read id)
  | .fetch address width => (board.readAt? true address width).map (Prod.map .read id)
  | .write address value width => (board.writeAt? address value width).map (Prod.map .written id)
  | .latch word => some (.latched, Bus.latch board word)
  | .peek address => (board.peek? address).map fun byte => (.peeked byte, board)

/-- Make some accesses, one after the other. -/
def makeAll : List Access → Board P → List Answer × Board P
  | [], board => ([], board)
  | access :: rest, board =>
    match board.make access with
    | (answer, board) =>
      match makeAll rest board with
      | (answers, board) => (answer :: answers, board)

/-- Make some accesses, up to the first that leaves an array. -/
def attemptAll : List Access → Board P → Option (List Answer × Board P)
  | [], board => some ([], board)
  | access :: rest, board => do
    let (answer, board) ← board.attempt access
    let (answers, board) ← attemptAll rest board
    return (answer :: answers, board)

/-- No access leaves an array. -/
theorem attempt_eq (board : Board P) (access : Access) :
    board.attempt access = some (board.make access) := by
  cases access with
  | read address width =>
    rw [attempt, readAt?_eq]
    rfl
  | fetch address width =>
    rw [attempt, readAt?_eq]
    rfl
  | write address value width =>
    rw [attempt, writeAt?_eq]
    rfl
  | latch word => rfl
  | peek address =>
    rw [attempt, peek?_eq]
    rfl

theorem attemptAll_eq (accesses : List Access) :
    ∀ board : Board P, attemptAll accesses board = some (makeAll accesses board) := by
  induction accesses with
  | nil => exact fun _ => rfl
  | cons access rest ih =>
    intro board
    rw [attemptAll, attempt_eq]
    show (attemptAll rest (board.make access).2).bind _ = _
    rw [ih]
    rfl

end Board

/-! ## Construction -/

/-- A boot image that is long enough, or none where none is needed. -/
def BootFits (config : Config) : Prop :=
  16384 ≤ config.bios.size ∨ (config.bios.size = 0 ∧ config.boot = .direct)

instance : DecidablePred BootFits := fun _ => inferInstanceAs (Decidable (_ ∨ _))

/-- A configuration that a board can be built from. -/
structure Accepts (config : Config) : Prop where
  boot : BootFits config
  nonempty : 1 ≤ config.rom.size
  addressable : config.rom.size ≤ 33554432

/-- The first thing that is wrong with a configuration is reported. -/
structure Reports {α : Type} (config : Config) (result : Except BuildError α) : Prop where
  boot : ¬ BootFits config → result = .error (.biosSize config.bios.size)
  empty : BootFits config → config.rom.size = 0 → result = .error .emptyRom
  large : BootFits config → 33554432 < config.rom.size →
    result = .error (.romTooLarge config.rom.size)

/-- The images of a configuration, as they are stored on its board. -/
structure Mapped {P : Type} (config : Config) (board : Board P) : Prop where
  /-- The boot memory holds the first bytes of its image, or zeros. -/
  bios : board.bios.bytes.size = 16384 ∧ ∀ index < 16384,
    board.bios.byteAt index = if h : index < config.bios.size then config.bios[index] else 0
  /-- The cartridge is as short as it can be. -/
  size : IsLeast {size | config.rom.size ≤ size ∧ 256 ≤ size ∧ 4 ∣ size} board.rom.image.bytes.size
  addressable : board.rom.image.bytes.size ≤ 33554432
  rom : ∀ index < board.rom.image.bytes.size,
    board.rom.image.byteAt index = if h : index < config.rom.size then config.rom[index] else 0xFF

theorem bootMemory_error {config : Config} (h : ¬ BootFits config) :
    bootMemory config.bios config.boot = .error (.biosSize config.bios.size) := by
  obtain ⟨hsize, hempty⟩ := not_or.mp h
  have hshort : ¬ biosSize ≤ config.bios.size := hsize
  rw [bootMemory, if_neg hempty, dif_neg hshort]

theorem bootMemory_ok {config : Config} (h : BootFits config) :
    ∃ bios, bootMemory config.bios config.boot = .ok bios ∧ ∀ index < biosSize,
      bios.byteAt index = if h : index < config.bios.size then config.bios[index] else 0 := by
  unfold bootMemory
  split_ifs with hempty hsize
  · refine ⟨_, rfl, fun index hindex => ?_⟩
    rw [Memory.byteAt_filled hindex, dif_neg (by omega)]
  · refine ⟨_, rfl, fun index hindex => ?_⟩
    have hextract : index < (config.bios.extract 0 biosSize).size := by
      rw [ByteArray.size_extract]
      omega
    rw [Memory.byteAt, dif_pos hextract, dif_pos (by omega), ByteArray.getElem_extract]
    simp only [Nat.zero_add]
  · exact absurd h (not_or.mpr ⟨hsize, hempty⟩)

namespace Rom

theorem isLeast_mappedSize (dump : Nat) :
    IsLeast {size | dump ≤ size ∧ 256 ≤ size ∧ 4 ∣ size} (mappedSize dump) := by
  refine ⟨⟨le_mappedSize dump, Nat.le_max_right .., Nat.dvd_of_mod_eq_zero (mappedSize_mod dump)⟩,
    ?_⟩
  rintro size ⟨hdump, hmin, hmod⟩
  refine Nat.max_le.mpr ⟨?_, hmin⟩
  omega

theorem byteAt_padded {dump : ByteArray} {size index : Nat} (h : dump.size ≤ size)
    (hindex : index < size) :
    (⟨padded dump size, size_padded h⟩ : Memory size).byteAt index =
      if h : index < dump.size then dump[index] else 0xFF := by
  have hinside : index < (padded dump size).size := by
    rw [size_padded h]
    exact hindex
  rw [Memory.byteAt, dif_pos hinside]
  split_ifs with hdump
  · exact ByteArray.getElem_append_left hdump
  · have hpadding : index - dump.size < (Memory.filled (size - dump.size) 0xFF).bytes.size := by
      rw [Memory.size_bytes]
      omega
    have hfilled : (Memory.filled (size - dump.size) 0xFF).byteAt (index - dump.size) = 0xFF :=
      Memory.byteAt_filled (by omega)
    rw [Memory.byteAt, dif_pos hpadding] at hfilled
    exact (ByteArray.getElem_append_right (Nat.le_of_not_lt hdump)).trans hfilled

theorem ofDump_ok {dump : ByteArray} (hpos : 1 ≤ dump.size) (hmax : dump.size ≤ romMaxSize) :
    ∃ rom, ofDump dump = .ok rom ∧ rom.size = mappedSize dump.size ∧ ∀ index < rom.size,
      rom.image.byteAt index = if h : index < dump.size then dump[index] else 0xFF := by
  unfold ofDump
  rw [if_neg (by omega), dif_pos hmax]
  exact ⟨_, rfl, rfl, fun index hindex => byteAt_padded (le_mappedSize _) hindex⟩

end Rom

theorem Board.build_reports {P : Type} (config : Config) (peripherals : P) :
    Reports config (Board.build config peripherals) where
  boot h := by
    unfold Board.build
    rw [bootMemory_error h]
    rfl
  empty h hrom := by
    obtain ⟨bios, hbios, -⟩ := bootMemory_ok h
    unfold Board.build
    rw [hbios, Rom.ofDump, if_pos hrom]
    rfl
  large h hrom := by
    obtain ⟨bios, hbios, -⟩ := bootMemory_ok h
    unfold Board.build
    rw [hbios, Rom.ofDump, if_neg (by omega), dif_neg (by unfold romMaxSize; omega)]
    rfl

theorem Board.build_ok {P : Type} {config : Config} (h : Accepts config) (peripherals : P) :
    ∃ board, Board.build config peripherals = .ok board ∧ Mapped config board := by
  obtain ⟨bios, hbios, hbytes⟩ := bootMemory_ok h.boot
  obtain ⟨rom, hrom, hsize, himage⟩ := Rom.ofDump_ok h.nonempty h.addressable
  unfold Board.build
  rw [hbios, hrom]
  refine ⟨_, rfl, ⟨bios.size_bytes, hbytes⟩, ?_, ?_, ?_⟩
  · show IsLeast _ rom.image.bytes.size
    rw [rom.image.size_bytes, hsize]
    exact Rom.isLeast_mappedSize _
  · show rom.image.bytes.size ≤ _
    rw [rom.image.size_bytes]
    exact rom.size_le
  · show ∀ index < rom.image.bytes.size, _
    rw [rom.image.size_bytes]
    exact himage

theorem Board.accepts_of_build {P : Type} {config : Config} {peripherals : P} {board : Board P}
    (h : Board.build config peripherals = .ok board) : Accepts config := by
  have hreports := Board.build_reports config peripherals
  rw [h] at hreports
  have hboot : BootFits config := by
    by_contra hboot
    exact nomatch hreports.boot hboot
  refine ⟨hboot, ?_, ?_⟩
  · by_contra hempty
    exact nomatch hreports.empty hboot (by omega)
  · by_contra hlarge
    exact nomatch hreports.large hboot (by omega)

/-- **Construction decides.** A board is built from a boot image of at least 16K, or none where the
machine starts on the cartridge, and a cartridge of at least one byte and at most 32M; of anything
else the first fault is reported. It stores the images padded, and no access of any width at any
address, nor a look at its memory or at the header, ever leaves an array. -/
theorem construction_bounds {P : Type} [Peripherals P] (config : Config) (peripherals : P) :
    ((∃ board, Board.build config peripherals = .ok board) ↔ Accepts config) ∧
      Reports config (Board.build config peripherals) ∧
      ∀ board, Board.build config peripherals = .ok board →
        Mapped config board ∧
          (∀ accesses, Board.attemptAll accesses board = some (Board.makeAll accesses board)) ∧
          Header.slices? board.rom.image = some (Header.ofMemory board.rom.image) := by
  refine ⟨⟨fun ⟨_, h⟩ => Board.accepts_of_build h, fun h => ?_⟩,
    Board.build_reports config peripherals,
    fun board h => ⟨?_, fun accesses => Board.attemptAll_eq accesses board, ?_⟩⟩
  · obtain ⟨board, hboard, -⟩ := Board.build_ok h peripherals
    exact ⟨board, hboard⟩
  · obtain ⟨built, hbuilt, hmapped⟩ := Board.build_ok (Board.accepts_of_build h) peripherals
    rw [h] at hbuilt
    cases hbuilt
    exact hmapped
  · exact Header.slices?_eq (Nat.le_trans (by decide) board.rom.size_ge)

/-- A cartridge of one byte fits without a boot image, but not where the machine starts on one. -/
theorem construction_bounds_blank :
    Board.build Board.blankConfig ⟨⟩ = .ok Board.blank ∧
      Mapped Board.blankConfig Board.blank ∧
      (Board.attemptAll [.read 0x0A0000FF .word, .peek 0x08000100] Board.blank).map Prod.fst =
        some [.read ⟨0xFFFFFFFF, ⟨10, 10⟩⟩, .peeked none] ∧
      Board.build { Board.blankConfig with boot := .bios } Detached.mk = .error (.biosSize 0) := by
  have hblank : Board.build Board.blankConfig ⟨⟩ = .ok Board.blank := rfl
  obtain ⟨-, -, hbuilt⟩ := construction_bounds Board.blankConfig Detached.mk
  obtain ⟨hmapped, haccesses, -⟩ := hbuilt Board.blank hblank
  obtain ⟨-, hreports, -⟩ :=
    construction_bounds { Board.blankConfig with boot := .bios } Detached.mk
  refine ⟨hblank, hmapped, ?_, hreports.boot (by decide)⟩
  rw [haccesses]
  decide +kernel

end Handheld
