import Handheld.Proofs.FlatMemory
import Handheld.Proofs.History

/-!
# A flat memory as a circle of bytes

Whatever is copied or written into a flat memory, and wherever it wraps around, comes down to single
bytes stored one after the other, and a byte holds what was last stored to an address that falls on
it.

1. `placed` puts bytes at successive addresses; a copy of bytes, words or halfwords stores the bytes
   of its whole list so (`load_eq`, `loadWords_eq`, `loadHalfwords_eq`), and a write those of its
   value (`poke_eq_placed`).
2. `Operation` is what is done to a memory, and `Operation.stores` are the bytes that it stores.
3. `lastOf` is the byte that some stores last put at an address, whichever way they wrapped around,
   and `byteAt_setBytes` finds it there.
4. `circular_memory` puts all together for values of any width.
-/

namespace Handheld

/-! ## The bytes of a value -/

namespace Width

/-- The bytes of a value, the lowest first. -/
def bytesOf (width : Width) (value : Word) : List UInt8 :=
  (List.range width.lanes).map (lane value)

theorem length_bytesOf (width : Width) (value : Word) :
    (width.bytesOf value).length = width.lanes := by
  simp [bytesOf]

end Width

namespace FlatMemory

variable {e size : Nat}

/-! ## Bytes at successive addresses -/

/-- Bytes with the addresses that they are put at, from one address on. -/
def placed (address : Word) (bytes : List UInt8) : List (Word × UInt8) :=
  bytes.mapIdx fun place byte => (address + UInt32.ofNat place, byte)

/-- A memory after some bytes are stored, in this order. -/
def setBytes (flat : FlatMemory) (stores : List (Word × UInt8)) : FlatMemory :=
  stores.foldl (fun flat store => flat.setByte store.1 store.2) flat

/-- What is one place further on is as far from the next address. -/
theorem next_place (address : Word) (place : Nat) :
    address + UInt32.ofNat (place + 1) = address + 1 + UInt32.ofNat place := by
  rw [Nat.add_comm, UInt32.ofNat_add, ← UInt32.add_assoc]
  rfl

theorem placed_cons (address : Word) (byte : UInt8) (rest : List UInt8) :
    placed address (byte :: rest) = (address, byte) :: placed (address + 1) rest := by
  simp only [placed, List.mapIdx_cons, next_place]
  rw [show UInt32.ofNat 0 = 0 from rfl, UInt32.add_zero]

theorem load_eq (bytes : List UInt8) : ∀ (flat : FlatMemory) (address : Word),
    flat.load address bytes = flat.setBytes (placed address bytes) := by
  induction bytes with
  | nil => exact fun _ _ => rfl
  | cons byte rest ih =>
    intro flat address
    rw [load, ih, placed_cons]
    rfl

/-- A copy in two parts. -/
theorem load_append (first second : List UInt8) : ∀ (flat : FlatMemory) (address : Word),
    flat.load address (first ++ second) =
      (flat.load address first).load (address + UInt32.ofNat first.length) second := by
  induction first with
  | nil =>
    intro flat address
    rw [List.length_nil, show UInt32.ofNat 0 = 0 from rfl, UInt32.add_zero]
    rfl
  | cons byte rest ih =>
    intro flat address
    rw [List.length_cons, next_place]
    exact ih _ _

/-- Words are copied as the bytes of them all. -/
theorem loadWords_eq (words : List Word) : ∀ (flat : FlatMemory) (address : Word),
    flat.loadWords address words = flat.load address (words.flatMap Width.word.bytesOf) := by
  induction words with
  | nil => exact fun _ _ => rfl
  | cons word rest ih =>
    intro flat address
    have hbytes : Width.word.bytesOf word = [lane word 0, lane word 1, lane word 2, lane word 3] :=
      rfl
    unfold loadWords
    rw [ih, List.flatMap_cons, load_append, Width.length_bytesOf, hbytes]
    rfl

theorem loadHalfwords_eq (halves : List UInt16) : ∀ (flat : FlatMemory) (address : Word),
    flat.loadHalfwords address halves =
      flat.load address (halves.flatMap fun half => Width.halfword.bytesOf half.toUInt32) := by
  induction halves with
  | nil => exact fun _ _ => rfl
  | cons half rest ih =>
    intro flat address
    have hbytes : Width.halfword.bytesOf half.toUInt32 =
        [lane half.toUInt32 0, lane half.toUInt32 1] := rfl
    unfold loadHalfwords
    rw [ih, List.flatMap_cons, load_append, Width.length_bytesOf, hbytes]
    rfl

/-- A write stores the bytes of its value. -/
theorem poke_eq_placed (flat : FlatMemory) (address value : Word) (width : Width) :
    flat.poke address value width =
      flat.setBytes (placed (width.align address) (width.bytesOf value)) := by
  have hplaced : placed (width.align address) (width.bytesOf value) =
      (List.range width.lanes).map fun place =>
        (width.align address + UInt32.ofNat place, lane value place) := by
    refine List.ext_getElem (by simp [placed, Width.bytesOf]) fun place _ _ => ?_
    simp [placed, Width.bytesOf]
  rw [hplaced, setBytes, List.foldl_map]
  rfl

/-! ## Operations -/

/-- What is done to a memory. -/
inductive Operation
  | load (address : Word) (bytes : List UInt8)
  | loadWords (address : Word) (words : List Word)
  | loadHalfwords (address : Word) (halves : List UInt16)
  | write (address value : Word) (width : Width)
  deriving DecidableEq

/-- The memory after an operation. -/
def perform (flat : FlatMemory) : Operation → FlatMemory
  | .load address bytes => flat.load address bytes
  | .loadWords address words => flat.loadWords address words
  | .loadHalfwords address halves => flat.loadHalfwords address halves
  | .write address value width => (Bus.write flat address value width).2

/-- A zeroed memory after some operations. -/
def afterAll (size : Nat) (ops : List Operation) : FlatMemory :=
  ops.foldl perform (ofSize size)

/-- The bytes that an operation stores, each with its address. -/
def Operation.stores : Operation → List (Word × UInt8)
  | .load address bytes => placed address bytes
  | .loadWords address words => placed address (words.flatMap Width.word.bytesOf)
  | .loadHalfwords address halves =>
    placed address (halves.flatMap fun half => Width.halfword.bytesOf half.toUInt32)
  | .write address value width => placed (width.align address) (width.bytesOf value)

/-- The byte that some stores last put at an address, or at one that is a multiple of the size away
from it. -/
def lastOf (size : Nat) (stores : List (Word × UInt8)) (address : Word) : Option UInt8 :=
  (stores.filterMap fun store =>
    if store.1.toNat ≡ address.toNat [MOD size] then some store.2 else none).getLast?

/-- The byte that some operations on a zeroed memory last stored to an address. -/
def lastStored (size : Nat) (ops : List Operation) (address : Word) : UInt8 :=
  (lastOf size (ops.flatMap Operation.stores) address).getD 0

theorem perform_eq (flat : FlatMemory) (op : Operation) :
    flat.perform op = flat.setBytes op.stores := by
  cases op with
  | load address bytes => exact load_eq ..
  | loadWords address words => exact (loadWords_eq ..).trans (load_eq ..)
  | loadHalfwords address halves => exact (loadHalfwords_eq ..).trans (load_eq ..)
  | write address value width => exact poke_eq_placed ..

theorem afterAll_eq (ops : List Operation) :
    afterAll size ops = (ofSize size).setBytes (ops.flatMap Operation.stores) := by
  unfold afterAll setBytes
  rw [List.foldl_flatMap]
  congr 1
  ext flat op : 2
  exact perform_eq flat op

/-! ## One byte -/

theorem size_setBytes (flat : FlatMemory) (stores : List (Word × UInt8)) :
    (flat.setBytes stores).size = flat.size := by
  unfold setBytes
  exact List.foldlRecOn (motive := fun after : FlatMemory => after.size = flat.size) stores _ rfl
    fun _ h _ _ => h

/-- A store changes the byte at the addresses congruent to its own, and at no others. -/
theorem byteAt_setByte (flat : FlatMemory) (hs : flat.size = 2 ^ e) (address other : Word)
    (value : UInt8) :
    (flat.setByte address value).byteAt other =
      if address.toNat ≡ other.toNat [MOD flat.size] then value else flat.byteAt other := by
  show (flat.memory.set (index flat.size address) value).byteAt (index flat.size other) = _
  have hindex : index flat.size address = index flat.size other ↔
      address.toNat ≡ other.toNat [MOD flat.size] := by
    rw [index_eq hs, index_eq hs]
    rfl
  by_cases h : address.toNat ≡ other.toNat [MOD flat.size]
  · rw [if_pos h, hindex.mpr h]
    exact Memory.byteAt_set_self (index_lt hs _)
  · rw [if_neg h]
    exact Memory.byteAt_set_of_ne (hindex.not.mpr h)

/-- A byte holds what was last stored to it, or what it held before the stores. -/
theorem byteAt_setBytes (flat : FlatMemory) (hs : flat.size = 2 ^ e)
    (stores : List (Word × UInt8)) (address : Word) :
    (flat.setBytes stores).byteAt address =
      (lastOf flat.size stores address).getD (flat.byteAt address) := by
  obtain ⟨size, memory, timing⟩ := flat
  have hrun : setBytes ⟨size, memory, timing⟩ stores =
      ⟨size, stores.foldl (fun memory store => memory.set (index size store.1) store.2) memory,
        timing⟩ :=
    List.foldl_hom (fun memory : Memory size => FlatMemory.mk size memory timing) fun _ _ => rfl
  rw [hrun]
  refine History.view_foldl_const (fun memory : Memory size => memory.byteAt (index size address))
    _ (fun memory store => ?_) stores memory
  rw [History.getD_ite]
  exact byteAt_setByte ⟨size, memory, timing⟩ hs store.1 address store.2

/-- Where nothing is stored to an address, its byte stays. -/
theorem lastOf_eq_none {stores : List (Word × UInt8)} {address : Word}
    (h : ∀ store ∈ stores, ¬ store.1.toNat ≡ address.toNat [MOD size]) :
    lastOf size stores address = none := by
  have hnone : (stores.filterMap fun store =>
      if store.1.toNat ≡ address.toNat [MOD size] then some store.2 else none) = [] :=
    List.filterMap_eq_nil_iff.mpr fun store hm => if_neg (h store hm)
  rw [lastOf, hnone, List.getLast?_nil]

theorem byteAt_ofSize (hs : size = 2 ^ e) (address : Word) : (ofSize size).byteAt address = 0 :=
  Memory.byteAt_filled (index_lt hs address)

theorem byteAt_afterAll (hs : size = 2 ^ e) (ops : List Operation) (address : Word) :
    (afterAll size ops).byteAt address = lastStored size ops address := by
  rw [afterAll_eq, byteAt_setBytes _ hs, byteAt_ofSize hs]
  rfl

theorem size_afterAll (ops : List Operation) : (afterAll size ops).size = size := by
  rw [afterAll_eq, size_setBytes]
  rfl

/-! ## Values -/

theorem peek_byte (flat : FlatMemory) (address : Word) :
    flat.peek address .byte = (flat.byteAt address).toUInt32 := by
  show (flat.byteAt (Width.byte.align address + 0)).toUInt32 = _
  rw [Width.align_byte, UInt32.add_zero]

theorem byteAt_perform_of_not_stored {flat : FlatMemory} (hs : flat.size = 2 ^ e) {op : Operation}
    {address : Word} (h : ∀ store ∈ op.stores, ¬ store.1.toNat ≡ address.toNat [MOD flat.size]) :
    (flat.perform op).byteAt address = flat.byteAt address := by
  rw [perform_eq, byteAt_setBytes _ hs, lastOf_eq_none h, Option.getD_none]

/-- **A flat memory is a circle of bytes.** After any operations on a zeroed memory, a value is the
number spelt by the bytes at its aligned address, the lowest first, and each of them is the last one
stored to an address congruent to its own modulo the size, or zero. A write reads back at its
address and width as far as the width carries it, and an operation leaves the bytes at the addresses
that are congruent to none that it stores to. -/
theorem circular_memory (hs : size = 2 ^ e) (h4 : 4 ≤ size) (ops : List Operation)
    (address : Word) (width : Width) :
    ((afterAll size ops).peek address width).toNat =
      Nat.ofDigits 256 ((List.range width.lanes).map fun place =>
        (lastStored size ops (width.align address + UInt32.ofNat place)).toNat) ∧
    Bus.read (afterAll size ops) address width =
      (⟨(afterAll size ops).peek address width, (afterAll size ops).timing⟩, afterAll size ops) ∧
    (∀ value, (Bus.read (Bus.write (afterAll size ops) address value width).2 address
      width).1.data = value &&& width.mask) ∧
    ∀ op : Operation,
      (∀ store ∈ op.stores, ¬ store.1.toNat ≡ address.toNat [MOD size]) →
        ((afterAll size ops).perform op).peek address .byte =
          (afterAll size ops).peek address .byte := by
  have hsize := @size_afterAll size ops
  have hpow := hsize.trans hs
  refine ⟨?_, read_eq .., fun value => ?_, fun op hop => ?_⟩
  · rw [peek, Width.toNat_assemble]
    simp only [byteAt_afterAll hs]
  · have hlanes : width.lanes ≤ (afterAll size ops).size :=
      width.lanes_le.trans (h4.trans_eq hsize.symm)
    rw [write_eq, read_eq]
    exact peek_poke_mask hpow hlanes address value
  · rw [peek_byte, peek_byte, byteAt_perform_of_not_stored hpow (hsize.symm ▸ hop)]

/-- A copy that runs over the end of the addresses and of the memory, and over its own first byte,
and a write to the byte after it. -/
theorem circular_memory_four :
    let ops : List Operation := [.load 0xFFFFFFFE [1, 2, 3, 4, 5], .write 7 0xAB09 .byte]
    ((afterAll 4 ops).peek 0x11 .word).toNat = 0x09050403 ∧
      (Bus.read (Bus.write (afterAll 4 ops) 0x13 0x1234ABCD .halfword).2 0x13
        .halfword).1.data = 0xABCD ∧
      ((afterAll 4 ops).perform (.load 0x20 [6, 7, 8])).peek 0x13 .byte =
        (afterAll 4 ops).peek 0x13 .byte := by
  intro ops
  have hpow : 4 = 2 ^ 2 := rfl
  obtain ⟨hvalue, -, -, -⟩ := circular_memory hpow (by decide) ops 0x11 .word
  obtain ⟨-, -, hwrite, hframe⟩ := circular_memory hpow (by decide) ops 0x13 .halfword
  refine ⟨hvalue.trans (by decide +kernel), (hwrite 0x1234ABCD).trans (by decide), ?_⟩
  refine hframe (.load 0x20 [6, 7, 8]) fun store hstore => ?_
  -- Deciding this at once would look through all pairs of an address and a byte.
  simp only [Operation.stores, placed_cons, List.mem_cons] at hstore
  rcases hstore with rfl | rfl | rfl | h
  · decide
  · decide
  · decide
  · cases h

end FlatMemory

end Handheld
