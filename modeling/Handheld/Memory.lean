import Handheld.Access

/-!
# Byte memories

A memory is a fixed number of bytes, read and written little-endian.

1. `byteAt` is the view of a memory; `set` changes one byte of it (`byteAt_set_self`,
   `byteAt_set_of_ne`).
2. `load` and `store` move a value of any width at a byte offset, and `byteAt_store` is what a byte
   holds after a store.
-/

namespace Handheld

/-- A store of a fixed number of bytes. -/
structure Memory (size : Nat) where
  bytes : ByteArray
  size_bytes : bytes.size = size

namespace Memory

variable {size : Nat}

def filled (size : Nat) (value : UInt8) : Memory size :=
  ⟨⟨Array.replicate size value⟩, by simp [ByteArray.size]⟩

/-- The byte at an index; a memory reads as zero past its end. -/
def byteAt (memory : Memory size) (index : Nat) : UInt8 :=
  if h : index < memory.bytes.size then memory.bytes[index] else 0

/-- Changing a byte keeps the number of bytes. -/
theorem size_set (bytes : ByteArray) (index : Nat) (value : UInt8) (h : index < bytes.size) :
    (bytes.set index value h).size = bytes.size := by
  cases bytes
  exact Array.size_set ..

/-- Change the byte at an index; a memory ignores what lies past its end. -/
def set (memory : Memory size) (index : Nat) (value : UInt8) : Memory size :=
  if h : index < memory.bytes.size then
    ⟨memory.bytes.set index value h, (size_set memory.bytes index value h).trans
      memory.size_bytes⟩
  else memory

/-! ## The view -/

theorem byteAt_of_le {memory : Memory size} {index : Nat} (h : size ≤ index) :
    memory.byteAt index = 0 := by
  have := memory.size_bytes
  exact dif_neg (by omega)

theorem byteAt_filled {value : UInt8} {index : Nat} (h : index < size) :
    (filled size value).byteAt index = value := by
  have hs : index < (filled size value).bytes.size := by rw [(filled size value).size_bytes]; exact h
  rw [byteAt, dif_pos hs]
  exact Array.getElem_replicate ..

/-- A byte that was set reads back. -/
theorem byteAt_set_self {memory : Memory size} {index : Nat} {value : UInt8} (h : index < size) :
    (memory.set index value).byteAt index = value := by
  have hb : index < memory.bytes.size := by rw [memory.size_bytes]; exact h
  have hs : index < (memory.bytes.set index value hb).size := by rw [size_set]; exact hb
  rw [set, dif_pos hb, byteAt, dif_pos hs]
  exact Array.getElem_set_self ..

/-- Setting a byte leaves the others. -/
theorem byteAt_set_of_ne {memory : Memory size} {index other : Nat} {value : UInt8}
    (h : index ≠ other) : (memory.set index value).byteAt other = memory.byteAt other := by
  by_cases hb : index < memory.bytes.size
  · by_cases ho : other < memory.bytes.size
    · have hs : other < (memory.bytes.set index value hb).size := by rw [size_set]; exact ho
      rw [set, dif_pos hb, byteAt, dif_pos hs, byteAt, dif_pos ho]
      exact Array.getElem_set_ne _ _ h
    · rw [byteAt_of_le, byteAt_of_le] <;> rw [← memory.size_bytes] <;> omega
  · rw [set, dif_neg hb]

/-! ## Values -/

/-- The value of a width at an offset. -/
def load (memory : Memory size) (offset : Nat) (width : Width) : Word :=
  width.assemble fun index => memory.byteAt (offset + index)

/-- Write the low bytes of a value at an offset. -/
def store (memory : Memory size) (offset : Nat) (value : Word) (width : Width) : Memory size :=
  (List.range width.lanes).foldl
    (fun memory index => memory.set (offset + index) (lane value index)) memory

/-- A byte holds the lane that was put there, if one was. -/
theorem byteAt_setLanes {offset index : Nat} {value : Word} (h : index < size)
    (lanes : List Nat) : ∀ memory : Memory size,
      (lanes.foldl (fun memory place => memory.set (offset + place) (lane value place))
          memory).byteAt index =
        ((lanes.find? fun place => offset + place == index).map (lane value)).getD
          (memory.byteAt index) := by
  induction lanes with
  | nil => exact fun _ => rfl
  | cons first rest ih =>
    intro memory
    rw [List.foldl_cons, ih, List.find?_cons]
    by_cases hfirst : offset + first = index
    · -- A later lane of the same place is the same lane.
      have hrest : ∀ other, rest.find? (fun place => offset + place == index) = some other →
          other = first := by
        intro other hfound
        have hother := List.find?_some (p := fun place => offset + place == index) hfound
        have := beq_iff_eq.mp hother
        omega
      rw [beq_iff_eq.mpr hfirst, ← hfirst, byteAt_set_self (by omega), hfirst]
      cases hfound : rest.find? fun place => offset + place == index with
      | none => rfl
      | some other =>
        rw [hrest other hfound]
        rfl
    · rw [beq_eq_false_iff_ne.mpr hfirst, byteAt_set_of_ne hfirst]

/-- A stored value is found in its lanes, and the other bytes stay. -/
theorem byteAt_store {memory : Memory size} {offset index : Nat} {value : Word} {width : Width}
    (h : index < size) :
    (memory.store offset value width).byteAt index =
      (((List.range width.lanes).find? fun place => offset + place == index).map
        (lane value)).getD (memory.byteAt index) :=
  byteAt_setLanes h _ memory

end Memory

end Handheld
