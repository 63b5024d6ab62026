import Handheld.Proofs.Processor.Retiming
import Handheld.Proofs.Processor.WordLists

/-!
# Bytes of a flat memory

A flat memory whose size is a power of two repeats throughout the address space, so an access moves
bytes that lie one after the other, and addresses that are not too far apart fall on different
bytes.

1. `index_add_inj` says how far addresses may be apart.
2. `poke_eq` is a write as one store of bytes. `byteAt_poke` finds the bytes stored, and
   `memory_poke_of_ne` the others.
3. `data_writeWords` reads a list of words back that was written, and `memory_writeWords_of_ne` is
   its frame.
-/

namespace Handheld.FlatMemory

variable {e : Nat}

/-! ## Addresses -/

theorem index_eq {size : Nat} (hs : size = 2 ^ e) (address : Word) :
    index size address = address.toNat % size := by
  subst hs
  exact Nat.and_two_pow_sub_one_eq_mod ..

theorem index_lt {size : Nat} (hs : size = 2 ^ e) (address : Word) : index size address < size := by
  rw [index_eq hs]
  exact Nat.mod_lt _ (hs ▸ Nat.two_pow_pos e)

/-- Addresses apart by less than the memory and the address space fall on different bytes. -/
theorem index_add_inj {size : Nat} (hs : size = 2 ^ e) (address : Word) {i j : Nat}
    (hi : i < size) (hj : j < size) (hi' : i < 2 ^ 32) (hj' : j < 2 ^ 32)
    (h : index size (address + UInt32.ofNat i) = index size (address + UInt32.ofNat j)) :
    i = j := by
  rw [index_eq hs, index_eq hs, UInt32.toNat_add, UInt32.toNat_add,
    UInt32.toNat_ofNat_of_lt' hi', UInt32.toNat_ofNat_of_lt' hj'] at h
  have hcancel {m : Nat} (hm : i < m) (hm' : j < m)
      (h : (address.toNat + i) % m = (address.toNat + j) % m) : i = j := by
    have hmod : i % m = j % m := Nat.ModEq.add_left_cancel' _ h
    rwa [Nat.mod_eq_of_lt hm, Nat.mod_eq_of_lt hm'] at hmod
  rcases Nat.le_total e 32 with he | he
  · have hdvd : size ∣ 2 ^ 32 := hs ▸ Nat.pow_dvd_pow 2 he
    rw [Nat.mod_mod_of_dvd _ hdvd, Nat.mod_mod_of_dvd _ hdvd] at h
    exact hcancel hi hj h
  · have hle : 2 ^ 32 ≤ size := hs ▸ Nat.pow_le_pow_right (by decide) he
    have hlt (n : Nat) : n % 2 ^ 32 < size := (Nat.mod_lt n (by decide)).trans_le hle
    rw [Nat.mod_eq_of_lt (hlt _), Nat.mod_eq_of_lt (hlt _)] at h
    exact hcancel hi' hj' h

theorem lanes_dvd {size : Nat} (hs : size = 2 ^ e) {width : Width} (hw : width.lanes ≤ size) :
    width.lanes ∣ size := by
  obtain ⟨k, hk⟩ : ∃ k, width.lanes = 2 ^ k := by
    cases width
    · exact ⟨0, rfl⟩
    · exact ⟨1, rfl⟩
    · exact ⟨2, rfl⟩
  rw [hk, hs] at hw ⊢
  exact Nat.pow_dvd_pow 2 ((Nat.pow_le_pow_iff_right (by decide)).mp hw)

/-- The lanes of an access fall on bytes that lie one after the other. -/
theorem index_lane {size : Nat} (hs : size = 2 ^ e) {width : Width} (hw : width.lanes ≤ size)
    (address : Word) {place : Nat} (h : place < width.lanes) :
    index size (width.align address + UInt32.ofNat place) =
      index size (width.align address) + place := by
  rw [index_eq hs, index_eq hs, Width.toNat_align_add h]
  exact Width.add_lane_mod (width.lanes_dvd_align address) (lanes_dvd hs hw)
    (hs ▸ Nat.two_pow_pos e) h

/-! ## Single accesses -/

variable {flat other : FlatMemory} {width : Width}

theorem read_eq (flat : FlatMemory) (address : Word) (width : Width) :
    Bus.read flat address width = (⟨flat.peek address width, flat.timing⟩, flat) := rfl

theorem write_eq (flat : FlatMemory) (address value : Word) (width : Width) :
    Bus.write flat address value width = (flat.timing, flat.poke address value width) := rfl

/-- A write stores its bytes one after the other. -/
theorem poke_eq (hs : flat.size = 2 ^ e) (hw : width.lanes ≤ flat.size) (address value : Word) :
    flat.poke address value width =
      { flat with
        memory := flat.memory.store (index flat.size (width.align address)) value width } := by
  have hlanes : ∀ (lanes : List Nat) (memory : Memory flat.size),
      (∀ place ∈ lanes, place < width.lanes) →
      lanes.foldl (fun (flat : FlatMemory) place =>
          flat.setByte (width.align address + UInt32.ofNat place) (lane value place))
          ⟨flat.size, memory, flat.timing⟩ =
        ⟨flat.size, lanes.foldl (fun memory place =>
          memory.set (index flat.size (width.align address) + place) (lane value place)) memory,
          flat.timing⟩ := by
    intro lanes
    induction lanes with
    | nil => exact fun _ _ => rfl
    | cons place rest ih =>
      intro memory h
      rw [List.foldl_cons, List.foldl_cons,
        ← index_lane hs hw address (h place List.mem_cons_self)]
      exact ih _ fun other hm => h other (List.mem_cons_of_mem _ hm)
  exact hlanes _ flat.memory fun place hm => List.mem_range.mp hm

theorem size_poke (address value : Word) : (flat.poke address value width).size = flat.size := by
  unfold poke
  generalize List.range width.lanes = lanes
  induction lanes generalizing flat with
  | nil => rfl
  | cons place rest ih => exact ih

/-- A written byte reads back. -/
theorem byteAt_poke (hs : flat.size = 2 ^ e) (hw : width.lanes ≤ flat.size) (address value : Word)
    {place : Nat} (h : place < width.lanes) :
    (flat.poke address value width).byteAt (width.align address + UInt32.ofNat place) =
      lane value place := by
  have hplace := index_lane hs hw address h
  rw [poke_eq hs hw]
  refine (Memory.byteAt_store (index_lt hs _)).trans ?_
  have hfound : (List.range width.lanes).find? (fun lane =>
      index flat.size (width.align address) + lane ==
        index flat.size (width.align address + UInt32.ofNat place)) = some place := by
    simp [List.find?_range_eq_some, hplace, h]
    omega
  rw [hfound]
  rfl

/-- A write leaves the bytes that none of its lanes falls on. -/
theorem memory_poke_of_ne (hs : flat.size = 2 ^ e) (hw : width.lanes ≤ flat.size)
    (address value : Word) {place : Nat}
    (h : ∀ i < width.lanes, place ≠ index flat.size (width.align address + UInt32.ofNat i)) :
    (flat.poke address value width).memory.byteAt place = flat.memory.byteAt place := by
  rw [poke_eq hs hw]
  by_cases hp : place < flat.size
  · refine (Memory.byteAt_store hp).trans ?_
    have hnone : (List.range width.lanes).find? (fun lane =>
        index flat.size (width.align address) + lane == place) = none := by
      refine List.find?_eq_none.mpr fun lane hlane he => ?_
      have hlt := List.mem_range.mp hlane
      exact h lane hlt ((beq_iff_eq.mp he).symm.trans (index_lane hs hw address hlt).symm)
    rw [hnone]
    rfl
  · rw [Memory.byteAt_of_le (by simpa using hp), Memory.byteAt_of_le (by simpa using hp)]

theorem byteAt_congr (hs : other.size = flat.size) {address : Word}
    (h : other.memory.byteAt (index flat.size address) =
      flat.memory.byteAt (index flat.size address)) :
    other.byteAt address = flat.byteAt address := by
  have hindex : index other.size address = index flat.size address := by rw [hs]
  unfold byteAt
  rw [hindex, h]

/-- A value is made of the bytes at its address. -/
theorem peek_congr {address : Word}
    (h : ∀ i < width.lanes, other.byteAt (width.align address + UInt32.ofNat i) =
      flat.byteAt (width.align address + UInt32.ofNat i)) :
    other.peek address width = flat.peek address width :=
  Width.assemble_congr h

/-- A written value reads back, as far as the width carries it. -/
theorem peek_poke_mask (hs : flat.size = 2 ^ e) (hw : width.lanes ≤ flat.size)
    (address value : Word) :
    (flat.poke address value width).peek address width = value &&& width.mask := by
  rw [← width.assemble_lanes]
  exact Width.assemble_congr fun _ hi => byteAt_poke hs hw address value hi

theorem peek_poke (hs : flat.size = 2 ^ e) (hw : Width.word.lanes ≤ flat.size)
    (address value : Word) : (flat.poke address value .word).peek address .word = value := by
  rw [peek_poke_mask hs hw]
  exact UInt32.and_neg_one

/-! ## Lists of words -/

theorem readWords_bus (flat : FlatMemory) (count : Nat) :
    ∀ address, (readWords flat address count).2 = flat := by
  induction count with
  | zero => exact fun _ => rfl
  | succ count ih => exact fun address => ih (address + 4)

theorem data_readWords_succ (flat : FlatMemory) (address : Word) (count : Nat) :
    (readWords flat address (count + 1)).1.map Read.data =
      flat.peek (Width.word.align address) .word ::
        (readWords flat (address + 4) count).1.map Read.data := by
  rw [readWords, read_eq]
  rfl

theorem writeWords_cons (flat : FlatMemory) (address value : Word) (values : List Word) :
    (writeWords flat address (value :: values)).2 =
      (writeWords (flat.poke (Width.word.align address) value .word) (address + 4) values).2 := by
  rw [writeWords, write_eq]

theorem size_writeWords (values : List Word) :
    ∀ (flat : FlatMemory) (address : Word),
      (writeWords flat address values).2.size = flat.size := by
  induction values with
  | nil => exact fun _ _ => rfl
  | cons value values ih =>
    intro flat address
    rw [writeWords_cons, ih, size_poke]

/-- The bytes of the next word are four further on. -/
theorem next_byte (address : Word) (place : Nat) :
    Width.word.align (address + 4) + UInt32.ofNat place =
      Width.word.align address + UInt32.ofNat (4 + place) := by
  rw [Width.align_add (by decide), UInt32.ofNat_add, ← UInt32.add_assoc]
  rfl

/-- Words are made of the bytes at their addresses. -/
theorem data_readWords_congr (count : Nat) : ∀ address,
    (∀ place < 4 * count, other.byteAt (Width.word.align address + UInt32.ofNat place) =
      flat.byteAt (Width.word.align address + UInt32.ofNat place)) →
    (readWords other address count).1.map Read.data =
      (readWords flat address count).1.map Read.data := by
  induction count with
  | zero => exact fun _ _ => rfl
  | succ count ih =>
    intro address h
    have hfirst : other.peek (Width.word.align address) .word =
        flat.peek (Width.word.align address) .word := by
      refine peek_congr fun place hplace => ?_
      rw [Width.align_of_mod (Width.align_mod ..)]
      exact h place (lt_of_lt_of_le hplace (Nat.le_mul_of_pos_right 4 count.succ_pos))
    have hrest := ih (address + 4) fun place hplace => by
      rw [next_byte]
      exact h (4 + place) (by omega)
    rw [data_readWords_succ, data_readWords_succ, hfirst, hrest]

/-- Writing words leaves the bytes that they do not fall on. -/
theorem memory_writeWords_of_ne (values : List Word) {place : Nat} :
    ∀ flat : FlatMemory, flat.size = 2 ^ e → 4 ≤ flat.size → ∀ address,
      (∀ i < 4 * values.length,
        place ≠ index flat.size (Width.word.align address + UInt32.ofNat i)) →
      (writeWords flat address values).2.memory.byteAt place = flat.memory.byteAt place := by
  induction values with
  | nil => exact fun _ _ _ _ _ => rfl
  | cons value values ih =>
    intro flat hs h4 address h
    let poked := flat.poke (Width.word.align address) value .word
    have hpoke : poked.size = flat.size := size_poke ..
    have hword : Width.word.lanes ≤ flat.size := h4
    have hrest : (writeWords poked (address + 4) values).2.memory.byteAt place =
        poked.memory.byteAt place := by
      refine ih poked (hpoke.trans hs) (hpoke.symm ▸ h4) (address + 4) fun i hi => ?_
      rw [hpoke, next_byte]
      exact h (4 + i) (by rw [List.length_cons]; omega)
    rw [writeWords_cons]
    refine hrest.trans (memory_poke_of_ne hs hword _ value fun i hi => ?_)
    rw [Width.align_of_mod (Width.align_mod ..)]
    exact h i (lt_of_lt_of_le hi (Nat.le_mul_of_pos_right 4 (Nat.succ_pos _)))

/-- Words that fit in the memory read back as they were written. -/
theorem data_writeWords (values : List Word) :
    ∀ flat : FlatMemory, flat.size = 2 ^ e → 4 * values.length ≤ flat.size →
      4 * values.length ≤ 2 ^ 32 → ∀ address,
      (readWords (writeWords flat address values).2 address values.length).1.map Read.data =
        values := by
  induction values with
  | nil => exact fun _ _ _ _ _ => rfl
  | cons value values ih =>
    intro flat hs hfits hfits' address
    simp only [List.length_cons] at hfits hfits'
    have h4 : 4 ≤ flat.size := by omega
    have hword : Width.word.lanes ≤ flat.size := h4
    let poked := flat.poke (Width.word.align address) value .word
    have hpoke : poked.size = flat.size := size_poke ..
    have hafter : ∀ i < 4,
        (writeWords poked (address + 4) values).2.byteAt
            (Width.word.align address + UInt32.ofNat i) =
          poked.byteAt (Width.word.align address + UInt32.ofNat i) := by
      intro i hi
      have h4' : 4 ≤ poked.size := hpoke.symm ▸ h4
      refine byteAt_congr (size_writeWords values poked (address + 4)) ?_
      refine memory_writeWords_of_ne values poked (hpoke.trans hs) h4' (address + 4)
        fun j hj he => ?_
      rw [hpoke, next_byte] at he
      have := index_add_inj hs _ (by omega) (by omega) (by omega) (by omega) he
      omega
    have hfirst : (writeWords poked (address + 4) values).2.peek (Width.word.align address) .word =
        poked.peek (Width.word.align address) .word := by
      refine peek_congr fun i hi => ?_
      rw [Width.align_of_mod (Width.align_mod ..)]
      exact hafter i hi
    have hrest := ih poked (hpoke.trans hs) (by omega) (by omega) (address + 4)
    rw [writeWords_cons, List.length_cons, data_readWords_succ, hfirst, hrest,
      peek_poke hs hword]

/-- Every access of a flat memory costs the same. -/
theorem charges (timing : Timing) :
    Charges (fun flat : FlatMemory => flat.timing = timing) timing where
  read h _ _ := h
  write h _ _ _ := (timing_poke ..).trans h
  fetch h _ _ := h
  latch h _ := h
  read_timing h _ _ := h
  write_timing h _ _ _ := h
  fetch_timing h _ _ := h

end Handheld.FlatMemory
