import Handheld.Proofs.Processor.Assembly
import Handheld.Proofs.Processor.BlockTransfer
import Handheld.Proofs.Processor.Executing
import Handheld.Proofs.Processor.LoadedValues

/-!
# Single transfers

A load or store of a word, a halfword or a byte at any address, which a base and an offset form. The
base may be moved before or after.

1. `Arm.SingleFields` reads a transfer off the bits of its opcode (`decodeBody_single`), and
   `Arm.IsSingleTransfer` are all of these opcodes.
2. `Transferred` is what a transfer leaves of the processor: `transfer_loads` and `transfer_stores`
   move the value, and `Transferred.writes` the base.
3. `singleTransfer_step` is one step over any of the opcodes in any state.
-/

namespace Handheld

/-! ## Opcodes -/

namespace Single

/-- Bits 22 and 20 of the transfers of words and bytes. -/
def wordCode : Single → Option (Nat × Nat)
  | str => some (0, 0)
  | ldr => some (0, 1)
  | strb => some (1, 0)
  | ldrb => some (1, 1)
  | _ => none

/-- Bit 20, and bits 5 and 6, of the transfers of halfwords and signed values. -/
def halfwordCode : Single → Option (Nat × Nat)
  | strh => some (0, 1)
  | ldrh => some (1, 1)
  | ldrsb => some (1, 2)
  | ldrsh => some (1, 3)
  | _ => none

theorem wordCode_eq {single : Single} {byte load : Nat} (h : single.wordCode = some (byte, load)) :
    load = single.load.toNat ∧ single.width = (if byte = 1 then .byte else .word) ∧
      single.signed = false := by
  cases single <;> cases h <;> exact ⟨rfl, rfl, rfl⟩

theorem halfwordCode_eq {single : Single} {load kind : Nat}
    (h : single.halfwordCode = some (load, kind)) :
    load = single.load.toNat ∧ single.width = (if kind % 2 = 1 then .halfword else .byte) ∧
      kind / 2 = single.signed.toNat := by
  cases single <;> cases h <;> exact ⟨rfl, rfl, rfl⟩

end Single

namespace Arm

/-- The opcodes of transfers of words and bytes: one with bits 4 and 25 set means nothing. -/
def IsWordTransfer (opcode : Word) : Prop :=
  opcode.toNat / 2 ^ 26 % 4 = 1 ∧ (opcode.toNat / 2 ^ 25 % 2 = 0 ∨ opcode.toNat / 2 ^ 4 % 2 = 0)

/-- The opcodes of transfers of halfwords and signed values: a store has no sign, and bits 8 to 11
belong to a constant offset. -/
def IsHalfwordTransfer (opcode : Word) : Prop :=
  opcode.toNat / 2 ^ 25 % 8 = 0 ∧ opcode.toNat / 2 ^ 7 % 2 = 1 ∧ opcode.toNat / 2 ^ 4 % 2 = 1 ∧
    (opcode.toNat / 2 ^ 5 % 4 = 1 ∨ opcode.toNat / 2 ^ 20 % 2 = 1 ∧ opcode.toNat / 2 ^ 5 % 4 ≠ 0) ∧
    (opcode.toNat / 2 ^ 22 % 2 = 1 ∨ opcode.toNat / 2 ^ 8 % 2 ^ 4 = 0)

/-- The opcodes of single transfers. -/
def IsSingleTransfer (opcode : Word) : Prop :=
  IsWordTransfer opcode ∨ IsHalfwordTransfer opcode

/-- The transfer and the offset of an opcode of single transfers. -/
inductive Moves (opcode : Word) : Single → Operand → Prop
  /-- A word or a byte, at a constant of twelve bits. -/
  | word {single : Single} {offset : Word} (hgroup : opcode.toNat / 2 ^ 25 % 8 = 2)
    (hcode : single.wordCode = some (opcode.toNat / 2 ^ 22 % 2, opcode.toNat / 2 ^ 20 % 2))
    (hoffset : offset.toNat = opcode.toNat % 2 ^ 12) :
    Moves opcode single (.constant offset)
  /-- A word or a byte, at a register shifted by a field of five bits. -/
  | wordShifted {single : Single} {register : Register} {shift : Shift} {amount : Word}
    (hgroup : opcode.toNat / 2 ^ 25 % 8 = 3) (h4 : opcode.toNat / 2 ^ 4 % 2 = 0)
    (hcode : single.wordCode = some (opcode.toNat / 2 ^ 22 % 2, opcode.toNat / 2 ^ 20 % 2))
    (hregister : register.val = opcode.toNat % 2 ^ 4)
    (hshift : shift.code = opcode.toNat / 2 ^ 5 % 2 ^ 2)
    (hamount : amount.toNat = opcode.toNat / 2 ^ 7 % 2 ^ 5) :
    Moves opcode single (.shifted register shift amount)
  /-- A halfword or a signed value, at a constant in two halves. -/
  | halfword {single : Single} {offset : Word} (hopcode : IsHalfwordTransfer opcode)
    (hcode : single.halfwordCode = some (opcode.toNat / 2 ^ 20 % 2, opcode.toNat / 2 ^ 5 % 4))
    (h22 : opcode.toNat / 2 ^ 22 % 2 = 1)
    (hoffset : offset.toNat = opcode.toNat / 2 ^ 8 % 2 ^ 4 * 2 ^ 4 + opcode.toNat % 2 ^ 4) :
    Moves opcode single (.constant offset)
  /-- A halfword or a signed value, at a register. -/
  | halfwordRegister {single : Single} {register : Register} (hopcode : IsHalfwordTransfer opcode)
    (hcode : single.halfwordCode = some (opcode.toNat / 2 ^ 20 % 2, opcode.toNat / 2 ^ 5 % 4))
    (h22 : opcode.toNat / 2 ^ 22 % 2 = 0) (hregister : register.val = opcode.toNat % 2 ^ 4) :
    Moves opcode single (.register register)

/-- The fields of an opcode of single transfers. -/
structure SingleFields (opcode : Word) (single : Single) (register : Register) (how : Indexing)
    (offset : Operand) : Prop where
  moves : Moves opcode single offset
  register : opcode.toNat / 2 ^ 12 % 16 = register.val
  indexing : IndexingFields opcode how

theorem exists_wordCode (byte load : Nat) (hb : byte < 2) (hl : load < 2) :
    ∃ single : Single, single.wordCode = some (byte, load) := by
  interval_cases byte <;> interval_cases load
  · exact ⟨.str, rfl⟩
  · exact ⟨.ldr, rfl⟩
  · exact ⟨.strb, rfl⟩
  · exact ⟨.ldrb, rfl⟩

theorem exists_halfwordCode (load kind : Nat) (hl : load < 2) (hk : kind < 4)
    (h : kind = 1 ∨ load = 1 ∧ kind ≠ 0) :
    ∃ single : Single, single.halfwordCode = some (load, kind) := by
  rcases h with rfl | ⟨rfl, h0⟩
  · interval_cases load
    · exact ⟨.strh, rfl⟩
    · exact ⟨.ldrh, rfl⟩
  · interval_cases kind
    · exact absurd rfl h0
    · exact ⟨.ldrh, rfl⟩
    · exact ⟨.ldrsb, rfl⟩
    · exact ⟨.ldrsh, rfl⟩

/-- Every opcode of single transfers has a transfer and an offset. -/
theorem IsSingleTransfer.moves {opcode : Word} (h : IsSingleTransfer opcode) :
    ∃ single offset, Moves opcode single offset := by
  have hfield (n : Nat) (hn : n < 2 ^ 32) : (UInt32.ofNat n).toNat = n :=
    UInt32.toNat_ofNat_of_lt' hn
  let register : Register := ⟨opcode.toNat % 2 ^ 4, Nat.mod_lt _ (by decide)⟩
  rcases h with ⟨hgroup, h4⟩ | h
  · obtain ⟨single, hcode⟩ := exists_wordCode (opcode.toNat / 2 ^ 22 % 2)
      (opcode.toNat / 2 ^ 20 % 2) (by omega) (by omega)
    by_cases h25 : opcode.toNat / 2 ^ 25 % 2 = 0
    · exact ⟨single, _, .word (by omega) hcode (hfield _ (by omega))⟩
    · obtain ⟨shift, hshift⟩ :=
        Shift.exists_code (n := opcode.toNat / 2 ^ 5 % 2 ^ 2) (Nat.mod_lt _ (by decide))
      exact ⟨single, .shifted register shift _,
        .wordShifted (by omega) (by omega) hcode rfl hshift (hfield _ (by omega))⟩
  · obtain ⟨-, -, -, hkind, -⟩ := id h
    obtain ⟨single, hcode⟩ := exists_halfwordCode (opcode.toNat / 2 ^ 20 % 2)
      (opcode.toNat / 2 ^ 5 % 4) (by omega) (by omega) hkind
    by_cases h22 : opcode.toNat / 2 ^ 22 % 2 = 1
    · exact ⟨single, _, .halfword h hcode h22 (hfield _ (by omega))⟩
    · exact ⟨single, .register register, .halfwordRegister h hcode (by omega) rfl⟩

/-- Every opcode of single transfers has a register and a base. -/
theorem IsSingleTransfer.fields {opcode : Word} (h : IsSingleTransfer opcode) :
    ∃ single register how offset, SingleFields opcode single register how offset := by
  obtain ⟨single, offset, hmoves⟩ := h.moves
  refine ⟨single, ⟨opcode.toNat / 2 ^ 12 % 16, Nat.mod_lt _ (by decide)⟩,
    ⟨⟨opcode.toNat / 2 ^ 16 % 16, Nat.mod_lt _ (by decide)⟩, bit opcode 23, bit opcode 24,
      bit opcode 21⟩, offset, hmoves, rfl, ?_⟩
  exact ⟨(toNat_bit 24 rfl).symm, (toNat_bit 23 rfl).symm, (toNat_bit 21 rfl).symm, rfl⟩

theorem IsHalfwordTransfer.decodeBody_eq {opcode : Word} (h : IsHalfwordTransfer opcode) :
    decodeBody opcode = halfwordTransfer opcode := by
  obtain ⟨hgroup, h7, h4, hkind, hoffset⟩ := h
  refine decodeBody_halfword hgroup ?_ ?_
  · rw [field_eq_iff 4 rfl 4 rfl, field_eq_iff 4 rfl 4 rfl, field_eq_iff 4 rfl 4 rfl]
    show _ = 11 ∨ _ = 13 ∨ _ = 15
    omega
  · refine hoffset.imp (bit_set 22 rfl) fun h8 => ?_
    exact field_eq 8 rfl 4 rfl h8

theorem wordTransfer_eq {opcode : Word} {single : Single} {register : Register} {how : Indexing}
    (hcode : single.wordCode = some (opcode.toNat / 2 ^ 22 % 2, opcode.toNat / 2 ^ 20 % 2))
    (hregister : opcode.toNat / 2 ^ 12 % 16 = register.val) (hhow : IndexingFields opcode how)
    (offset : Operand) :
    wordTransfer opcode offset = .transfer (single.transfer register) how offset := by
  obtain ⟨hload, hwidth, hsigned⟩ := Single.wordCode_eq hcode
  simp only [← toNat_bit (w := opcode) (k := 22) 22 rfl, Bool.toNat_eq_one] at hwidth
  rw [wordTransfer, hhow.indexing_eq, bit_eq 20 rfl hload, registerField_eq 12 rfl hregister,
    Single.transfer, hwidth, hsigned]

theorem halfwordTransfer_eq {opcode : Word} {single : Single} {register : Register}
    {how : Indexing} {offset : Operand}
    (hcode : single.halfwordCode = some (opcode.toNat / 2 ^ 20 % 2, opcode.toNat / 2 ^ 5 % 4))
    (hregister : opcode.toNat / 2 ^ 12 % 16 = register.val) (hhow : IndexingFields opcode how)
    (hoffset : (if bit opcode 22 then Operand.constant (opcode &&& 0xF ||| field opcode 4 0xF0)
      else .register (registerField opcode 0)) = offset) :
    halfwordTransfer opcode = .transfer (single.transfer register) how offset := by
  obtain ⟨hload, hwidth, hsigned⟩ := Single.halfwordCode_eq hcode
  have h5 : opcode.toNat / 2 ^ 5 % 4 % 2 = opcode.toNat / 2 ^ 5 % 2 := by omega
  simp only [h5, ← toNat_bit (w := opcode) (k := 5) 5 rfl, Bool.toNat_eq_one] at hwidth
  have h6 : bit opcode 6 = single.signed := bit_eq 6 rfl (by omega)
  rw [halfwordTransfer, hhow.indexing_eq, bit_eq 20 rfl hload, registerField_eq 12 rfl hregister,
    hoffset, h6, Single.transfer, hwidth]

/-- Decoding reads the fields. -/
theorem decodeBody_single {opcode : Word} {single : Single} {register : Register} {how : Indexing}
    {offset : Operand} (h : SingleFields opcode single register how offset) :
    decodeBody opcode = .transfer (single.transfer register) how offset := by
  obtain ⟨hmoves, hregister, hhow⟩ := h
  cases hmoves with
  | @word offset hgroup hcode hoffset =>
    have hg : (field opcode 25 7).toNat = 2 := (toNat_field opcode 25 3 rfl rfl).trans hgroup
    have hconstant : opcode &&& 0xFFF = offset := and_eq_of_toNat 12 rfl hoffset.symm
    rw [decodeBody, hg]
    simp only
    rw [hconstant, wordTransfer_eq hcode hregister hhow]
  | @wordShifted number shift amount hgroup h4 hcode hnumber hshift hamount =>
    have hg : (field opcode 25 7).toNat = 3 := (toNat_field opcode 25 3 rfl rfl).trans hgroup
    have hbit : bit opcode 4 = false := bit_clear 4 rfl h4
    have h0 : registerField opcode 0 = number := registerField_eq 0 rfl (by omega)
    have h5 : Shift.ofCode (opcode >>> 5) = shift := Shift.ofCode_eq 5 rfl hshift.symm
    have h7 : field opcode 7 0x1F = amount := field_eq 7 rfl 5 rfl hamount.symm
    rw [decodeBody, hg]
    simp only
    rw [hbit, h0, h5, h7, if_neg Bool.false_ne_true, wordTransfer_eq hcode hregister hhow]
  | @halfword offset hopcode hcode h22 hoffset =>
    have hconstant : opcode &&& 0xF ||| field opcode 4 0xF0 = offset :=
      halves_eq (by omega) (by omega)
    rw [hopcode.decodeBody_eq, halfwordTransfer_eq hcode hregister hhow]
    rw [bit_set 22 rfl h22, hconstant]
    rfl
  | @halfwordRegister number hopcode hcode h22 hnumber =>
    have h0 : registerField opcode 0 = number := registerField_eq 0 rfl (by omega)
    rw [hopcode.decodeBody_eq, halfwordTransfer_eq hcode hregister hhow]
    rw [bit_clear 22 rfl h22, h0]
    rfl

end Arm

/-! ## Steps -/

namespace Indexing

/-- The address of a transfer at a distance from its base. -/
def effective (how : Indexing) (base distance : Word) : Word :=
  if how.pre then how.moved base distance else base

/-- The base moves unless it was loaded or is the program counter. -/
def MovesBase (how : Indexing) (moved : Transfer) : Prop :=
  (how.writeBack = true ∨ how.pre = false) ∧ ¬ (moved.load = true ∧ moved.register = how.base) ∧
    how.base ≠ Register.pc

instance (how : Indexing) (moved : Transfer) : Decidable (how.MovesBase moved) :=
  inferInstanceAs (Decidable (_ ∧ _ ∧ _))

/-- The registers that a transfer writes: the one loaded wins over a base that moves. -/
def writes (how : Indexing) (moved : Word) (register : Register) (loaded : Option Word)
    (wanted : Register) : Option Word :=
  (if wanted = register then loaded else none).or
    (if (how.writeBack = true ∨ how.pre = false) ∧ wanted = how.base then some moved else none)

end Indexing

namespace Processor

/-- What a single transfer leaves of a processor, by what it loaded. -/
structure Transferred (p : Processor) (flat : FlatMemory) (writes : Register → Option Word)
    (register : Register) (loaded : Option Word) (q : Processor) : Prop where
  wrote : Wrote writes p q
  next : ¬ (loaded.isSome = true ∧ register = Register.pc) → q.nextPc = p.nextPc + 4
  branches : ∀ value, loaded = some value → register = Register.pc →
    Refilled flat (Width.word.align value) q
  status : q.status = p.status
  bank : q.registers.bank = p.registers.bank

namespace Transferred

variable {p q r : Processor} {flat : FlatMemory} {writes : Register → Option Word}
  {register : Register} {loaded : Option Word}

theorem congr (h : Transferred p flat writes register loaded q) (hr : r.registers = q.registers)
    (hs : r.status = q.status) (hpipeline : r.pipeline = q.pipeline) :
    Transferred p flat writes register loaded r where
  wrote := h.wrote.congr (fun _ _ => by rw [hr]) (by rw [hr])
  next hn := by
    rw [← h.next hn]
    unfold nextPc width thumb
    rw [hr, hs]
  branches value hv hpc :=
    (h.branches value hv hpc).congr (congrArg RegisterFile.pc hr) (congrArg Status.thumb hs)
      hpipeline
  status := hs.trans h.status
  bank := (congrArg RegisterFile.bank hr).trans h.bank

/-- The base moves without a branch. -/
theorem set (h : Transferred p flat writes register loaded q) {base : Register}
    (hb : base ≠ Register.pc) (moved : Word) :
    Transferred p flat (fun wanted => if wanted = base then some moved else writes wanted) register
      loaded (q.set base moved) where
  wrote := h.wrote.set h.bank base moved
  next hn := by
    rw [← h.next hn]
    exact congrArg (· - q.width.bytes) (RegisterFile.pc_set_of_ne _ _ hb)
  branches value hv hpc :=
    (h.branches value hv hpc).congr (RegisterFile.pc_set_of_ne _ _ hb) rfl rfl
  status := h.status
  bank := (q.bank_set ..).trans h.bank

theorem congr_writes {other : Register → Option Word}
    (h : Transferred p flat writes register loaded q)
    (hw : ∀ register, register ≠ Register.pc → other register = writes register) :
    Transferred p flat other register loaded q :=
  { h with wrote := h.wrote.congr_writes hw }

end Transferred

theorem transferred_advance {p : Processor} (ht : p.thumb = false) (flat : FlatMemory)
    (register : Register) :
    Transferred p flat (fun _ => none) register none (p.advance flat).1 where
  wrote := wrote_advance p flat
  next _ := by
    rw [nextPc_advance, width_of_arm ht]
    rfl
  branches _ hv _ := by cases hv
  status := rfl
  bank := rfl

theorem transfer_stores {e : Nat} {flat : FlatMemory} (hs : flat.size = 2 ^ e)
    (h4 : 4 ≤ flat.size) {p : Processor} (ht : p.thumb = false) {single : Single}
    (hl : single.load = false) (address : Word) (register : Register) :
    let outcome := (p.advance flat).1.transfer flat address (single.transfer register)
    Transferred p flat (fun _ => none) register none outcome.processor ∧
      flat.Stored single.width address (p.seen 12 register) outcome.bus := by
  have hlanes : single.width.lanes ≤ flat.size :=
    le_trans (by cases single <;> decide) h4
  obtain ⟨after, hstored, hstore⟩ := storeValue_stores hs hlanes address (p.seen 12 register)
  have hsource : (p.advance flat).1.getAhead register (p.advance flat).1.width.bytes =
      p.seen 12 register := by
    rw [width_advance ht, getAhead_advance ht]
    rfl
  intro outcome
  have houtcome : outcome = ⟨(p.advance flat).1, after,
      Cost.store (p.advance flat).1.fetchTiming flat.timing⟩ := by
    show transfer _ _ _ _ = _
    unfold transfer Single.transfer
    simp only [hl, hsource, hstore, Bool.false_eq_true, if_false]
  rw [houtcome]
  exact ⟨transferred_advance ht flat register, hstored⟩

theorem transfer_loads (flat : FlatMemory) {p : Processor} (ht : p.thumb = false) {single : Single}
    (hl : single.load = true) (address : Word) (register : Register) :
    let outcome := (p.advance flat).1.transfer flat address (single.transfer register)
    ∃ value, single.Loads flat.byteAt address value ∧ outcome.bus = flat ∧
      Transferred p flat (fun wanted => if wanted = register then some value else none) register
        (some value) outcome.processor := by
  obtain ⟨value, hloads, hload⟩ := loadValue_loads flat hl address
  intro outcome
  have houtcome : outcome =
      (if register = Register.pc then
        (((p.advance flat).1.set register value).refill flat
          ((p.advance flat).1.set register value).pc).costing
            (Cost.load (p.advance flat).1.fetchTiming flat.timing)
      else ⟨(p.advance flat).1.set register value, flat,
        Cost.load (p.advance flat).1.fetchTiming flat.timing⟩) := by
    show transfer _ _ _ _ = _
    unfold transfer Single.transfer completePcWrite
    simp only [hl, hload, Bool.false_eq_true, if_true, if_false]
  refine ⟨value, hloads, ?_, ?_⟩
  · rw [houtcome]
    split <;> rfl
  · have hadvance := transferred_advance ht flat register
    have hwrote := hadvance.wrote.set hadvance.bank register value
    rw [houtcome]
    split
    case isTrue hpc =>
      have hvalue := pc_set (p.advance flat).1 hpc value
      exact
        { wrote := hwrote.congr (fun _ hplace =>
            general_refill ((p.advance flat).1.set register value) flat _ hplace) rfl
          next := fun hn => absurd ⟨rfl, hpc⟩ hn
          branches := fun loaded hv _ => by
            cases hv
            rw [hvalue]
            have hwidth : ((p.advance flat).1.set register value).width = .word :=
              width_advance ht flat
            have hrefilled := refill_refilled ((p.advance flat).1.set register value) flat value
            rw [hwidth] at hrefilled
            exact hrefilled
          status := rfl
          bank := bank_set .. }
    case isFalse hpc =>
      exact
        { wrote := hwrote
          next := fun _ => (hadvance.set hpc value).next (by simp)
          branches := fun _ _ he => absurd he hpc
          status := rfl
          bank := bank_set .. }

theorem indexedTransfer_eq {p : Processor} (ht : p.thumb = false) (flat : FlatMemory)
    (moved : Transfer) (how : Indexing) (distance : Word) :
    let base := p.seen 8 how.base
    let outcome := (p.advance flat).1.transfer flat (how.effective base distance) moved
    (p.advance flat).1.indexedTransfer flat moved how distance =
      { outcome with
        processor :=
          if how.MovesBase moved then
            outcome.processor.set how.base (how.moved base distance)
          else outcome.processor } := by
  intro base outcome
  have hbase : (p.advance flat).1.get how.base = base := get_advance_eq ht flat how.base
  have hmoves : ((how.writeBack || !how.pre) &&
      !(moved.load && decide (moved.register = how.base)) &&
        decide (how.base ≠ Register.pc)) = true ↔ how.MovesBase moved := by
    cases hload : moved.load <;> simp [Indexing.MovesBase, hload, and_assoc]
  unfold indexedTransfer
  simp only [hbase, hmoves]
  split <;> rfl

/-- A value loaded into the base wins over its move. -/
theorem Transferred.writes {p q : Processor} {flat : FlatMemory} {moved : Transfer}
    {loaded : Option Word} (how : Indexing) (hl : loaded.isSome = moved.load)
    (h : Transferred p flat (fun wanted => if wanted = moved.register then loaded else none)
      moved.register loaded q) (value : Word) :
    Transferred p flat (how.writes value moved.register loaded) moved.register loaded
      (if how.MovesBase moved then q.set how.base value else q) := by
  have hloaded : moved.load = false → loaded = none := fun hf => by
    rwa [hf, Option.isSome_eq_false_iff, Option.isNone_iff_eq_none] at hl
  unfold Indexing.writes
  split
  case isTrue hmoves =>
    obtain ⟨hback, hwins, hpc⟩ := hmoves
    refine (h.set hpc value).congr_writes fun wanted _ => ?_
    by_cases hbase : wanted = how.base
    · subst hbase
      by_cases hregister : how.base = moved.register
      · simp [hback, hloaded (by simpa [hregister] using hwins)]
      · simp [hback, hregister]
    · simp [hbase]
  case isFalse hmoves =>
    refine h.congr_writes fun wanted hw => ?_
    by_cases hback : (how.writeBack = true ∨ how.pre = false) ∧ wanted = how.base
    · obtain ⟨hindexed, rfl⟩ := hback
      obtain ⟨hload, hregister⟩ : moved.load = true ∧ moved.register = how.base := by
        by_contra hn
        exact hmoves ⟨hindexed, hn, hw⟩
      obtain ⟨value, rfl⟩ := Option.isSome_iff_exists.mp (hl.trans hload)
      simp [hregister]
    · simp [hback]

/-- **Single transfers.** On a flat memory of at least four bytes, a step over an opcode of single
transfers whose condition holds moves what its fields say, at its base or at the distance of its
offset from there. A load gives the value that the bytes at the address make up and leaves the
memory alone, and a store puts the low bytes of its register into memory and leaves the others. The
program counter is stored twelve bytes ahead of the opcode, and is eight ahead otherwise. Of the
registers only the one loaded is written, and the base where it moves. The program goes on after the
opcode, or at what was loaded into the program counter, with the status word as it was. -/
theorem singleTransfer_step {e : Nat} {flat : FlatMemory} (hs : flat.size = 2 ^ e)
    (h4 : 4 ≤ flat.size) {p : Processor} (ht : p.thumb = false)
    (ho : Arm.IsSingleTransfer p.pipeline.decoded)
    (hc : (Condition.ofCode (p.pipeline.decoded >>> 28)).holds p.status.flags = true) :
    ∃ single register how offset,
      Arm.SingleFields p.pipeline.decoded single register how offset ∧
      ∃ base distance address loaded,
        base = p.seen 8 how.base ∧
        distance = (offset.result (p.seen 8) p.status.carry).value ∧
        address = how.effective base distance ∧
        (match loaded with
          | some value =>
            single.load = true ∧ single.Loads flat.byteAt address value ∧ (p.step flat).bus = flat
          | none =>
            single.load = false ∧
              flat.Stored single.width address (p.seen 12 register) (p.step flat).bus) ∧
        Transferred p flat (how.writes (how.moved base distance) register loaded) register loaded
          (p.step flat).processor := by
  obtain ⟨single, register, how, offset, hfields⟩ := ho.fields
  have hahead : offset.ahead = 8 := by
    obtain ⟨hmoves, -, -⟩ := hfields
    cases hmoves <;> rfl
  have hoffset : (offset.evaluate (p.advance flat).1).value =
      (offset.result (p.seen 8) p.status.carry).value := by
    rw [evaluate_advance ht, hahead]
  have hexecute : (p.advance flat).1.execute (p.advance flat).2
      (.transfer (single.transfer register) how offset) =
        (p.advance flat).1.indexedTransfer flat (single.transfer register) how
          (offset.result (p.seen 8) p.status.carry).value := by
    rw [← hoffset]
    rfl
  refine ⟨single, register, how, offset, hfields, ?_⟩
  rw [step_of_retires (retires_arm ht hc (Arm.decodeBody_single hfields)), hexecute,
    indexedTransfer_eq ht]
  generalize (offset.result (p.seen 8) p.status.carry).value = distance
  let moved := how.moved (p.seen 8 how.base) distance
  let address := how.effective (p.seen 8 how.base) distance
  cases hl : single.load with
  | true =>
    obtain ⟨value, hloads, hbus, hloaded⟩ := transfer_loads flat ht hl address register
    have hload : (some value).isSome = (single.transfer register).load := hl.symm
    have hwrites := hloaded.writes how hload moved
    exact ⟨_, _, address, some value, rfl, rfl, rfl, ⟨rfl, hloads, hbus⟩,
      hwrites.congr rfl rfl rfl⟩
  | false =>
    obtain ⟨hloaded, hstored⟩ := transfer_stores hs h4 ht hl address register
    have hload : (none : Option Word).isSome = (single.transfer register).load := hl.symm
    have hwrites := (hloaded.congr_writes fun _ _ => ite_self none).writes how hload moved
    exact ⟨_, _, address, none, rfl, rfl, rfl, ⟨rfl, hstored⟩, hwrites.congr rfl rfl rfl⟩

/-- About to load the word at a register, which is then moved up by four. -/
def aboutToLoad : Processor :=
  { powerOn.set (Register.ofNat 1) 0x12 with pipeline := ⟨0, 0xE4912004, 0⟩ }

/-- Half a word above its address, a word comes with its halves swapped. -/
theorem singleTransfer_step_misaligned :
    threeWords.size = 2 ^ 6 ∧ 4 ≤ threeWords.size ∧ aboutToLoad.thumb = false ∧
      Arm.IsSingleTransfer aboutToLoad.pipeline.decoded ∧
      (Condition.ofCode (aboutToLoad.pipeline.decoded >>> 28)).holds aboutToLoad.status.flags =
        true ∧
      (aboutToLoad.step threeWords).processor.get 1 = 0x16 ∧
      lane ((aboutToLoad.step threeWords).processor.get 2) 2 = 7 := by
  have hs : threeWords.size = 2 ^ 6 := by decide +kernel
  have h4 : 4 ≤ threeWords.size := by decide +kernel
  have ht : aboutToLoad.thumb = false := by decide +kernel
  have ho : Arm.IsSingleTransfer aboutToLoad.pipeline.decoded := .inl ⟨by decide, by decide⟩
  have hc : (Condition.ofCode (aboutToLoad.pipeline.decoded >>> 28)).holds
      aboutToLoad.status.flags = true := by decide +kernel
  obtain ⟨single, register, how, offset, ⟨hmoves, hregister, hindexing⟩, base, distance, address,
    loaded, rfl, rfl, rfl, hmatch, hmoved⟩ := singleTransfer_step hs h4 ht ho hc
  obtain ⟨hsingle, rfl⟩ : single = .ldr ∧ offset = .constant 4 := by
    cases hmoves with
    | @word constant _ hcode hoffset =>
      obtain rfl : constant = 4 := UInt32.toNat_inj.mp hoffset
      refine ⟨?_, rfl⟩
      revert hcode
      cases single <;> decide
    | wordShifted hgroup => exact absurd hgroup (by decide)
    | halfword hopcode => exact absurd hopcode.1 (by decide)
    | halfwordRegister hopcode => exact absurd hopcode.1 (by decide)
  obtain rfl : register = 2 := Fin.ext hregister.symm
  have hbase : how.base = 1 := Fin.ext hindexing.base.symm
  have hpre : how.pre = false := Bool.toNat_eq_zero.mp hindexing.pre.symm
  have hup : how.up = true := Bool.toNat_eq_one.mp hindexing.up.symm
  have hseen : aboutToLoad.seen 8 how.base = 0x12 := by
    rw [hbase]
    decide +kernel
  have haddress (distance : Word) : how.effective 0x12 distance = 0x12 := by
    simp [Indexing.effective, hpre]
  have hdistance : ((Operand.constant 4).result (aboutToLoad.seen 8)
      aboutToLoad.status.carry).value = 4 := by decide +kernel
  rw [hseen, haddress] at hmatch
  rw [hseen] at hmoved
  have hread (wanted : Register) (hw : wanted ≠ Register.pc) :
      (aboutToLoad.step threeWords).processor.get wanted =
        (how.writes (how.moved 0x12 4) 2 loaded wanted).getD (aboutToLoad.get wanted) := by
    rw [← hdistance, ← hmoved.wrote.read wanted hw, ← hmoved.bank]
    rfl
  refine ⟨hs, h4, ht, ho, hc, ?_, ?_⟩
  · rw [hread 1 (by decide)]
    simp [Indexing.writes, Indexing.moved, hpre, hup, hbase]
  · cases loaded with
    | none => simp [hsingle, Single.load] at hmatch
    | some value =>
      obtain ⟨-, hloads, -⟩ := hmatch
      rw [hsingle] at hloads
      have hvalue : (how.writes (how.moved 0x12 4) 2 (some value) 2).getD (aboutToLoad.get 2) =
          value := by simp [Indexing.writes]
      rw [hread 2 (by decide), hvalue, hloads 2 (by decide)]
      decide +kernel

end Processor

end Handheld
