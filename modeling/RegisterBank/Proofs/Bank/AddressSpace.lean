import Mathlib.Data.Nat.ModEq
import RegisterBank.Proofs.Bank.Accepted

/-!
# Bits of the address space

A layout counts the bits of its fields from bit 0 of address 0.  The word of a
register starts at eight times its address and is as wide as the data bus, so
words of different registers share no bit if their addresses lie a bus word
apart (`words_apart`).  They do where the increment is no smaller than a bus
word: both are powers of two, so one divides the other
(`Valid.dataBytes_dvd_increment`), and different multiples keep their distance.
A field stays within its register's word, and there apart from the other fields.
-/

namespace RegisterBank

/-! ## Ranges within words -/

/-- All bits of a range are bits of another. -/
structure BitRange.Within (range word : BitRange) : Prop where
  lsb_le : word.lsb ≤ range.lsb
  above_le : range.above ≤ word.above

/-- Ranges inside ranges that share no bit share none. -/
theorem BitRange.Apart.within {range other word otherWord : BitRange}
    (apart : word.Apart otherWord) (within : range.Within word)
    (otherWithin : other.Within otherWord) : range.Apart other := by
  obtain ⟨start, finish⟩ := within
  obtain ⟨otherStart, otherFinish⟩ := otherWithin
  unfold Apart at apart ⊢
  rcases apart with before | behind
  · exact Or.inl (by omega)
  · exact Or.inr (by omega)

/-- An increment that is not smaller than a bus word is a multiple of it. -/
theorem Configuration.Valid.dataBytes_dvd_increment {config : Configuration}
    (valid : config.Valid) (wide : config.dataBytes ≤ config.addressIncrement) :
    config.dataBytes ∣ config.addressIncrement := by
  obtain ⟨bytes, -, bytesEq, -⟩ := valid.exists_pow_dataBytes
  obtain ⟨stride, -, strideEq⟩ := valid.exists_pow_increment
  rw [bytesEq, strideEq] at wide ⊢
  exact Nat.pow_dvd_pow 2 ((Nat.pow_le_pow_iff_right (by omega)).mp wide)

/-! ## Bits of placed fields -/

namespace PlacedRegister

/-- The bits of a field, counted from bit 0 of address 0. -/
def absoluteBits (placed : PlacedRegister) (field : Field) : BitRange :=
  ⟨placed.absoluteBit field, field.bits.width⟩

/-- The bits of the register's word on a data bus of some width. -/
def word (placed : PlacedRegister) (dataWidth : Nat) : BitRange :=
  ⟨placed.address * 8, dataWidth⟩

variable {placed other : PlacedRegister} {field : Field} {dataWidth : Nat}

/-- The bits of a field lie in the word of its register. -/
theorem absoluteBits_within (inside : field.bits.above ≤ dataWidth) :
    (placed.absoluteBits field).Within (placed.word dataWidth) := by
  unfold BitRange.above at inside
  constructor
  · exact Nat.le_add_right _ _
  · unfold absoluteBits absoluteBit word BitRange.above
    dsimp only
    omega

/-- Moving both to the register's address keeps fields apart. -/
theorem absoluteBits_apart {sibling : Field} (apart : field.bits.Apart sibling.bits) :
    (placed.absoluteBits field).Apart (placed.absoluteBits sibling) := by
  unfold BitRange.Apart BitRange.above at apart ⊢
  unfold absoluteBits absoluteBit
  dsimp only
  omega

/-- Words at different aligned addresses share no bit. -/
theorem words_apart {dataBytes : Nat} (aligned : dataBytes ∣ placed.address)
    (otherAligned : dataBytes ∣ other.address) (different : placed.address ≠ other.address) :
    (placed.word (8 * dataBytes)).Apart (other.word (8 * dataBytes)) := by
  have same : placed.address ≡ other.address [MOD dataBytes] :=
    (Nat.modEq_zero_iff_dvd.mpr aligned).trans (Nat.modEq_zero_iff_dvd.mpr otherAligned).symm
  unfold BitRange.Apart BitRange.above word
  dsimp only
  rcases Nat.lt_or_gt_of_ne different with less | greater
  · have gap := same.add_le_of_lt less
    exact Or.inl (by omega)
  · have gap := same.symm.add_le_of_lt greater
    exact Or.inr (by omega)

end PlacedRegister

/-! ## Whole layouts -/

namespace Layout

/-- The bits of all fields of a layout, counted from bit 0 of address 0. -/
def fieldBits (layout : Layout) : List BitRange :=
  layout.registers.flatMap fun placed => placed.register.fields.map placed.absoluteBits

/-- The bits of fields in the address space: each register starts a bus word of
its own, each field lies in its register's word, 64 bits count the bits, and no
bit belongs to two fields. -/
structure Tiled (layout : Layout) (dataWidth : Nat) : Prop where
  aligned : ∀ placed ∈ layout.registers, dataWidth / 8 ∣ placed.address
  within : ∀ placed ∈ layout.registers, ∀ field ∈ placed.register.fields,
    (placed.absoluteBits field).Within (placed.word dataWidth)
  absoluteBit_lt : ∀ placed ∈ layout.registers, ∀ field ∈ placed.register.fields,
    placed.absoluteBit field < 2 ^ 64
  apart : layout.fieldBits.Pairwise BitRange.Apart

/-- The layout of a valid map is tiled, as soon as its addresses leave room for
a word each. -/
theorem tiled_of_resolve {map : RegisterMap} {layout : Layout} (valid : map.Valid)
    (resolved : resolve map = .ok layout)
    (wide : map.config.dataBytes ≤ map.config.addressIncrement) :
    layout.Tiled map.config.dataWidth := by
  have stands := stands_of_resolve valid resolved
  have aligned : ∀ placed ∈ layout.registers, map.config.dataBytes ∣ placed.address := by
    intro placed listed
    exact Nat.dvd_trans (valid.config.dataBytes_dvd_increment wide) (stands.aligned placed listed)
  have within : ∀ placed ∈ layout.registers, ∀ field ∈ placed.register.fields,
      (placed.absoluteBits field).Within (placed.word map.config.dataWidth) := by
    intro placed listed field has
    exact PlacedRegister.absoluteBits_within
      ((valid.allowed _ (stands.declared placed listed)).above_le field has)
  refine ⟨aligned, within, ?_, ?_⟩
  · intro placed listed field has
    exact absoluteBit_lt valid.config (stands.bounded placed listed)
      ((valid.registers _ (stands.declared placed listed)).fields field has)
  · obtain ⟨_, -, -, width⟩ := valid.config.exists_pow_dataBytes
    apply List.pairwise_flatMap.mpr
    constructor
    · intro placed listed
      have apart := (valid.registers _ (stands.declared placed listed)).apart
      exact List.pairwise_map.mpr
        (apart.imp fun different => PlacedRegister.absoluteBits_apart different.2)
    · -- Fields of different registers are apart because the words around them are.
      apply stands.distinct.imp_of_mem
      intro before after listed listed' different range fromBefore other fromAfter
      obtain ⟨field, has, rfl⟩ := List.mem_map.mp fromBefore
      obtain ⟨otherField, has', rfl⟩ := List.mem_map.mp fromAfter
      have apart := PlacedRegister.words_apart (aligned before listed) (aligned after listed')
        different
      rw [← width] at apart
      exact apart.within (within before listed field has) (within after listed' otherField has')

/-- **Fields share no bit of the address space**, if the increment is not smaller
than a bus word.  A bridge is made for no other layouts. -/
theorem fields_tiled {map : RegisterMap} {layout : Layout} (built : map.Built)
    (resolved : resolve map = .ok layout) :
    (∀ protocol plan, layout.prepare = .ok (some (protocol, plan)) →
      map.config.dataBytes ≤ map.config.addressIncrement) ∧
    (map.config.dataBytes ≤ map.config.addressIncrement →
      layout.Tiled map.config.dataWidth) := by
  constructor
  · intro protocol plan prepared
    have accepted : Bank.Accepted map layout protocol plan := ⟨built, resolved, prepared⟩
    rw [← (stands_of_resolve built.valid resolved).config_eq]
    exact accepted.dataBytes_le
  · exact tiled_of_resolve built.valid resolved

theorem fields_tiled_interrupts :
    Bank.interruptMap.Built ∧ resolve Bank.interruptMap = .ok Bank.interruptLayout ∧
      Bank.interruptMap.config.dataBytes ≤ Bank.interruptMap.config.addressIncrement ∧
      Bank.interruptLayout.fieldBits = [⟨0, 8⟩, ⟨12, 8⟩, ⟨32, 16⟩] ∧
      Bank.interruptLayout.Tiled 32 := by
  obtain ⟨built, resolved, prepared⟩ := Bank.accepted_interrupts
  obtain ⟨bridged, tiled⟩ := fields_tiled built resolved
  exact ⟨built, resolved, bridged _ _ prepared, rfl, tiled (bridged _ _ prepared)⟩

end Layout

end RegisterBank
