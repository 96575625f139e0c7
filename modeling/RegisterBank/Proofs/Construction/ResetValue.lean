import Mathlib.Data.List.Pairwise
import RegisterBank.Proofs.Construction.Fields

/-!
# Reset values of registers

A register puts the initial values of its fields side by side, but for those
that hardware drives.  The bits are joined without looking whether they meet.
That they do not is due to the fields: each initial value keeps to the bits of
its field, which no other field covers.  So the reset value of a field can be
read off that of its register (`Valid.extract_resetValue`), and there is nothing
else in it (`Valid.testBit_resetValue_of_uncovered`).
-/

namespace RegisterBank

/-- The value that a field takes on reset.  What hardware drives has no storage
for its initial value. -/
def Field.resetValue (field : Field) : Nat := if field.isHardwareDriven then 0 else field.initial

theorem Field.Valid.resetValue_lt {field : Field} (valid : field.Valid) :
    field.resetValue < 2 ^ field.bits.width := by
  unfold Field.resetValue
  split
  · exact Nat.two_pow_pos _
  · exact valid.initial_lt

/-! ## Joined bits -/

theorem testBit_foldl_or {α : Type} (bits : α → Nat) (elements : List α) (word i : Nat) :
    (elements.foldl (fun word element => word ||| bits element) word).testBit i = true ↔
      word.testBit i = true ∨ ∃ element ∈ elements, (bits element).testBit i = true := by
  induction elements generalizing word with
  | nil => simp
  | cons first rest ih =>
    rw [List.foldl_cons, ih, Nat.testBit_or, Bool.or_eq_true, or_assoc]
    simp only [List.mem_cons, exists_eq_or_imp]

namespace Register

theorem testBit_resetValue (register : Register) (i : Nat) :
    register.resetValue.testBit i = true ↔
      ∃ field ∈ register.fields, field.isHardwareDriven = false ∧ field.bits.lsb ≤ i ∧
        field.initial.testBit (i - field.bits.lsb) = true := by
  unfold resetValue
  rw [testBit_foldl_or]
  simp [and_assoc]

namespace Valid

variable {register : Register} (valid : register.Valid)

include valid

/-- A bit of the reset value belongs to a field. -/
theorem exists_covers {i : Nat} (on : register.resetValue.testBit i = true) :
    ∃ field ∈ register.fields, field.bits.Covers i ∧ field.isHardwareDriven = false ∧
      field.initial.testBit (i - field.bits.lsb) = true := by
  obtain ⟨field, declared, steady, low, on⟩ := (register.testBit_resetValue i).mp on
  refine ⟨field, declared, ⟨low, ?_⟩, steady, on⟩
  by_contra high
  have off := Bits.testBit_of_lt (i := i - field.bits.lsb) (valid.fields field declared).initial_lt
    (by unfold BitRange.above at high; omega)
  rw [off] at on
  cases on

theorem testBit_resetValue_of_uncovered {i : Nat}
    (uncovered : ∀ field ∈ register.fields, ¬ field.bits.Covers i) :
    register.resetValue.testBit i = false := by
  rw [← Bool.not_eq_true]
  intro on
  obtain ⟨field, declared, covers, -⟩ := valid.exists_covers on
  exact uncovered field declared covers

theorem resetValue_lt {width : Nat}
    (inside : ∀ field ∈ register.fields, field.bits.above ≤ width) :
    register.resetValue < 2 ^ width := by
  apply Nat.lt_pow_two_of_testBit
  intro i high
  apply valid.testBit_resetValue_of_uncovered
  intro field declared covers
  exact absurd (Nat.lt_of_lt_of_le covers.2 (inside field declared)) (Nat.not_lt.mpr high)

/-- No two fields cover one bit. -/
theorem eq_of_covers {field other : Field} (declared : field ∈ register.fields)
    (otherDeclared : other ∈ register.fields) {i : Nat} (covers : field.bits.Covers i)
    (otherCovers : other.bits.Covers i) : field = other := by
  have symmetric : Std.Symm fun field other : Field => field.bits.Apart other.bits :=
    ⟨fun _ _ apart => apart.symm⟩
  have apart : register.fields.Pairwise fun field other => field.bits.Apart other.bits :=
    valid.apart.imp fun apart => apart.2
  by_contra different
  exact (apart.forall declared otherDeclared different).not_covers covers otherCovers

/-- A field's bits of the reset value are the field's own reset value. -/
theorem extract_resetValue {field : Field} (declared : field ∈ register.fields) :
    Bits.extract register.resetValue field.bits.lsb field.bits.width = field.resetValue := by
  have fieldValid := valid.fields field declared
  have narrow : field.bits.width ≤ Bits.wordWidth := by
    have above := fieldValid.above_le
    unfold BitRange.above at above
    omega
  apply Nat.eq_of_testBit_eq
  intro i
  rw [Bits.testBit_extract, Nat.min_eq_left narrow]
  by_cases inside : i < field.bits.width
  · have covers : field.bits.Covers (field.bits.lsb + i) :=
      ⟨Nat.le_add_right _ _, Nat.add_lt_add_left inside _⟩
    rw [decide_eq_true inside, Bool.and_true, Bool.eq_iff_iff]
    constructor
    · intro on
      obtain ⟨other, otherDeclared, otherCovers, steady, on⟩ := valid.exists_covers on
      have same := valid.eq_of_covers declared otherDeclared covers otherCovers
      subst same
      rw [Nat.add_sub_cancel_left] at on
      unfold Field.resetValue
      rw [steady]
      exact on
    · intro on
      apply (register.testBit_resetValue _).mpr
      unfold Field.resetValue at on
      cases steady : field.isHardwareDriven with
      | true =>
        rw [steady, if_pos rfl, Nat.zero_testBit] at on
        cases on
      | false =>
        rw [steady, if_neg Bool.false_ne_true] at on
        refine ⟨field, declared, steady, Nat.le_add_right _ _, ?_⟩
        rw [Nat.add_sub_cancel_left]
        exact on
  · rw [decide_eq_false inside, Bool.and_false]
    exact (Bits.testBit_of_lt fieldValid.resetValue_lt (Nat.le_of_not_lt inside)).symm

end Valid

end Register

end RegisterBank
