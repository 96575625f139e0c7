import RegisterBank.Proofs.Bits
import RegisterBank.Register

/-!
# Fields and registers that the constructors build

`Field.Built` and `Register.Built` are the values that some sequence of calls
leads to, successful or not; `Field.Valid` and `Register.Valid` are what all of
them have in common.  The rules of the model are opened once each:
`Field.problem?_eq_none_iff` for a field on its own and
`Register.clash?_eq_none_iff` for two fields of one register.  In both
directions: from left to right they keep the invariant, from right to left they
show that a call with valid arguments is not refused.
-/

namespace RegisterBank

/-! ## Ranges that share no bit -/

/-- One range ends where the other starts, or before. -/
def BitRange.Apart (range other : BitRange) : Prop :=
  range.above ≤ other.lsb ∨ other.above ≤ range.lsb

theorem BitRange.Apart.symm {range other : BitRange} (apart : range.Apart other) :
    other.Apart range :=
  Or.symm apart

/-- A bit is one of the range's. -/
def BitRange.Covers (range : BitRange) (i : Nat) : Prop := range.lsb ≤ i ∧ i < range.above

theorem BitRange.Apart.not_covers {range other : BitRange} (apart : range.Apart other) {i : Nat}
    (covers : range.Covers i) : ¬ other.Covers i := by
  unfold Apart at apart
  unfold Covers at covers ⊢
  omega

/-- The mask of a range has just the bits of the range. -/
theorem BitRange.testBit_mask {range : BitRange} (narrow : range.width ≤ Bits.wordWidth)
    (i : Nat) : range.mask.testBit i = decide (range.lsb ≤ i ∧ i < range.above) := by
  rw [mask, Nat.testBit_shiftLeft, Bits.testBit_ones, Nat.min_eq_left narrow, above]
  by_cases low : range.lsb ≤ i
  · have shifted : i - range.lsb < range.width ↔ i < range.lsb + range.width := by omega
    simp [low, shifted]
  · simp [low]

/-- Masks meet exactly where ranges do.  The greater of the two starts is the
bit that both cover unless they are apart. -/
theorem BitRange.overlaps_eq_false_iff {range other : BitRange}
    (narrow : range.width ≤ Bits.wordWidth) (otherNarrow : other.width ≤ Bits.wordWidth)
    (positive : 0 < range.width) (otherPositive : 0 < other.width) :
    range.overlaps other = false ↔ range.Apart other := by
  unfold overlaps Apart
  rw [bne_eq_false_iff_eq]
  constructor
  · intro none
    have off : (range.mask &&& other.mask).testBit (max range.lsb other.lsb) = false := by
      rw [none, Nat.zero_testBit]
    rw [Nat.testBit_and, testBit_mask narrow, testBit_mask otherNarrow, Bool.and_eq_false_iff,
      decide_eq_false_iff_not, decide_eq_false_iff_not] at off
    unfold above at off ⊢
    omega
  · intro apart
    apply Nat.eq_of_testBit_eq
    intro i
    rw [Nat.testBit_and, testBit_mask narrow, testBit_mask otherNarrow, Nat.zero_testBit,
      Bool.and_eq_false_iff]
    simp only [decide_eq_false_iff_not]
    omega

/-! ## Sets of modifiers -/

namespace Modifiers

theorem mem_toList_iff {set : Modifiers} {modifier : Modifier} :
    modifier ∈ set.toList ↔ set.has modifier = true := by
  unfold toList
  rw [List.mem_filter]
  constructor
  · exact fun listed => listed.2
  · intro has
    refine ⟨?_, has⟩
    cases modifier <;> decide

/-- A set has what it had and what was added. -/
theorem has_insert (set : Modifiers) (added modifier : Modifier) :
    (set.insert added).has modifier = true ↔ modifier = added ∨ set.has modifier = true := by
  cases added <;> cases modifier <;> simp [insert, has]

theorem has_insertAll {set : Modifiers} {listed : List Modifier} {modifier : Modifier} :
    (set.insertAll listed).has modifier = true ↔ modifier ∈ listed ∨ set.has modifier = true := by
  unfold insertAll
  induction listed generalizing set with
  | nil => simp
  | cons added rest ih =>
    rw [List.foldl_cons, ih, has_insert, List.mem_cons]
    tauto

/-- Sets with the same elements are equal. -/
theorem ext_has {set other : Modifiers}
    (same : ∀ modifier, set.has modifier = true ↔ other.has modifier = true) : set = other := by
  have flag (modifier : Modifier) : set.has modifier = other.has modifier :=
    Bool.eq_iff_iff.mpr (same modifier)
  obtain ⟨selfClear, writePulse, readClear, writeOnce⟩ := set
  obtain ⟨selfClear', writePulse', readClear', writeOnce'⟩ := other
  exact (Modifiers.mk.injEq ..).mpr
    ⟨flag .selfClear, flag .writePulse, flag .readClear, flag .writeOnce⟩

theorem has_none_insertAll {listed : List Modifier} {modifier : Modifier} :
    (none.insertAll listed).has modifier = true ↔ modifier ∈ listed := by
  have empty : none.has modifier = false := by cases modifier <;> rfl
  rw [has_insertAll, empty]
  simp

/-- Putting listed modifiers into the empty set makes the set they list. -/
theorem none_insertAll_eq_iff {set : Modifiers} {listed : List Modifier} :
    none.insertAll listed = set ↔ ∀ modifier, set.has modifier = true ↔ modifier ∈ listed := by
  constructor
  · rintro rfl modifier
    exact has_none_insertAll
  · exact fun lists => ext_has fun modifier => has_none_insertAll.trans (lists modifier).symm

end Modifiers

/-! ## Fields -/

namespace Field

/-- The fields that some sequence of calls leads to. -/
inductive Built : Field → Prop
  | make {name : String} {lsb width : Nat} {access : Access} {field : Field} :
    Field.make name lsb width access = .ok field → Built field
  | withDescription {field : Field} (description : String) :
    Built field → Built (field.withDescription description)
  | withInitial {field next : Field} {initial : Nat} :
    Built field → field.withInitial initial = .ok next → Built next
  | withModifier {field next : Field} {modifier : Modifier} :
    Built field → field.withModifier modifier = .ok next → Built next
  | withModifiers {field next : Field} {modifiers : List Modifier} :
    Built field → field.withModifiers modifiers = .ok next → Built next

/-- Whether the access mode gives a modifier what it acts on. -/
def Allows (access : Access) (modifier : Modifier) : Prop :=
  if modifier.needsWrite then access.isWritable = true else access.isReadable = true

/-- What every built field satisfies. -/
structure Valid (field : Field) : Prop where
  name : Text.isIdentifier field.name = true
  width_pos : 0 < field.bits.width
  above_le : field.bits.above ≤ Bits.wordWidth
  initial_lt : field.initial < 2 ^ field.bits.width
  access : ∀ modifier, field.has modifier = true → Allows field.access modifier
  exclusive : ∀ pair ∈ Modifier.exclusivePairs,
    ¬ (field.has pair.1 = true ∧ field.has pair.2 = true)
  reverts : field.reverts = true → field.initial = 0

/-- A modifier is refused for an access that does not write or read as it
needs. -/
theorem accessProblem?_eq_none_iff {field : Field} {modifier : Modifier} :
    field.accessProblem? modifier = none ↔ Allows field.access modifier := by
  unfold accessProblem? Allows
  cases modifier.needsWrite <;> cases field.access.isWritable <;>
    cases field.access.isReadable <;> simp

/-- Two modifiers exclude each other only where a field has both. -/
theorem pairProblem?_eq_none_iff {field : Field} {pair : Modifier × Modifier} :
    field.pairProblem? pair = none ↔ ¬ (field.has pair.1 = true ∧ field.has pair.2 = true) := by
  unfold pairProblem?
  rw [← Bool.and_eq_true]
  cases field.has pair.1 && field.has pair.2 <;> simp

/-- A field breaks no rule exactly if its initial value fits, the access mode
allows its modifiers, no two of them exclude each other, and a value that goes
back to zero starts there. -/
theorem problem?_eq_none_iff {field : Field} (narrow : field.bits.width ≤ Bits.wordWidth) :
    field.problem? = none ↔
      field.initial < 2 ^ field.bits.width ∧
      (∀ modifier, field.has modifier = true → Allows field.access modifier) ∧
      (∀ pair ∈ Modifier.exclusivePairs,
        ¬ (field.has pair.1 = true ∧ field.has pair.2 = true)) ∧
      (field.reverts = true → field.initial = 0) := by
  have access : field.modifiers.toList.findSome? field.accessProblem? = none ↔
      ∀ modifier, field.has modifier = true → Allows field.access modifier := by
    rw [List.findSome?_eq_none_iff]
    simp only [Modifiers.mem_toList_iff, accessProblem?_eq_none_iff]
    rfl
  have pairs : Modifier.exclusivePairs.findSome? field.pairProblem? = none ↔
      ∀ pair ∈ Modifier.exclusivePairs,
        ¬ (field.has pair.1 = true ∧ field.has pair.2 = true) := by
    rw [List.findSome?_eq_none_iff]
    simp only [pairProblem?_eq_none_iff]
  unfold problem?
  rw [← Bits.fits_iff narrow, ← access, ← pairs]
  cases Bits.fits field.initial field.bits.width
  · simp
  · cases field.modifiers.toList.findSome? field.accessProblem? with
    | some problem => simp
    | none =>
      cases Modifier.exclusivePairs.findSome? field.pairProblem? with
      | some problem => simp
      | none => cases field.reverts <;> simp

/-- Checking a field passes it on as it is. -/
theorem checked_eq_ok_iff {field next : Field} :
    field.checked = .ok next ↔ next = field ∧ field.problem? = none := by
  unfold checked
  cases field.problem? with
  | some problem => simp [conflict]
  | none => simp [eq_comm]

/-- A field is made of an identifier and bits inside 64, and starts without
modifiers at zero. -/
theorem make_eq_ok_iff {name : String} {lsb width : Nat} {access : Access} {field : Field} :
    Field.make name lsb width access = .ok field ↔
      Text.isIdentifier name = true ∧ 0 < width ∧ lsb + width ≤ Bits.wordWidth ∧
        field = ⟨name, "", ⟨lsb, width⟩, access, 0, .none⟩ := by
  unfold make
  cases Text.isIdentifier name with
  | false => simp [conflict]
  | true =>
    by_cases zero : width = 0
    · simp [zero, conflict]
    · by_cases wide : lsb + width > Bits.wordWidth
      · simp [zero, wide, conflict]
      · have positive : 0 < width := Nat.pos_of_ne_zero zero
        have inside : lsb + width ≤ Bits.wordWidth := Nat.le_of_not_lt wide
        simp [zero, wide, positive, inside, eq_comm]

theorem Valid.width_le {field : Field} (valid : field.Valid) :
    field.bits.width ≤ Bits.wordWidth := by
  have above := valid.above_le
  unfold BitRange.above at above
  omega

theorem Valid.problem?_eq_none {field : Field} (valid : field.Valid) : field.problem? = none :=
  (problem?_eq_none_iff valid.width_le).mpr
    ⟨valid.initial_lt, valid.access, valid.exclusive, valid.reverts⟩

/-- A checked change of the initial value or the modifiers keeps a field
valid. -/
theorem Valid.of_checked {field next : Field} (valid : field.Valid) (changed : Field)
    (name : changed.name = field.name) (bits : changed.bits = field.bits)
    (passed : changed.checked = .ok next) : next.Valid := by
  obtain ⟨rfl, rules⟩ := checked_eq_ok_iff.mp passed
  have narrow : next.bits.width ≤ Bits.wordWidth := by rw [bits]; exact valid.width_le
  obtain ⟨initial, access, exclusive, reverts⟩ := (problem?_eq_none_iff narrow).mp rules
  exact
    { name := by rw [name]; exact valid.name
      width_pos := by rw [bits]; exact valid.width_pos
      above_le := by rw [bits]; exact valid.above_le
      initial_lt := initial
      access := access
      exclusive := exclusive
      reverts := reverts }

/-- A field that was made is valid, since zero fits every width. -/
theorem Valid.of_make {name : String} {lsb width : Nat} {access : Access} {field : Field}
    (made : Field.make name lsb width access = .ok field) : field.Valid := by
  obtain ⟨identifier, positive, above, rfl⟩ := make_eq_ok_iff.mp made
  have bare (modifier : Modifier) :
      (⟨name, "", ⟨lsb, width⟩, access, 0, .none⟩ : Field).has modifier = false := by
    cases modifier <;> rfl
  exact
    { name := identifier
      width_pos := positive
      above_le := above
      initial_lt := Nat.two_pow_pos width
      access := by intro modifier has; rw [bare] at has; cases has
      exclusive := by intro pair _ both; rw [bare] at both; cases both.1
      reverts := fun _ => rfl }

/-- However a field was made and changed, it is valid. -/
theorem Built.valid {field : Field} (built : field.Built) : field.Valid := by
  induction built with
  | make made => exact Valid.of_make made
  | withDescription description _ valid => exact { valid with }
  | @withInitial field next initial _ done valid =>
    exact valid.of_checked { field with initial := initial } rfl rfl done
  | @withModifier field next modifier _ done valid =>
    exact valid.of_checked { field with modifiers := field.modifiers.insert modifier } rfl rfl done
  | @withModifiers field next modifiers _ done valid =>
    exact valid.of_checked { field with modifiers := field.modifiers.insertAll modifiers }
      rfl rfl done

/-- Two fields that may stand in one register. -/
def Apart (field other : Field) : Prop :=
  field.name ≠ other.name ∧ field.bits.Apart other.bits

/-- Masks tell whether fields share a bit. -/
theorem overlaps_eq_false_iff {field other : Field} (valid : field.Valid)
    (otherValid : other.Valid) : field.overlaps other = false ↔ field.bits.Apart other.bits :=
  BitRange.overlaps_eq_false_iff valid.width_le otherValid.width_le valid.width_pos
    otherValid.width_pos

end Field

/-! ## Registers -/

namespace Register

/-- The registers that some sequence of calls leads to.  Adding a list of
fields leaves those before the first that is refused. -/
inductive Built : Register → Prop
  | make {name : String} {register : Register} :
    Register.make name = .ok register → Built register
  | withDescription {register : Register} (description : String) :
    Built register → Built (register.withDescription description)
  | withAddress {register : Register} (address : Nat) :
    Built register → Built (register.withAddress address)
  | addField {register next : Register} {added : Field} :
    Built register → added.Built → register.addField added = .ok next → Built next
  | addFields {register : Register} {added : List Field} :
    Built register → (∀ field ∈ added, field.Built) → Built (register.addFields added).1

/-- What every built register satisfies. -/
structure Valid (register : Register) : Prop where
  name : Text.isIdentifier register.name = true
  fields : ∀ field ∈ register.fields, field.Valid
  apart : register.fields.Pairwise Field.Apart

/-- Fields clash by their names or by their bits. -/
theorem clash?_eq_none_iff {register : Register} {added existing : Field}
    (valid : existing.Valid) (addedValid : added.Valid) :
    register.clash? added existing = none ↔ existing.Apart added := by
  unfold clash? Field.Apart
  rw [← Field.overlaps_eq_false_iff valid addedValid]
  by_cases same : existing.name = added.name
  · simp [same]
  · cases existing.overlaps added <;> simp [same]

/-- A valid field is added exactly if it keeps apart from those already there. -/
theorem addField_eq_ok_iff {register next : Register} {added : Field}
    (valid : ∀ field ∈ register.fields, field.Valid) (addedValid : added.Valid) :
    register.addField added = .ok next ↔
      (∀ existing ∈ register.fields, existing.Apart added) ∧
        next = { register with fields := register.fields ++ [added] } := by
  have accepted : register.fields.findSome? (register.clash? added) = none ↔
      ∀ existing ∈ register.fields, existing.Apart added := by
    rw [List.findSome?_eq_none_iff]
    constructor
    · intro none existing listed
      exact (clash?_eq_none_iff (valid existing listed) addedValid).mp (none existing listed)
    · intro apart existing listed
      exact (clash?_eq_none_iff (valid existing listed) addedValid).mpr (apart existing listed)
  unfold addField
  rw [← accepted]
  cases register.fields.findSome? (register.clash? added) with
  | some problem => simp [conflict]
  | none => simp [eq_comm]

/-- A register is made of an identifier and starts empty. -/
theorem make_eq_ok_iff {name : String} {register : Register} :
    Register.make name = .ok register ↔
      Text.isIdentifier name = true ∧ register = ⟨name, "", none, []⟩ := by
  unfold make
  cases Text.isIdentifier name <;> simp [conflict, eq_comm]

/-- Adding a field keeps a register valid. -/
theorem Valid.addField {register next : Register} {added : Field} (valid : register.Valid)
    (addedValid : added.Valid) (done : register.addField added = .ok next) : next.Valid := by
  obtain ⟨apart, rfl⟩ := (addField_eq_ok_iff valid.fields addedValid).mp done
  refine { name := valid.name, fields := ?_, apart := ?_ }
  · intro field listed
    rcases List.mem_append.mp listed with listed | listed
    · exact valid.fields field listed
    · rw [List.mem_singleton] at listed
      rw [listed]
      exact addedValid
  · rw [List.pairwise_append]
    refine ⟨valid.apart, List.pairwise_singleton _ _, ?_⟩
    intro existing listed field single
    rw [List.mem_singleton] at single
    rw [single]
    exact apart existing listed

/-- So do fields that are added until one is refused. -/
theorem Valid.addFields {register : Register} {added : List Field} (valid : register.Valid)
    (addedValid : ∀ field ∈ added, field.Valid) : (register.addFields added).1.Valid := by
  induction added generalizing register with
  | nil => exact valid
  | cons field rest ih =>
    unfold Register.addFields
    cases done : register.addField field with
    | error error => exact valid
    | ok next =>
      exact ih (valid.addField (addedValid field List.mem_cons_self) done)
        fun other listed => addedValid other (List.mem_cons_of_mem _ listed)

/-- The fields of a valid register can be added once more: whatever stands
before a field is no reason to refuse it. -/
theorem Valid.addField_prefix {register : Register} (valid : register.Valid)
    {before rest : List Field} {field : Field}
    (split : register.fields = before ++ field :: rest) :
    Register.addField { register with fields := before } field =
      .ok { register with fields := before ++ [field] } := by
  have listed : field ∈ register.fields := by rw [split]; simp
  have earlierValid : ∀ existing ∈ before, existing.Valid := by
    intro existing earlier
    exact valid.fields existing (by rw [split]; exact List.mem_append_left _ earlier)
  refine (addField_eq_ok_iff earlierValid (valid.fields field listed)).mpr ⟨?_, rfl⟩
  intro existing earlier
  have apart := valid.apart
  rw [split, List.pairwise_append] at apart
  exact apart.2.2 existing earlier field List.mem_cons_self

/-- However a register was made and filled, it is valid. -/
theorem Built.valid {register : Register} (built : register.Built) : register.Valid := by
  induction built with
  | make made =>
    obtain ⟨identifier, rfl⟩ := make_eq_ok_iff.mp made
    exact { name := identifier, fields := by simp, apart := List.Pairwise.nil }
  | withDescription description _ valid => exact { valid with }
  | withAddress address _ valid => exact { valid with }
  | addField _ added done valid => exact valid.addField added.valid done
  | addFields _ added valid => exact valid.addFields fun field listed => (added field listed).valid

end Register

end RegisterBank
