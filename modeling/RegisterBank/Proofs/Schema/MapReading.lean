import RegisterBank.Proofs.Schema.MapRoundTrip

/-!
# What register map documents say

`DescribesMap` reads a document without an order of steps: which keys there are,
what each of them says, and what holds of those that are left out.  The reader
accepts a document exactly if it describes registers that make up a valid map,
and these are the registers it returns.

Reading interleaves two kinds of checks, those of the document and those of the
model.  Each function of the reader therefore gets one statement in two halves:
the tree describes the value, and the value is valid.
-/

namespace RegisterBank.Schema

open RegisterBank.Document

/-! ## Documents -/

/-- A tree stands for an integer that 64 bits hold: it is that number or a text
that writes it. -/
inductive StandsFor : Tree → Nat → Prop
  | number {value : Nat} : value < Text.integerLimit → StandsFor (.int value) value
  | written {text : String} {value : Nat} :
    Text.integer? text = some value → StandsFor (.text text) value

/-- A table may have a key: what is under it is as it should be, or without the
key something else holds. -/
def Permits (entries : List (String × Tree)) (key : String) (absent : Prop)
    (present : Tree → Prop) : Prop :=
  match lookup? key entries with
  | some found => present found
  | none => absent

/-- A table has a key, and what is under it is as it should be. -/
def Requires (entries : List (String × Tree)) (key : String) (present : Tree → Prop) : Prop :=
  Permits entries key False present

/-- The texts of a list name the modifiers of a set, in any order and as often
as they like. -/
def ListsModifiers (found : Tree) (modifiers : Modifiers) : Prop :=
  ∃ listed : List Modifier, found = .list (listed.map fun modifier => .text modifier.word) ∧
    ∀ modifier, modifiers.has modifier = true ↔ modifier ∈ listed

/-- The entries of a table describe a bit field. -/
structure DescribesField (entries : List (String × Tree)) (field : Field) : Prop where
  keys : ∀ entry ∈ entries, entry.1 ∈ fieldKeys
  name : Requires entries "name" (· = .text field.name)
  description : Permits entries "description" (field.description = "")
    (· = .text field.description)
  lsb : Requires entries "lsb" fun found =>
    StandsFor found field.bits.lsb ∧ field.bits.lsb < 2 ^ 32
  width : Requires entries "width" fun found =>
    StandsFor found field.bits.width ∧ field.bits.width < 2 ^ 32
  access : Requires entries "access" (· = .text field.access.word)
  initial : Permits entries "initial" (field.initial = 0) (StandsFor · field.initial)
  modifiers : Permits entries "modifiers" (field.modifiers = .none)
    (ListsModifiers · field.modifiers)

/-- A tree is a table that describes a value. -/
def Tabled {α : Type} (Describes : List (String × Tree) → α → Prop) (found : Tree)
    (value : α) : Prop :=
  ∃ entries, found = .table entries ∧ Describes entries value

/-- A tree lists tables that describe values, one for each, in their order. -/
def Lists {α : Type} (Describes : List (String × Tree) → α → Prop) (found : Tree)
    (values : List α) : Prop :=
  ∃ items, found = .list items ∧ List.Forall₂ (Tabled Describes) items values

/-- The entries of a table describe a register. -/
structure DescribesRegister (entries : List (String × Tree)) (register : Register) : Prop where
  keys : ∀ entry ∈ entries, entry.1 ∈ registerKeys
  name : Requires entries "name" (· = .text register.name)
  description : Permits entries "description" (register.description = "")
    (· = .text register.description)
  address : Permits entries "address" (register.address = none) fun found =>
    ∃ address, register.address = some address ∧ StandsFor found address
  fields : Permits entries "bitfields" (register.fields = [])
    (Lists DescribesField · register.fields)

/-- The entries of a table describe the registers of a map. -/
structure DescribesMap (entries : List (String × Tree)) (registers : List Register) : Prop where
  keys : ∀ entry ∈ entries, entry.1 ∈ [registersKey]
  registers : Permits entries registersKey (registers = [])
    (Lists DescribesRegister · registers)

/-! ## Expected content -/

section Expected

variable {place : Place} {found : Tree} {entries : List (String × Tree)}

theorem expectTable_eq_ok_iff : expectTable place found = .ok entries ↔ found = .table entries := by
  cases found <;> simp [expectTable, fault]

theorem expectList_eq_ok_iff {items : List Tree} :
    expectList place found = .ok items ↔ found = .list items := by
  cases found <;> simp [expectList, fault]

theorem expectText_eq_ok_iff {value : String} :
    expectText place found = .ok value ↔ found = .text value := by
  cases found <;> simp [expectText, fault]

/-- A number and its text stand for the same integer. -/
theorem StandsFor.unsigned?_eq {value : Nat} (stands : StandsFor found value) :
    unsigned? found = some value := by
  cases stands with
  | number _ => rfl
  | written read => exact read

theorem standsFor_iff {value : Nat} (small : value < Text.integerLimit) :
    StandsFor found value ↔ unsigned? found = some value := by
  constructor
  · exact StandsFor.unsigned?_eq
  · intro read
    cases found with
    | int number =>
      cases number with
      | ofNat natural =>
        obtain rfl : natural = value := Option.some.inj read
        exact .number small
      | negSucc _ => cases read
    | text text => exact .written read
    | _ => cases read

theorem expectUnsigned_eq_ok_iff {value : Nat} :
    expectUnsigned place found = .ok value ↔ unsigned? found = some value := by
  have refused {problem : SchemaProblem} :
      (fault place problem : Result Nat) = .ok value ↔ none = some value := by
    simp [fault]
  cases found with
  | int number => cases read : unsigned? (.int number) <;> simp [expectUnsigned, read, fault]
  | float number => cases read : unsigned? (.float number) <;> simp [expectUnsigned, read, fault]
  | text text => cases read : unsigned? (.text text) <;> simp [expectUnsigned, read, fault]
  | _ => exact refused

theorem expectSmall_eq_ok_iff {value : Nat} :
    expectSmall place found = .ok value ↔ StandsFor found value ∧ value < 2 ^ 32 := by
  have stands (small : value < 2 ^ 32) :
      StandsFor found value ↔ expectUnsigned place found = .ok value := by
    rw [expectUnsigned_eq_ok_iff]
    exact standsFor_iff (Nat.lt_of_lt_of_le small (by decide))
  unfold expectSmall
  constructor
  · intro done
    cases read : expectUnsigned place found with
    | error error => rw [read] at done; cases done
    | ok number =>
      rw [read] at done
      by_cases small : number < Nat.pow 2 32
      · obtain rfl : number = value := by simpa [small] using done
        exact ⟨(stands small).mpr read, small⟩
      · simp [small, fault] at done
  · rintro ⟨written, small⟩
    rw [(stands small).mp written]
    exact if_pos small

theorem Permits.imp {key : String} {absent : Prop} {present weaker : Tree → Prop}
    (implied : ∀ found, present found → weaker found)
    (given : Permits entries key absent present) : Permits entries key absent weaker := by
  unfold Permits at given ⊢
  cases found? : lookup? key entries with
  | none => rw [found?] at given; exact given
  | some found => rw [found?] at given; exact implied found given

/-- A table passes if it has no other keys than the allowed ones. -/
theorem checkKeys_eq_ok_iff {allowed : List String} {done : Unit} :
    checkKeys place allowed entries = .ok done ↔ ∀ entry ∈ entries, entry.1 ∈ allowed := by
  have none : (entries.find? fun entry => !allowed.contains entry.1) = none ↔
      ∀ entry ∈ entries, entry.1 ∈ allowed := by
    rw [List.find?_eq_none]
    simp
  rw [← none]
  unfold checkKeys
  cases entries.find? fun entry => !allowed.contains entry.1 <;> simp [fault]

/-- A key that is required must be there, and right. -/
theorem requires_iff {key : String} {present : Tree → Prop} :
    Requires entries key present ↔ ∃ found, lookup? key entries = some found ∧ present found := by
  unfold Requires Permits
  cases lookup? key entries <;> simp

theorem required_eq_ok_iff {key : String} :
    required place key entries = .ok found ↔ lookup? key entries = some found := by
  unfold required
  cases lookup? key entries <;> simp [fault]

theorem orConfigError_eq_ok_iff {α : Type} {problem : ConfigProblem} {read : Option α} {value : α} :
    orConfigError problem read = .ok value ↔ read = some value := by
  cases read <;> simp [orConfigError, configError]

/-- A description may be left out and is empty then. -/
theorem readDescription_eq_ok_iff {description : String} :
    readDescription place entries = .ok description ↔
      Permits entries "description" (description = "") (· = .text description) := by
  unfold readDescription Permits
  cases lookup? "description" entries with
  | none => simp [eq_comm]
  | some found => exact expectText_eq_ok_iff

end Expected

/-! ## Words -/

theorem access_ofWord?_eq_some_iff {word : String} {access : Access} :
    Access.ofWord? word = some access ↔ word = access.word := by
  constructor
  · intro found
    have named := List.find?_some found
    exact (beq_iff_eq.mp named).symm
  · rintro rfl
    exact ofWord?_access access

theorem modifier_ofWord?_eq_some_iff {word : String} {modifier : Modifier} :
    Modifier.ofWord? word = some modifier ↔ word = modifier.word := by
  constructor
  · intro found
    have named := List.find?_some found
    exact (beq_iff_eq.mp named).symm
  · rintro rfl
    exact ofWord?_modifier modifier

/-- Modifiers are a list of their words and nothing else. -/
theorem readModifiers_eq_ok_iff {base : Place} {index : Nat} {items : List Tree}
    {modifiers : List Modifier} :
    readModifiers base index items = .ok modifiers ↔
      items = modifiers.map fun modifier => .text modifier.word := by
  induction items generalizing index modifiers with
  | nil => cases modifiers <;> simp [readModifiers]
  | cons found rest ih =>
    simp only [readModifiers, bind_eq_ok_iff, expectText_eq_ok_iff, orConfigError_eq_ok_iff,
      modifier_ofWord?_eq_some_iff, ih]
    constructor
    · rintro ⟨word, rfl, modifier, rfl, others, rfl, done⟩
      cases done
      rfl
    · intro listed
      cases modifiers with
      | nil => cases listed
      | cons modifier others =>
        cases listed
        exact ⟨modifier.word, rfl, modifier, rfl, others, rfl, rfl⟩

/-! ## Fields -/

section Fields

variable {field : Field}

/-- Making a field accepts exactly the valid ones. -/
theorem make_eq_ok_iff_valid {name : String} {lsb width : Nat} {access : Access} :
    Field.make name lsb width access = .ok field ↔
      field = ⟨name, "", ⟨lsb, width⟩, access, 0, .none⟩ ∧ field.Valid := by
  constructor
  · intro made
    exact ⟨(Field.make_eq_ok_iff.mp made).2.2.2, .of_make made⟩
  · rintro ⟨rfl, valid⟩
    exact make_field valid

/-- A change of the initial value or the modifiers passes the check exactly if
it leaves a valid field valid. -/
theorem checked_eq_ok_iff_valid {next : Field} (valid : field.Valid) {changed : Field}
    (name : changed.name = field.name) (bits : changed.bits = field.bits) :
    changed.checked = .ok next ↔ next = changed ∧ next.Valid := by
  constructor
  · intro passed
    exact ⟨(Field.checked_eq_ok_iff.mp passed).1, valid.of_checked changed name bits passed⟩
  · rintro ⟨rfl, changedValid⟩
    exact Field.checked_eq_ok_iff.mpr ⟨rfl, changedValid.problem?_eq_none⟩

/-- An initial value is accepted exactly where the field stays valid. -/
theorem withInitial_eq_ok_iff {next : Field} (valid : field.Valid) {value : Nat} :
    field.withInitial value = .ok next ↔ next = { field with initial := value } ∧ next.Valid :=
  checked_eq_ok_iff_valid valid rfl rfl

/-- Modifiers are accepted exactly where the field stays valid. -/
theorem withModifiers_eq_ok_iff {next : Field} (valid : field.Valid) {listed : List Modifier} :
    field.withModifiers listed = .ok next ↔
      next = { field with modifiers := field.modifiers.insertAll listed } ∧ next.Valid :=
  checked_eq_ok_iff_valid valid rfl rfl

/-- Without its modifiers, a valid field is valid. -/
theorem valid_of_bare (valid : field.Valid) : { field with modifiers := .none }.Valid := by
  have bare (modifier : Modifier) : Modifiers.none.has modifier = true → False := by
    cases modifier <;> decide
  exact
    { valid with
      access := fun modifier has => (bare modifier has).elim
      exclusive := fun pair _ both => bare pair.1 both.1
      reverts := by intro reverts; cases reverts }

/-- Every valid field may start at zero. -/
theorem valid_of_zero (valid : field.Valid) : { field with initial := 0 }.Valid :=
  { valid with initial_lt := Nat.two_pow_pos _, reverts := fun _ => rfl }

variable {place : Place} {entries : List (String × Tree)}

/-- The step of the initial value, before whatever comes next. -/
theorem initial_step_eq_ok_iff {start : Field} (valid : start.Valid) (zero : start.initial = 0)
    (next : Field → Result Field) :
    (match lookup? "initial" entries with
      | some found => do
        let value ← expectUnsigned place found
        let field ← start.withInitial value
        next field
      | none => next start) = .ok field ↔
      ∃ value, Permits entries "initial" (value = 0) (StandsFor · value) ∧
        { start with initial := value }.Valid ∧ next { start with initial := value } = .ok field := by
  unfold Permits
  cases lookup? "initial" entries with
  | none =>
    have same : { start with initial := 0 } = start := by rw [← zero]
    constructor
    · intro done
      exact ⟨0, rfl, by rw [same]; exact valid, by rw [same]; exact done⟩
    · rintro ⟨value, rfl, -, done⟩
      rw [same] at done
      exact done
  | some found =>
    simp only [bind_eq_ok_iff, expectUnsigned_eq_ok_iff, withInitial_eq_ok_iff valid]
    have limited {value : Nat} (changed : { start with initial := value }.Valid) :
        value < Text.integerLimit :=
      Nat.lt_of_lt_of_le changed.initial_lt
        (Nat.pow_le_pow_right (by decide) valid.width_le)
    constructor
    · rintro ⟨value, read, changed, ⟨rfl, changedValid⟩, done⟩
      exact ⟨value, (standsFor_iff (limited changedValid)).mpr read, changedValid, done⟩
    · rintro ⟨value, stands, changedValid, done⟩
      exact ⟨value, stands.unsigned?_eq, _, ⟨rfl, changedValid⟩, done⟩

/-- The step of the modifiers, which is the last one. -/
theorem modifiers_step_eq_ok_iff {start : Field} (valid : start.Valid)
    (bare : start.modifiers = .none) :
    (match lookup? "modifiers" entries with
      | some found => do
        let items ← expectList place found
        let listed ← readModifiers place 0 items
        start.withModifiers listed
      | none => .ok start) = .ok field ↔
      Permits entries "modifiers" (field.modifiers = .none)
          (ListsModifiers · field.modifiers) ∧
        field = { start with modifiers := field.modifiers } ∧ field.Valid := by
  unfold Permits
  cases lookup? "modifiers" entries with
  | none =>
    constructor
    · intro done
      cases done
      exact ⟨bare, rfl, valid⟩
    · rintro ⟨none, same, -⟩
      rw [same, none, ← bare]
  | some found =>
    simp only [bind_eq_ok_iff, expectList_eq_ok_iff, readModifiers_eq_ok_iff,
      withModifiers_eq_ok_iff valid, bare]
    constructor
    · rintro ⟨items, rfl, listed, rfl, rfl, changedValid⟩
      exact ⟨⟨listed, rfl, Modifiers.none_insertAll_eq_iff.mp rfl⟩, rfl, changedValid⟩
    · rintro ⟨⟨listed, rfl, lists⟩, same, changedValid⟩
      refine ⟨_, rfl, listed, rfl, ?_, changedValid⟩
      rw [Modifiers.none_insertAll_eq_iff.mpr lists]
      exact same

/-- A tree is read as a field exactly if it describes the field and the field
is valid. -/
theorem readField_eq_ok_iff {base : Place} {index : Nat} {found : Tree} :
    readField base index found = .ok field ↔
      Tabled DescribesField found field ∧ field.Valid := by
  unfold readField
  simp only [bind_eq_ok_iff, expectTable_eq_ok_iff, checkKeys_eq_ok_iff, required_eq_ok_iff,
    expectText_eq_ok_iff, expectSmall_eq_ok_iff, orConfigError_eq_ok_iff,
    access_ofWord?_eq_some_iff, make_eq_ok_iff_valid, readDescription_eq_ok_iff]
  constructor
  · rintro ⟨entries, rfl, _, keys, _, nameGiven, name, rfl, _, lsbGiven, lsb, lsbRead, _,
      widthGiven, width, widthRead, _, accessGiven, _, rfl, access, rfl, made, ⟨rfl, madeValid⟩,
      description, described, done⟩
    have startValid : (Field.mk name description ⟨lsb, width⟩ access 0 .none).Valid :=
      { madeValid with }
    obtain ⟨value, initial, valueValid, done⟩ :=
      (initial_step_eq_ok_iff startValid rfl _).mp done
    obtain ⟨modifiers, same, valid⟩ := (modifiers_step_eq_ok_iff valueValid rfl).mp done
    rw [same]
    refine ⟨⟨entries, rfl, ?_⟩, ?_⟩
    · exact
        { keys := keys
          name := requires_iff.mpr ⟨_, nameGiven, rfl⟩
          description := described
          lsb := requires_iff.mpr ⟨_, lsbGiven, lsbRead⟩
          width := requires_iff.mpr ⟨_, widthGiven, widthRead⟩
          access := requires_iff.mpr ⟨_, accessGiven, rfl⟩
          initial := initial
          modifiers := modifiers }
    · rw [← same]
      exact valid
  · rintro ⟨⟨entries, rfl, describes⟩, valid⟩
    obtain ⟨_, nameGiven, rfl⟩ := requires_iff.mp describes.name
    obtain ⟨_, lsbGiven, lsbRead⟩ := requires_iff.mp describes.lsb
    obtain ⟨_, widthGiven, widthRead⟩ := requires_iff.mp describes.width
    obtain ⟨_, accessGiven, rfl⟩ := requires_iff.mp describes.access
    have bareValid := valid_of_bare valid
    have startValid := valid_of_zero bareValid
    have madeValid : (Field.mk field.name "" field.bits field.access 0 .none).Valid :=
      { startValid with }
    refine ⟨entries, rfl, (), describes.keys, _, nameGiven, field.name, rfl, _, lsbGiven,
      field.bits.lsb, lsbRead, _, widthGiven, field.bits.width, widthRead, _, accessGiven, _, rfl,
      field.access, rfl, _, ⟨rfl, madeValid⟩, field.description, describes.description, ?_⟩
    refine (initial_step_eq_ok_iff startValid rfl _).mpr
      ⟨field.initial, describes.initial, bareValid, ?_⟩
    exact (modifiers_step_eq_ok_iff bareValid rfl).mpr ⟨describes.modifiers, rfl, valid⟩

end Fields

/-! ## Registers -/

section Registers

variable {register next : Register} {entries : List (String × Tree)}

/-- By induction on the list: fields are read in order, each on top of those
before it. -/
theorem readFields_eq_ok_iff (valid : register.Valid) {base : Place} {index : Nat}
    {items : List Tree} :
    readFields base register index items = .ok next ↔
      ∃ added, List.Forall₂ (Tabled DescribesField) items added ∧
        next = { register with fields := register.fields ++ added } ∧ next.Valid := by
  induction items generalizing register index with
  | nil =>
    simp only [readFields, List.forall₂_nil_left_iff, exists_eq_left, List.append_nil]
    constructor
    · intro done
      cases done
      exact ⟨rfl, valid⟩
    · rintro ⟨rfl, -⟩
      rfl
  | cons found rest ih =>
    simp only [readFields, bind_eq_ok_iff, readField_eq_ok_iff]
    constructor
    · rintro ⟨field, ⟨describes, fieldValid⟩, grown, added, done⟩
      obtain ⟨others, described, rfl, nextValid⟩ := (ih (valid.addField fieldValid added)).mp done
      -- The list read grows the register by exactly these fields.
      obtain ⟨-, rfl⟩ := (Register.addField_eq_ok_iff valid.fields fieldValid).mp added
      refine ⟨field :: others, .cons describes described, ?_, nextValid⟩
      rw [List.append_assoc]
      rfl
    · rintro ⟨added, described, rfl, nextValid⟩
      cases described with
      | @cons _ field _ others describes described =>
        have fieldValid : field.Valid :=
          nextValid.fields field (List.mem_append_right _ List.mem_cons_self)
        have grown : register.addField field =
            .ok { register with fields := register.fields ++ [field] } :=
          nextValid.addField_prefix rfl
        refine ⟨field, ⟨describes, fieldValid⟩, _, grown, ?_⟩
        refine (ih (valid.addField fieldValid grown)).mpr ⟨others, described, ?_, nextValid⟩
        rw [List.append_assoc]
        rfl

/-- The step of the address, before whatever comes next. -/
theorem address_step_eq_ok_iff {start : Register} (bare : start.address = none) {place : Place}
    (step : Register → Result Register) :
    (match lookup? "address" entries with
      | some found => do
        let address ← expectUnsigned place found
        let register ← pure (start.withAddress address)
        step register
      | none => do
        let register ← pure start
        step register) = .ok next ↔
      ∃ address, Permits entries "address" (address = none)
          (fun found => ∃ value, address = some value ∧ unsigned? found = some value) ∧
        step { start with address := address } = .ok next := by
  unfold Permits
  cases lookup? "address" entries with
  | none =>
    have same : { start with address := none } = start := by rw [← bare]
    constructor
    · intro done
      exact ⟨none, rfl, by rw [same]; exact done⟩
    · rintro ⟨_, rfl, done⟩
      rw [same] at done
      exact done
  | some found =>
    simp only [bind_eq_ok_iff, expectUnsigned_eq_ok_iff]
    constructor
    · rintro ⟨value, read, register, made, done⟩
      cases made
      exact ⟨some value, ⟨value, rfl, read⟩, done⟩
    · rintro ⟨_, ⟨value, rfl, read⟩, done⟩
      exact ⟨value, read, _, rfl, done⟩

/-- The step of the fields, which is the last one. -/
theorem fields_step_eq_ok_iff (valid : register.Valid) (bare : register.fields = [])
    {place : Place} :
    (match lookup? "bitfields" entries with
      | some found => do
        let items ← expectList place found
        readFields place register 0 items
      | none => .ok register) = .ok next ↔
      Permits entries "bitfields" (next.fields = []) (Lists DescribesField · next.fields) ∧
        next = { register with fields := next.fields } ∧ next.Valid := by
  unfold Permits
  cases lookup? "bitfields" entries with
  | none =>
    constructor
    · intro done
      cases done
      exact ⟨bare, rfl, valid⟩
    · rintro ⟨none, same, -⟩
      rw [same, none, ← bare]
  | some found =>
    simp only [bind_eq_ok_iff, expectList_eq_ok_iff, readFields_eq_ok_iff valid, bare,
      List.nil_append]
    constructor
    · rintro ⟨items, rfl, added, described, rfl, nextValid⟩
      exact ⟨⟨items, rfl, described⟩, rfl, nextValid⟩
    · rintro ⟨⟨items, rfl, described⟩, same, nextValid⟩
      exact ⟨items, rfl, next.fields, described, same, nextValid⟩

variable {index : Nat} {found : Tree}

/-- What is read as a register is valid, and the tree describes it unless its
address is too large for any map. -/
theorem describes_of_readRegister (read : readRegister index found = .ok register) :
    register.Valid ∧
      ((∀ address, register.address = some address → address < Text.integerLimit) →
        Tabled DescribesRegister found register) := by
  unfold readRegister at read
  simp only [bind_eq_ok_iff, expectTable_eq_ok_iff, checkKeys_eq_ok_iff, required_eq_ok_iff,
    expectText_eq_ok_iff, Register.make_eq_ok_iff, readDescription_eq_ok_iff] at read
  obtain ⟨entries, rfl, _, keys, _, nameGiven, name, rfl, _, ⟨identifier, rfl⟩, description,
    described, done⟩ := read
  have bare : (Register.mk name description none []).address = none := rfl
  obtain ⟨address, addressed, done⟩ := (address_step_eq_ok_iff bare _).mp done
  have startValid : (Register.mk name description address []).Valid :=
    { name := identifier, fields := by simp, apart := List.Pairwise.nil }
  obtain ⟨fields, same, valid⟩ := (fields_step_eq_ok_iff startValid rfl).mp done
  refine ⟨valid, fun small => ⟨entries, rfl, ?_⟩⟩
  rw [same] at small ⊢
  refine
    { keys := keys
      name := requires_iff.mpr ⟨_, nameGiven, rfl⟩
      description := described
      address := ?_
      fields := fields }
  refine Permits.imp ?_ addressed
  rintro found ⟨value, given, stands⟩
  exact ⟨value, given, (standsFor_iff (small value given)).mpr stands⟩

/-- A table that describes a valid register is accepted. -/
theorem readRegister_of_describes (describes : Tabled DescribesRegister found register)
    (valid : register.Valid) : readRegister index found = .ok register := by
  unfold readRegister
  simp only [bind_eq_ok_iff, expectTable_eq_ok_iff, checkKeys_eq_ok_iff, required_eq_ok_iff,
    expectText_eq_ok_iff, Register.make_eq_ok_iff, readDescription_eq_ok_iff]
  obtain ⟨entries, rfl, describes⟩ := describes
  obtain ⟨_, nameGiven, rfl⟩ := requires_iff.mp describes.name
  have bare : (Register.mk register.name register.description none []).address = none := rfl
  have startValid : { register with fields := [] }.Valid :=
    { name := valid.name, fields := by simp, apart := List.Pairwise.nil }
  refine ⟨entries, rfl, (), describes.keys, _, nameGiven, register.name, rfl, _,
    ⟨valid.name, rfl⟩, register.description, describes.description, ?_⟩
  refine (address_step_eq_ok_iff bare _).mpr ⟨register.address, ?_,
    (fields_step_eq_ok_iff startValid rfl).mpr ⟨describes.fields, rfl, valid⟩⟩
  refine Permits.imp ?_ describes.address
  rintro found ⟨value, given, stands⟩
  exact ⟨value, given, stands.unsigned?_eq⟩

end Registers

/-! ## Maps -/

section Maps

variable {map next : RegisterMap}

/-- Addresses that a map allows can be read as integers. -/
theorem address_lt_integerLimit {register : Register} {config : Configuration}
    (narrow : config.addressWidth ≤ 32) (allowed : register.Allowed config) :
    ∀ address, register.address = some address → address < Text.integerLimit := by
  intro address given
  exact Nat.lt_of_lt_of_le (allowed.address_lt address given)
    (Nat.pow_le_pow_right (by decide) (by omega))

/-- By induction on the list: registers are read in order, each on top of those
before it. -/
theorem readRegisters_eq_ok_iff (valid : map.Valid) {index : Nat} {items : List Tree} :
    readRegisters map index items = (next, .ok ()) ↔
      ∃ added, List.Forall₂ (Tabled DescribesRegister) items added ∧
        next = { map with registers := map.registers ++ added } ∧ next.Valid := by
  induction items generalizing map index with
  | nil =>
    simp only [readRegisters, List.forall₂_nil_left_iff, exists_eq_left, List.append_nil]
    constructor
    · intro done
      cases done
      exact ⟨rfl, valid⟩
    · rintro ⟨rfl, -⟩
      rfl
  | cons found rest ih =>
    have step : readRegisters map index (found :: rest) = (next, .ok ()) ↔
        ∃ grown, (readRegister index found >>= map.addRegister) = .ok grown ∧
          readRegisters grown (index + 1) rest = (next, .ok ()) := by
      rw [readRegisters]
      cases readRegister index found >>= map.addRegister <;> simp
    rw [step]
    constructor
    · rintro ⟨grown, added, done⟩
      obtain ⟨register, read, added⟩ := exists_of_bind_eq_ok added
      obtain ⟨registerValid, describes⟩ := describes_of_readRegister read
      obtain ⟨others, described, rfl, nextValid⟩ :=
        (ih (valid.addRegister registerValid added)).mp done
      obtain ⟨⟨allowed, -⟩, rfl⟩ :=
        (RegisterMap.addRegister_eq_ok_iff valid.config registerValid).mp added
      have small := address_lt_integerLimit valid.config.addressWidth.2 allowed
      refine ⟨register :: others, .cons (describes small) described, ?_, nextValid⟩
      rw [List.append_assoc]
      rfl
    · rintro ⟨added, described, rfl, nextValid⟩
      cases described with
      | @cons _ register _ others describes described =>
        have registerValid : register.Valid :=
          nextValid.registers register (List.mem_append_right _ List.mem_cons_self)
        have grown : map.addRegister register =
            .ok { map with registers := map.registers ++ [register] } :=
          nextValid.addRegister_prefix rfl
        have read : readRegister index found = .ok register :=
          readRegister_of_describes describes registerValid
        refine ⟨_, bind_eq_ok_iff.mpr ⟨register, read, grown⟩, ?_⟩
        refine (ih (valid.addRegister registerValid grown)).mpr
          ⟨others, described, ?_, nextValid⟩
        rw [List.append_assoc]
        rfl

/-- A tree is read to its end exactly if it describes the registers of a valid
map, and the map is the one that is read. -/
theorem readMapTree_eq_iff {config : Configuration} (valid : config.Valid) {document : String}
    {tree : Tree} :
    readMapTree document config tree = (map, .ok ()) ↔
      map.config = config ∧ Tabled DescribesMap tree map.registers ∧ map.Valid := by
  have empty : (RegisterMap.empty config).Valid :=
    { config := valid
      registers := by intro register listed; cases listed
      allowed := by intro register listed; cases listed
      apart := List.Pairwise.nil }
  constructor
  · intro read
    unfold readMapTree at read
    dsimp only at read
    split at read
    · rename_i items parsed
      simp only [bind_eq_ok_iff, expectTable_eq_ok_iff, checkKeys_eq_ok_iff] at parsed
      obtain ⟨entries, rfl, _, keys, listed⟩ := parsed
      obtain ⟨registers, described, rfl, mapValid⟩ := (readRegisters_eq_ok_iff empty).mp read
      refine ⟨rfl, ⟨entries, rfl, { keys := keys, registers := ?_ }⟩, mapValid⟩
      unfold Permits
      cases given : lookup? registersKey entries with
      | none =>
        rw [given] at listed
        cases listed
        cases described
        rfl
      | some found =>
        rw [given] at listed
        exact ⟨items, expectList_eq_ok_iff.mp listed, described⟩
    · cases read
  · rintro ⟨rfl, ⟨entries, rfl, describes⟩, mapValid⟩
    have root : expectTable (.named document) (.table entries) = .ok entries :=
      expectTable_eq_ok_iff.mpr rfl
    have keys : checkKeys (.named document) [registersKey] entries = .ok () :=
      checkKeys_eq_ok_iff.mpr describes.keys
    have registers := describes.registers
    unfold Permits at registers
    unfold readMapTree
    cases given : lookup? registersKey entries with
    | none =>
      rw [given] at registers
      have read : readRegisters (RegisterMap.empty map.config) 0 [] = (map, .ok ()) := by
        refine (readRegisters_eq_ok_iff empty).mpr ⟨[], .nil, ?_, mapValid⟩
        rw [← registers]
        rfl
      simpa [root, keys, given, ok_bind] using read
    | some found =>
      rw [given] at registers
      obtain ⟨items, rfl, described⟩ := registers
      have read : readRegisters (RegisterMap.empty map.config) 0 items = (map, .ok ()) :=
        (readRegisters_eq_ok_iff empty).mpr ⟨map.registers, described, rfl, mapValid⟩
      have list : expectList (.named registersKey) (.list items) = .ok items :=
        expectList_eq_ok_iff.mpr rfl
      simpa [root, keys, given, list, ok_bind] using read

/-- Reading accepts the trees that describe a valid map and the texts of such
trees, and returns what they describe. -/
theorem readMap_accepts_iff {config : Configuration} (reachable : config.Reachable)
    (document : String) :
    (∀ tree map, readMapTree document config tree = (map, .ok ()) ↔
      map.config = config ∧ Tabled DescribesMap tree map.registers ∧ map.Valid) ∧
    ∀ codec format text map, readMap codec format text document config = .ok map ↔
      ∃ tree, Codec.read codec format text = .ok tree ∧
        map.config = config ∧ Tabled DescribesMap tree map.registers ∧ map.Valid := by
  refine ⟨fun tree map => readMapTree_eq_iff reachable.valid, ?_⟩
  intro codec format text map
  have parsed {tree : Tree} :
      readTree codec format text document = .ok tree ↔ codec.read format text = .ok tree := by
    unfold readTree
    cases codec.read format text <;> simp
  have read {tree : Tree} :
      (∃ done, (readMapTree document config tree).2 = .ok done ∧
        (pure (readMapTree document config tree).1 : Result RegisterMap) = .ok map) ↔
        readMapTree document config tree = (map, .ok ()) := by
    obtain ⟨found, result⟩ := readMapTree document config tree
    cases result <;> simp [pure, Except.pure]
  unfold readMap
  simp only [bind_eq_ok_iff, parsed]
  refine exists_congr fun tree => and_congr_right fun _ => ?_
  exact read.trans (readMapTree_eq_iff reachable.valid)

/-- A document with one field, whose numbers are texts and whose only modifier
is listed twice. -/
def twiceListed : Tree :=
  .table [(registersKey, .list [.table [("name", .text "command"),
    ("bitfields", .list [.table [("name", .text "start"), ("lsb", .text "0x1_0"),
      ("width", .text "0b1"), ("access", .text "wo"),
      ("modifiers", .list [.text "self_clear", .text "self_clear"])]])]])]

theorem readMap_accepts_iff_twiceListed : Configuration.default.Reachable ∧
    ∃ map, readMapTree "map.json" .default twiceListed = (map, .ok ()) ∧
      Tabled DescribesMap twiceListed map.registers ∧
      map.registers = [⟨"command", "", none,
        [⟨"start", "", ⟨16, 1⟩, .writeOnly, 0, ⟨true, false, false, false⟩⟩]⟩] := by
  obtain ⟨map, read, registers⟩ :
      ∃ map, readMapTree "map.json" .default twiceListed = (map, .ok ()) ∧
        map.registers = [⟨"command", "", none,
          [⟨"start", "", ⟨16, 1⟩, .writeOnly, 0, ⟨true, false, false, false⟩⟩]⟩] :=
    ⟨_, rfl, rfl⟩
  have described := ((readMap_accepts_iff .default "map.json").1 twiceListed map).mp read
  exact ⟨.default, map, read, described.2.1, registers⟩

end Maps

end RegisterBank.Schema
