import RegisterBank.Proofs.Construction.OptionTable

/-!
# Configurations that answer alike

Generators see of a configuration what its derived values are.  `SameAnswers`
says that two configurations cannot be told apart in this way.  Equality is finer
than that: it compares what is stored, and of the stored values the address
increment alone is not read as it stands.  A configuration whose increment
follows the data width answers like one that has the same number of bytes
spelled out (`SpellsOut`), and that is the only way in which two configurations
that answer alike differ.

The same holds of options that stand in one table.  Its entries are in the order
of their keys, so two tables are equal exactly if they have the same values, and
hence exactly if the configurations that they mirror are equal.
-/

namespace RegisterBank

open RegisterBank.Document

namespace Configuration

/-! ## What generators see -/

/-- Two configurations have the same derived values. -/
structure SameAnswers (config other : Configuration) : Prop where
  name : config.name = other.name
  dataWidth : config.dataWidth = other.dataWidth
  addressWidth : config.addressWidth = other.addressWidth
  addressIncrement : config.addressIncrement = other.addressIncrement
  registerReset : config.registerReset = other.registerReset
  rawReadFiller : config.rawReadFiller = other.rawReadFiller
  namingPrefix : config.namingPrefix = other.namingPrefix
  namingCase : config.namingCase = other.namingCase
  bridgeWord : config.bridgeWord = other.bridgeWord

/-- The increment follows the data width. -/
def Follows (config : Configuration) : Prop := config.increment = .dataBytes

/-- A configuration has as a number the increment of another that follows the
data width, and is the same in all else. -/
def SpellsOut (config other : Configuration) : Prop :=
  other.Follows ∧ config = { other with increment := .bytes other.dataBytes }

variable {config other : Configuration}

theorem SameAnswers.refl (config : Configuration) : config.SameAnswers config where
  name := rfl
  dataWidth := rfl
  addressWidth := rfl
  addressIncrement := rfl
  registerReset := rfl
  rawReadFiller := rfl
  namingPrefix := rfl
  namingCase := rfl
  bridgeWord := rfl

theorem SameAnswers.symm (same : config.SameAnswers other) : other.SameAnswers config where
  name := same.name.symm
  dataWidth := same.dataWidth.symm
  addressWidth := same.addressWidth.symm
  addressIncrement := same.addressIncrement.symm
  registerReset := same.registerReset.symm
  rawReadFiller := same.rawReadFiller.symm
  namingPrefix := same.namingPrefix.symm
  namingCase := same.namingCase.symm
  bridgeWord := same.bridgeWord.symm

/-! ## How configurations that answer alike differ -/

/-- A stride that follows the data bus is its number of bytes. -/
theorem addressIncrement_of_follows (follows : config.Follows) :
    config.addressIncrement = config.dataBytes := by
  unfold addressIncrement
  rw [follows]

theorem addressIncrement_of_bytes {count : Nat} (stored : config.increment = .bytes count) :
    config.addressIncrement = count := by
  unfold addressIncrement
  rw [stored]

/-- Writing out the stride changes no answer. -/
theorem SpellsOut.sameAnswers (spells : config.SpellsOut other) : config.SameAnswers other := by
  obtain ⟨follows, rfl⟩ := spells
  have increment := addressIncrement_of_follows follows
  exact { SameAnswers.refl other with addressIncrement := increment.symm }

/-- Writing out the stride makes another configuration. -/
theorem SpellsOut.ne (spells : config.SpellsOut other) : config ≠ other := by
  rintro rfl
  have follows : config.increment = .dataBytes := spells.1
  have counted := congrArg increment spells.2
  rw [follows] at counted
  cases counted

/-- All but the increment is stored as it is read. -/
theorem SameAnswers.eq_with (same : config.SameAnswers other) :
    config = { other with increment := config.increment } := by
  have protocol : config.protocol = other.protocol := by
    rw [← ofWord?_bridgeWord config, ← ofWord?_bridgeWord other, same.bridgeWord]
  cases config
  cases other
  simp only [mk.injEq]
  exact ⟨same.name, same.dataWidth, same.addressWidth, trivial, same.registerReset,
    same.rawReadFiller, same.namingPrefix, same.namingCase, protocol⟩

/-- Where the one increment follows the data width, the other is either the same
or spelled out. -/
theorem SameAnswers.spellsOut (same : config.SameAnswers other) (follows : other.Follows) :
    config = other ∨ config.SpellsOut other := by
  have rest := same.eq_with
  cases stored : config.increment with
  | dataBytes =>
    rw [stored, ← follows] at rest
    exact .inl rest
  | bytes count =>
    have number : count = other.dataBytes := by
      rw [← addressIncrement_of_bytes stored, same.addressIncrement,
        addressIncrement_of_follows follows]
    rw [stored, number] at rest
    exact .inr ⟨follows, rest⟩

/-- Without the word for it, configurations with the same answers are equal. -/
theorem SameAnswers.eq_of_not_follows (same : config.SameAnswers other) (counts : ¬ config.Follows)
    (counts' : ¬ other.Follows) : config = other := by
  have rest := same.eq_with
  cases stored : config.increment with
  | dataBytes => exact absurd stored counts
  | bytes count =>
    cases stored' : other.increment with
    | dataBytes => exact absurd stored' counts'
    | bytes count' =>
      have number : count = count' := by
        rw [← addressIncrement_of_bytes stored, same.addressIncrement,
          addressIncrement_of_bytes stored']
      rw [stored, number, ← stored'] at rest
      exact rest

/-- Configurations with the same answers differ by the spelling of the stride at
most. -/
theorem sameAnswers_iff : config.SameAnswers other ↔
    config = other ∨ config.SpellsOut other ∨ other.SpellsOut config := by
  constructor
  · intro same
    by_cases follows' : other.Follows
    · exact (same.spellsOut follows').imp_right .inl
    by_cases follows : config.Follows
    · exact (same.symm.spellsOut follows).imp Eq.symm .inr
    · exact .inl (same.eq_of_not_follows follows follows')
  · rintro (rfl | spells | spells)
    · exact SameAnswers.refl config
    · exact spells.sameAnswers
    · exact spells.sameAnswers.symm

/-- Configurations are equal exactly if they answer alike and the increments of
both, or of neither, follow the data width. -/
theorem eq_iff : config = other ↔
    config.SameAnswers other ∧ (config.Follows ↔ other.Follows) := by
  constructor
  · rintro rfl
    exact ⟨SameAnswers.refl config, Iff.rfl⟩
  · rintro ⟨same, alike⟩
    by_cases follows : other.Follows
    · have rest := same.eq_with
      rw [alike.mpr follows, ← follows] at rest
      exact rest
    · exact same.eq_of_not_follows (alike.not.mpr follows) follows

end Configuration

namespace OptionTable

/-! ## Tables in key order -/

theorem inKeyOrder_withDefaults (settings : List Setting) {entries : List (String × SettingValue)}
    (ordered : InKeyOrder entries) : InKeyOrder (settings.foldl withDefault entries) := by
  induction settings generalizing entries with
  | nil => exact ordered
  | cons setting rest ih =>
    refine ih ?_
    unfold withDefault
    cases setting.default? with
    | none => exact ordered
    | some value => exact ordered.insertEntry setting.key value

theorem inKeyOrder_set {table : OptionTable} (ordered : InKeyOrder table.entries) (key : String)
    (value : SettingValue) : InKeyOrder (table.set key value).1.entries := by
  unfold set
  cases Setting.ofKey? key with
  | none => exact ordered
  | some setting =>
    dsimp only
    cases setting.kind.check key value with
    | ok => exact ordered.insertEntry setting.key value
    | error error => exact ordered

/-- By induction on the calls: the stored table stays in key order. -/
theorem inKeyOrder_setAll {table : OptionTable} (ordered : InKeyOrder table.entries)
    (calls : List (String × SettingValue)) : InKeyOrder (table.setAll calls).entries := by
  induction calls generalizing table with
  | nil => exact ordered
  | cons call rest ih => exact ih (inKeyOrder_set ordered call.1 call.2)

/-- Tables in key order with the same look-ups are the same. -/
theorem eq_of_get? {table other : OptionTable} (ordered : InKeyOrder table.entries)
    (ordered' : InKeyOrder other.entries) (same : ∀ key, table.get? key = other.get? key) :
    table = other := by
  cases table
  cases other
  exact congrArg mk (eq_of_lookup? ordered ordered' same)

/-- Tables are equal exactly if the configurations are that the same calls lead
to. -/
theorem setAll_eq_iff (calls others : List (String × SettingValue)) :
    default.setAll calls = default.setAll others ↔
      Configuration.default.setAll calls = Configuration.default.setAll others := by
  obtain ⟨-, first⟩ := get?_setAll calls Configuration.Valid.default get?_default
  obtain ⟨-, second⟩ := get?_setAll others Configuration.Valid.default get?_default
  constructor
  · intro equal
    refine Configuration.eq_of_value? fun setting => ?_
    rw [← get?_key first setting, ← get?_key second setting, equal]
  · intro equal
    have ordered := inKeyOrder_withDefaults Setting.all inKeyOrder_nil
    refine eq_of_get? (inKeyOrder_setAll ordered calls) (inKeyOrder_setAll ordered others) ?_
    intro key
    rw [first, second, equal]

end OptionTable

/-- **Configurations are equal where they answer alike, but for increments that
are spelled out.**  Of the configurations that calls of `set` lead to, two have
the same answers exactly if they are equal or one has as a number the increment
of the other, which follows the data width; and the two are equal exactly if they
have the same answers and the increments of both, or of neither, follow it.  For
the tables in which the options are stored it is the same. -/
theorem eq_iff_sameAnswers (calls others : List (String × SettingValue)) :
    (OptionTable.default.setAll calls = OptionTable.default.setAll others ↔
      Configuration.default.setAll calls = Configuration.default.setAll others) ∧
    (Configuration.default.setAll calls = Configuration.default.setAll others ↔
      (Configuration.default.setAll calls).SameAnswers (Configuration.default.setAll others) ∧
        ((Configuration.default.setAll calls).Follows ↔
          (Configuration.default.setAll others).Follows)) ∧
    ((Configuration.default.setAll calls).SameAnswers (Configuration.default.setAll others) ↔
      Configuration.default.setAll calls = Configuration.default.setAll others ∨
      (Configuration.default.setAll calls).SpellsOut (Configuration.default.setAll others) ∨
      (Configuration.default.setAll others).SpellsOut (Configuration.default.setAll calls)) :=
  ⟨OptionTable.setAll_eq_iff calls others, Configuration.eq_iff, Configuration.sameAnswers_iff⟩

/-- With the default data width spelled out in bytes, all answers are those of
the defaults, but the configurations and their tables differ. -/
theorem spelledOut_differs :
    (Configuration.default.setAll [("address_increment", .int 4)]).SameAnswers .default ∧
      Configuration.default.setAll [("address_increment", .int 4)] ≠ .default ∧
      OptionTable.default.setAll [("address_increment", .int 4)] ≠ .default := by
  have spells : (Configuration.default.setAll [("address_increment", .int 4)]).SpellsOut .default :=
    ⟨rfl, by decide⟩
  refine ⟨spells.sameAnswers, spells.ne, ?_⟩
  intro equal
  exact spells.ne ((OptionTable.setAll_eq_iff _ []).mp equal)

end RegisterBank
