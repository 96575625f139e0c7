import RegisterBank.Proofs.Construction.Options

/-!
# What storing an option changes

Each option has a part of the configuration to itself.  A value of its kind that
is stored there is found again (`value?_store_self`), and the values of all other
options are as before (`value?_store_of_ne`).  The values of all options together
are the configuration (`eq_of_value?`), so two ways of storing options lead to the
same one if they leave every option with the same value.
-/

namespace RegisterBank

/-! ## Keys and words name one thing each -/

/-- Options are found by their keys, so that no two share one. -/
theorem ofKey?_key (setting : Setting) : Setting.ofKey? setting.key = some setting := by
  cases setting <;> decide

theorem ofKey?_eq_some_iff {key : String} {setting : Setting} :
    Setting.ofKey? key = some setting ↔ setting.key = key := by
  constructor
  · intro found
    have own := List.find?_some found
    exact beq_iff_eq.mp own
  · intro own
    rw [← own]
    exact ofKey?_key setting

theorem key_injective {setting other : Setting} (same : setting.key = other.key) :
    setting = other := by
  have found := ofKey?_key setting
  rw [same, ofKey?_key other] at found
  exact (Option.some.inj found).symm

theorem ofWord?_resetStyle (style : ResetStyle) : ResetStyle.ofWord? style.word = some style := by
  cases style <;> decide

theorem ofWord?_namingCase (convention : NamingCase) :
    NamingCase.ofWord? convention.word = some convention := by
  cases convention <;> decide

theorem ofWord?_bridgeWord (config : Configuration) :
    Bus.Protocol.ofWord? config.bridgeWord = config.protocol := by
  unfold Configuration.bridgeWord
  cases config.protocol with
  | none => decide
  | some protocol => cases protocol <;> decide

/-- No option takes a negative integer. -/
theorem SettingKind.not_admits_negative (kind : SettingKind) (number : Int) :
    ¬ kind.Admits (.negative number) := by
  intro admitted
  cases kind <;> exact admitted

theorem exists_of_configError {α : Type} {problem : ConfigProblem} {error : Error}
    (refused : (configError problem : Result α) = .error error) :
    ∃ problem, error = .config problem :=
  ⟨problem, (Except.error.inj refused).symm⟩

/-- A check against a bound fails with nothing but its own problem. -/
theorem exists_of_guard {accepted : Prop} [Decidable accepted] {problem : ConfigProblem}
    {error : Error} (refused : (if accepted then .ok () else configError problem) = .error error) :
    ∃ problem, error = .config problem := by
  by_cases holds : accepted
  · rw [if_pos holds] at refused
    cases refused
  · rw [if_neg holds] at refused
    exact exists_of_configError refused

/-- A value that a kind does not let pass is a problem of the configuration. -/
theorem SettingKind.exists_of_check_error {key : String} {kind : SettingKind}
    {value : SettingValue} {error : Error} (refused : kind.check key value = .error error) :
    ∃ problem, error = .config problem := by
  unfold SettingKind.check at refused
  split at refused <;> first
    | exact exists_of_guard refused
    | exact exists_of_configError refused

namespace Configuration

variable {config : Configuration} {setting other : Setting} {value : SettingValue}

/-! ## One value stored -/

/-- An option holds what was stored last. -/
theorem value?_store_self (admitted : setting.kind.Admits value) :
    (config.store setting value).value? setting = some value := by
  cases setting <;> cases value <;> simp only [Setting.kind, SettingKind.Admits] at admitted
  case registerReset.text word =>
    obtain ⟨style, -, rfl⟩ := List.mem_map.mp admitted
    simp only [store, value?, ofWord?_resetStyle, Option.getD_some]
  case namingCase.text word =>
    obtain ⟨convention, -, rfl⟩ := List.mem_map.mp admitted
    simp only [store, value?, ofWord?_namingCase, Option.getD_some]
  case addressIncrement.text word =>
    rw [admitted]
    rfl
  case bridge.text word =>
    rcases List.mem_cons.mp admitted with rfl | listed
    · rfl
    · obtain ⟨protocol, -, rfl⟩ := List.mem_map.mp listed
      cases protocol <;> rfl
  all_goals rfl

/-- Options are stored apart from one another. -/
theorem value?_store_of_ne (apart : other ≠ setting) (value : SettingValue) :
    (config.store setting value).value? other = config.value? other := by
  -- Any two options have different parts of the record.
  cases setting <;> cases other <;> first
    | exact absurd rfl apart
    | cases value <;> rfl

/-! ## All values -/

/-- Options with a default are never unset. -/
theorem exists_value?_of_default (given : setting.default? ≠ none) :
    ∃ value, config.value? setting = some value := by
  cases setting with
  | name => exact absurd rfl given
  | _ => exact ⟨_, rfl⟩

/-- A configuration is what its options have as values. -/
theorem eq_of_value? {other : Configuration}
    (same : ∀ setting, config.value? setting = other.value? setting) : config = other := by
  have name : config.name = other.name :=
    Option.map_injective (fun _ _ => SettingValue.text.inj) (same .name)
  have dataWidth : config.dataWidth = other.dataWidth :=
    SettingValue.int.inj (Option.some.inj (same .dataWidth))
  have addressWidth : config.addressWidth = other.addressWidth :=
    SettingValue.int.inj (Option.some.inj (same .addressWidth))
  have increment : config.increment = other.increment := by
    have stride := Option.some.inj (same .addressIncrement)
    cases here : config.increment with
    | dataBytes =>
      cases there : other.increment with
      | dataBytes => rfl
      | bytes count =>
        rw [here, there] at stride
        cases stride
    | bytes count =>
      cases there : other.increment with
      | dataBytes =>
        rw [here, there] at stride
        cases stride
      | bytes otherCount =>
        rw [here, there] at stride
        rw [SettingValue.int.inj stride]
  have registerReset : config.registerReset = other.registerReset := by
    have word := SettingValue.text.inj (Option.some.inj (same .registerReset))
    have found := congrArg ResetStyle.ofWord? word
    rw [ofWord?_resetStyle, ofWord?_resetStyle] at found
    exact Option.some.inj found
  have filler : config.rawReadFiller = other.rawReadFiller :=
    SettingValue.int.inj (Option.some.inj (same .readFiller))
  have namingPrefix : config.namingPrefix = other.namingPrefix :=
    SettingValue.text.inj (Option.some.inj (same .namingPrefix))
  have namingCase : config.namingCase = other.namingCase := by
    have word := SettingValue.text.inj (Option.some.inj (same .namingCase))
    have found := congrArg NamingCase.ofWord? word
    rw [ofWord?_namingCase, ofWord?_namingCase] at found
    exact Option.some.inj found
  have protocol : config.protocol = other.protocol := by
    have word := SettingValue.text.inj (Option.some.inj (same .bridge))
    rw [← ofWord?_bridgeWord config, ← ofWord?_bridgeWord other, word]
  cases config
  cases other
  simp only [mk.injEq]
  exact ⟨name, dataWidth, addressWidth, increment, registerReset, filler, namingPrefix,
    namingCase, protocol⟩

end Configuration

end RegisterBank
