import Mathlib.Data.Nat.Bitwise
import RegisterBank.Configuration

/-!
# Configurations that setting options leads to

`Configuration.Reachable` is the least set of configurations that holds the
defaults and is closed under `set`; a refused `set` leaves no configuration
behind, so it adds none.  `Configuration.Valid` is what all of them have in
common, one clause for each option whose kind bounds it, and
`Configuration.Reachable.valid` is the induction.  The checks enter only
through `SettingKind.Admits`, which says for each kind which values it lets
pass.

The address increment is a power of two and the address bus has 32 bits at
most: the layout divides by the one and never leaves 64 bits because of the
other.
-/

namespace RegisterBank

/-! ## Kinds and the values they let pass -/

/-- The values of a kind. -/
def SettingKind.Admits : SettingKind → SettingValue → Prop
  | .identifier allowEmpty, .text text =>
    Text.isIdentifier text = true ∨ (allowEmpty = true ∧ text = "")
  | .intChoice choices, .int value => value ∈ choices
  | .intRange least greatest, .int value => least ≤ value ∧ value ≤ greatest
  | .wordChoice choices, .text text => text ∈ choices
  | .increment, .text text => text = Increment.followWord
  | .increment, .int value => isStride value = true
  | _, _ => False

/-- The checks let through nothing but admitted values. -/
theorem SettingKind.admits_of_check {key : String} {kind : SettingKind} {value : SettingValue}
    (passed : kind.check key value = .ok ()) : kind.Admits value := by
  cases kind <;> cases value <;>
    simp only [SettingKind.check, SettingKind.Admits, configError, reduceCtorEq] at passed ⊢
  case identifier.text allowEmpty text =>
    split at passed
    · rename_i accepted
      rw [Bool.or_eq_true, Bool.and_eq_true, String.isEmpty_iff] at accepted
      exact accepted
    · cases passed
  case intChoice.int choices value =>
    split at passed
    · rename_i listed
      exact List.contains_iff_mem.mp listed
    · cases passed
  case intRange.int least greatest value =>
    split at passed
    · assumption
    · cases passed
  case wordChoice.text choices text =>
    split at passed
    · rename_i listed
      exact List.contains_iff_mem.mp listed
    · cases passed
  case increment.int value =>
    split at passed
    · assumption
    · cases passed
  case increment.text text =>
    split at passed
    · assumption
    · cases passed

/-- The checks let through every admitted value. -/
theorem SettingKind.check_of_admits {key : String} {kind : SettingKind} {value : SettingValue}
    (admitted : kind.Admits value) : kind.check key value = .ok () := by
  cases kind <;> cases value <;> simp only [SettingKind.Admits] at admitted <;>
    unfold SettingKind.check
  case identifier.text allowEmpty text =>
    refine if_pos ?_
    rw [Bool.or_eq_true, Bool.and_eq_true, String.isEmpty_iff]
    exact admitted
  case intChoice.int choices value => exact if_pos (List.contains_iff_mem.mpr admitted)
  case intRange.int least greatest value => exact if_pos admitted
  case wordChoice.text choices text => exact if_pos (List.contains_iff_mem.mpr admitted)
  case increment.int value => exact if_pos admitted
  case increment.text text => exact if_pos admitted

namespace Configuration

/-- A `set` that succeeds stores a value that the option's kind lets pass. -/
theorem exists_of_set_ok {config next : Configuration} {key : String} {value : SettingValue}
    (done : config.set key value = .ok next) :
    ∃ setting : Setting, setting.kind.Admits value ∧ next = config.store setting value := by
  unfold set at done
  split at done
  · cases done
  · rename_i setting found
    split at done
    · rename_i passed
      cases done
      exact ⟨setting, SettingKind.admits_of_check passed, rfl⟩
    · cases done

/-! ## Reachable configurations -/

/-- The configurations that setting options leads to. -/
inductive Reachable : Configuration → Prop
  | default : Reachable Configuration.default
  | set {config next : Configuration} {key : String} {value : SettingValue} :
    Reachable config → config.set key value = .ok next → Reachable next

/-- What every reachable configuration satisfies. -/
structure Valid (config : Configuration) : Prop where
  name : ∀ name, config.name = some name → Text.isIdentifier name = true
  dataWidth : config.dataWidth ∈ [8, 16, 32, 64]
  addressWidth : 1 ≤ config.addressWidth ∧ config.addressWidth ≤ 32
  increment : ∀ count, config.increment = .bytes count → isStride count = true
  rawReadFiller : config.rawReadFiller < 2 ^ 64
  namingPrefix : Text.isIdentifier config.namingPrefix = true ∨ config.namingPrefix = ""

theorem Valid.default : Valid Configuration.default where
  name := by intro name named; cases named
  dataWidth := by decide
  addressWidth := by decide
  increment := by intro count counted; cases counted
  rawReadFiller := by decide
  namingPrefix := Or.inl (by decide)

/-- Storing a value that its option admits keeps every clause: the option's own
clause is what was admitted, and the others speak of values that stay. -/
theorem Valid.store {config : Configuration} (valid : config.Valid) {setting : Setting}
    {value : SettingValue} (admitted : setting.kind.Admits value) :
    (config.store setting value).Valid := by
  cases setting <;> cases value <;>
    simp only [Setting.kind, SettingKind.Admits] at admitted
  case name.text text =>
    refine { valid with name := ?_ }
    intro name named
    cases named
    rcases admitted with identifier | ⟨empty, -⟩
    · exact identifier
    · cases empty
  case dataWidth.int value => exact { valid with dataWidth := admitted }
  case addressWidth.int value => exact { valid with addressWidth := admitted }
  case addressIncrement.int value =>
    refine { valid with increment := ?_ }
    intro count counted
    cases counted
    exact admitted
  case addressIncrement.text text =>
    refine { valid with increment := ?_ }
    intro count counted
    cases counted
  case registerReset.text word => exact { valid with }
  case readFiller.int value =>
    refine { valid with rawReadFiller := ?_ }
    have bound : value ≤ 2 ^ 64 - 1 := admitted.2
    show value < 2 ^ 64
    omega
  case namingPrefix.text text =>
    refine { valid with namingPrefix := ?_ }
    rcases admitted with identifier | ⟨-, empty⟩
    · exact Or.inl identifier
    · exact Or.inr empty
  case namingCase.text word => exact { valid with }
  case bridge.text word => exact { valid with }

/-- By induction on the calls: whatever was set, the configuration is valid. -/
theorem Reachable.valid {config : Configuration} (reachable : config.Reachable) :
    config.Valid := by
  induction reachable with
  | default => exact Valid.default
  | set _ done valid =>
    rcases exists_of_set_ok done with ⟨setting, admitted, rfl⟩
    exact valid.store admitted

/-- The value of each option of a valid configuration is of the option's kind. -/
theorem Valid.admits {config : Configuration} (valid : config.Valid) {setting : Setting}
    {value : SettingValue} (given : config.value? setting = some value) :
    setting.kind.Admits value := by
  cases setting <;> simp only [value?, Option.some.injEq, Option.map_eq_some_iff] at given
  case name =>
    obtain ⟨name, named, rfl⟩ := given
    exact Or.inl (valid.name name named)
  case dataWidth =>
    subst given
    exact valid.dataWidth
  case addressWidth =>
    subst given
    exact valid.addressWidth
  case addressIncrement =>
    subst given
    cases chosen : config.increment with
    | dataBytes => rfl
    | bytes count => exact valid.increment count chosen
  case registerReset =>
    subst given
    exact List.mem_map_of_mem (by cases config.registerReset <;> decide)
  case readFiller =>
    subst given
    exact ⟨Nat.zero_le _, Nat.le_sub_one_of_lt valid.rawReadFiller⟩
  case namingPrefix =>
    subst given
    rcases valid.namingPrefix with identifier | empty
    · exact Or.inl identifier
    · exact Or.inr ⟨rfl, empty⟩
  case namingCase =>
    subst given
    exact List.mem_map_of_mem (by cases config.namingCase <;> decide)
  case bridge =>
    subst given
    unfold bridgeWord
    cases config.protocol with
    | none => exact List.mem_cons_self
    | some protocol =>
      exact List.mem_cons_of_mem _ (List.mem_map_of_mem (by cases protocol <;> decide))

/-! ## The address increment -/

theorem exists_pow_of_isStride {value : Nat} (stride : isStride value = true) :
    ∃ exponent ≤ 12, value = 2 ^ exponent := by
  obtain ⟨exponent, listed, equal⟩ := List.any_eq_true.mp stride
  rw [List.mem_range] at listed
  exact ⟨exponent, by omega, (beq_iff_eq.mp equal).symm⟩

/-- The data bus carries a power of two of whole bytes. -/
theorem Valid.exists_pow_dataBytes {config : Configuration} (valid : config.Valid) :
    ∃ exponent ≤ 3, config.dataBytes = 2 ^ exponent ∧ config.dataWidth = 8 * config.dataBytes := by
  have width := valid.dataWidth
  simp only [List.mem_cons, List.not_mem_nil, or_false] at width
  unfold dataBytes
  rcases width with width | width | width | width <;> rw [width]
  · exact ⟨0, by omega, rfl, rfl⟩
  · exact ⟨1, by omega, rfl, rfl⟩
  · exact ⟨2, by omega, rfl, rfl⟩
  · exact ⟨3, by omega, rfl, rfl⟩

/-- The increment is a power of two up to 4096, whether it is a number of bytes
or follows the data width. -/
theorem Valid.exists_pow_increment {config : Configuration} (valid : config.Valid) :
    ∃ exponent ≤ 12, config.addressIncrement = 2 ^ exponent := by
  unfold addressIncrement
  cases chosen : config.increment with
  | dataBytes =>
    obtain ⟨exponent, small, equal, -⟩ := valid.exists_pow_dataBytes
    exact ⟨exponent, by omega, equal⟩
  | bytes count => exact exists_pow_of_isStride (valid.increment count chosen)

/-- The stride is never zero. -/
theorem Valid.increment_pos {config : Configuration} (valid : config.Valid) :
    0 < config.addressIncrement := by
  obtain ⟨exponent, -, equal⟩ := valid.exists_pow_increment
  rw [equal]
  exact Nat.two_pow_pos exponent

theorem Valid.increment_le {config : Configuration} (valid : config.Valid) :
    config.addressIncrement ≤ 4096 := by
  obtain ⟨exponent, small, equal⟩ := valid.exists_pow_increment
  rw [equal]
  exact Nat.pow_le_pow_right (by omega) small

theorem Valid.dataWidth_le {config : Configuration} (valid : config.Valid) :
    config.dataWidth ≤ Bits.wordWidth := by
  have width := valid.dataWidth
  simp only [List.mem_cons, List.not_mem_nil, or_false] at width
  unfold Bits.wordWidth
  omega

end Configuration

end RegisterBank
