import RegisterBank.Proofs.Construction.StoredOptions
import RegisterBank.Proofs.Document.Entries

/-!
# Options in one table of values

A configuration keeps each option in a part of its own.  Here the options stand
in one table instead, with a value of any type under each key, and what reads an
option looks its value up and falls back on the option's default, or on a fixed
value, where it finds none or one of another type.

The checks of `set` are the same, so after any calls, refused ones among them,
table and configuration answer alike (`Mirrors`).  The table is then total in a
stronger sense than its fallbacks make it (`Typed`): they are never needed.
-/

namespace RegisterBank

open RegisterBank.Document

/-- A value of any type under each key that has one. -/
structure OptionTable where
  entries : List (String × SettingValue)
  deriving DecidableEq, Repr

namespace OptionTable

/-! ## The table -/

/-- The value under a key. -/
def get? (table : OptionTable) (key : String) : Option SettingValue := lookup? key table.entries

/-- The entries with the default of an option, if it has one. -/
def withDefault (entries : List (String × SettingValue)) (setting : Setting) :
    List (String × SettingValue) :=
  match setting.default? with
  | some value => insertEntry setting.key value entries
  | none => entries

/-- The documented defaults. -/
def default : OptionTable := ⟨Setting.all.foldl withDefault []⟩

/-- The table after a value is set under a key, and whether it could be. -/
def set (table : OptionTable) (key : String) (value : SettingValue) :
    OptionTable × Result Unit :=
  match Setting.ofKey? key with
  | none => (table, .error (.schema (.named key) (.unknownOption key)))
  | some setting =>
    match setting.kind.check key value with
    | .ok () => (⟨insertEntry setting.key value table.entries⟩, .ok ())
    | .error error => (table, .error error)

/-- The table after some values are set one after the other, whether they could
be or not. -/
def setAll (table : OptionTable) (calls : List (String × SettingValue)) : OptionTable :=
  calls.foldl (fun table call => (table.set call.1 call.2).1) table

/-! ## Reading with fallbacks -/

/-- The integer under a key.  Without one it is the option's default, and zero
if that is no integer either. -/
def int (table : OptionTable) (key : String) : Nat :=
  match table.get? key with
  | some (.int value) => value
  | _ =>
    match (Setting.ofKey? key).bind Setting.default? with
    | some (.int value) => value
    | _ => 0

/-- The text under a key.  Without one it is the option's default, and empty if
that is no text either. -/
def text (table : OptionTable) (key : String) : String :=
  match table.get? key with
  | some (.text value) => value
  | _ =>
    match (Setting.ofKey? key).bind Setting.default? with
    | some (.text value) => value
    | _ => ""

/-- The base name of generated outputs, if a text is stored for it. -/
def name (table : OptionTable) : Option String :=
  match table.get? "name" with
  | some (.text name) => some name
  | _ => none

/-- The data width, cut to 32 bits. -/
def dataWidth (table : OptionTable) : Nat := table.int "data_width" % Nat.pow 2 32

/-- The bytes of the data bus. -/
def dataBytes (table : OptionTable) : Nat := table.dataWidth / 8

/-- The address width, cut to 32 bits. -/
def addressWidth (table : OptionTable) : Nat := table.int "address_width" % Nat.pow 2 32

/-- The stride: the bytes of the data bus if no integer is stored. -/
def addressIncrement (table : OptionTable) : Nat :=
  match table.get? "address_increment" with
  | some (.int count) => count
  | _ => table.dataBytes

/-- The reset style.  It is the first one if the word is not known. -/
def registerReset (table : OptionTable) : ResetStyle :=
  (ResetStyle.ofWord? (table.text "register_reset")).getD .syncPositive

/-- The filler value as it is stored. -/
def rawReadFiller (table : OptionTable) : Nat := table.int "read_filler"

/-- The filler value, cut to the data width. -/
def readFiller (table : OptionTable) : Nat := table.rawReadFiller &&& Bits.ones table.dataWidth

/-- The prefix of port names. -/
def namingPrefix (table : OptionTable) : String := table.text "naming.prefix"

/-- The case convention.  It is that of lower case if the word is not known. -/
def namingCase (table : OptionTable) : NamingCase :=
  (NamingCase.ofWord? (table.text "naming.case")).getD .lower

/-- The word for the bus family. -/
def bridgeWord (table : OptionTable) : String := table.text "lb_bridge.type"

end OptionTable

/-- The configuration after some values are set one after the other, those that
are refused left out. -/
def Configuration.setAll (config : Configuration) (calls : List (String × SettingValue)) :
    Configuration :=
  calls.foldl (fun config call =>
    match config.set call.1 call.2 with
    | .ok next => next
    | .error _ => config) config

namespace OptionTable

/-! ## Properties of tables -/

/-- A table and a configuration answer alike. -/
structure Mirrors (table : OptionTable) (config : Configuration) : Prop where
  get? : ∀ key, table.get? key = config.get? key
  name : table.name = config.name
  dataWidth : table.dataWidth = config.dataWidth
  dataBytes : table.dataBytes = config.dataBytes
  addressWidth : table.addressWidth = config.addressWidth
  addressIncrement : table.addressIncrement = config.addressIncrement
  registerReset : table.registerReset = config.registerReset
  rawReadFiller : table.rawReadFiller = config.rawReadFiller
  readFiller : table.readFiller = config.readFiller
  namingPrefix : table.namingPrefix = config.namingPrefix
  namingCase : table.namingCase = config.namingCase
  bridgeWord : table.bridgeWord = config.bridgeWord

/-- What is read from a table is within its bounds. -/
structure Bounded (table : OptionTable) : Prop where
  dataWidth : table.dataWidth ∈ [8, 16, 32, 64]
  addressWidth : 1 ≤ table.addressWidth ∧ table.addressWidth ≤ 32
  addressIncrement : ∃ exponent ≤ 12, table.addressIncrement = 2 ^ exponent
  follows : table.get? "address_increment" = some (.text "data_width") →
    table.addressIncrement = table.dataBytes
  name : ∀ name, table.name = some name → Text.isIdentifier name = true
  namingPrefix : table.namingPrefix = "" ∨ Text.isIdentifier table.namingPrefix = true

/-- Values have the types that reading expects, so that none of it falls back. -/
structure Typed (table : OptionTable) : Prop where
  notNegative : ∀ key number, table.get? key ≠ some (.negative number)
  /-- Every option with a default has a value, which is of its kind. -/
  present : ∀ setting : Setting, setting.default? ≠ none →
    ∃ value, table.get? setting.key = some value ∧ setting.kind.Admits value
  int : ∀ key ∈ ["data_width", "address_width", "read_filler"],
    table.get? key = some (.int (table.int key))
  text : ∀ key ∈ ["register_reset", "naming.prefix", "naming.case", "lb_bridge.type"],
    table.get? key = some (.text (table.text key))
  registerReset :
    ResetStyle.ofWord? (table.text "register_reset") = some table.registerReset
  namingCase : NamingCase.ofWord? (table.text "naming.case") = some table.namingCase

/-- What a call of `set` does to a table and to a configuration that it mirrors. -/
structure SetsAlike (table : OptionTable) (config : Configuration) (key : String)
    (value : SettingValue) : Prop where
  /-- A value that is taken is stored under its key and nowhere else. -/
  taken : ∀ next, config.set key value = .ok next →
    (table.set key value).2 = .ok () ∧ (table.set key value).1.Mirrors next ∧
      ∀ other, (table.set key value).1.get? other =
        if other = key then some value else table.get? other
  /-- A value that is refused changes nothing, and only an unknown key is a
  failure of the schema. -/
  refused : ∀ error, config.set key value = .error error →
    table.set key value = (table, .error error) ∧
      ((∃ setting : Setting, setting.key = key) ∧ (∃ problem, error = .config problem) ∨
        (∀ setting : Setting, setting.key ≠ key) ∧
          error = .schema (.named key) (.unknownOption key))

/-! ## Tables that answer alike -/

variable {table : OptionTable} {config : Configuration}

/-- An integer that is stored is what the getter gives. -/
theorem int_of_get? {key : String} {value : Nat} (stored : table.get? key = some (.int value)) :
    table.int key = value := by
  unfold int
  rw [stored]

theorem text_of_get? {key value : String} (stored : table.get? key = some (.text value)) :
    table.text key = value := by
  unfold text
  rw [stored]

/-- So the getter's default does not show where an integer is stored. -/
theorem get?_int {key : String} {value : Nat} (stored : table.get? key = some (.int value)) :
    table.get? key = some (.int (table.int key)) := by
  rw [int_of_get? stored, stored]

theorem get?_text {key value : String} (stored : table.get? key = some (.text value)) :
    table.get? key = some (.text (table.text key)) := by
  rw [text_of_get? stored, stored]

section Mirrored

variable (valid : config.Valid) (same : ∀ key, table.get? key = config.get? key)

include same

/-- A table that answers like a configuration answers each option's key with the
configuration's value. -/
theorem get?_key (setting : Setting) : table.get? setting.key = config.value? setting := by
  rw [same]
  unfold Configuration.get?
  rw [ofKey?_key]
  rfl

/-- The name is the one option that may be unset, in both. -/
theorem name_eq : table.name = config.name := by
  have stored : table.get? "name" = config.value? .name := get?_key same .name
  unfold name
  rw [stored]
  unfold Configuration.value?
  cases config.name <;> rfl

theorem int_dataWidth : table.int "data_width" = config.dataWidth :=
  int_of_get? (get?_key same .dataWidth)

theorem int_addressWidth : table.int "address_width" = config.addressWidth :=
  int_of_get? (get?_key same .addressWidth)

theorem rawReadFiller_eq : table.rawReadFiller = config.rawReadFiller :=
  int_of_get? (get?_key same .readFiller)

theorem text_registerReset : table.text "register_reset" = config.registerReset.word :=
  text_of_get? (get?_key same .registerReset)

theorem namingPrefix_eq : table.namingPrefix = config.namingPrefix :=
  text_of_get? (get?_key same .namingPrefix)

theorem text_namingCase : table.text "naming.case" = config.namingCase.word :=
  text_of_get? (get?_key same .namingCase)

theorem bridgeWord_eq : table.bridgeWord = config.bridgeWord :=
  text_of_get? (get?_key same .bridge)

include valid

/-- Widths are cut to 32 bits by the getter, which changes none that is
admitted. -/
theorem dataWidth_eq : table.dataWidth = config.dataWidth := by
  have narrow : config.dataWidth < Nat.pow 2 32 :=
    Nat.lt_of_le_of_lt valid.dataWidth_le (by decide)
  unfold dataWidth
  rw [int_dataWidth same, Nat.mod_eq_of_lt narrow]

theorem addressWidth_eq : table.addressWidth = config.addressWidth := by
  have narrow : config.addressWidth < Nat.pow 2 32 :=
    Nat.lt_of_le_of_lt valid.addressWidth.2 (by decide)
  unfold addressWidth
  rw [int_addressWidth same, Nat.mod_eq_of_lt narrow]

/-- A table that has the same values answers alike in all else. -/
theorem mirrors_of_get? : table.Mirrors config := by
  have width := dataWidth_eq valid same
  have bytes : table.dataBytes = config.dataBytes := by
    unfold dataBytes Configuration.dataBytes
    rw [width]
  have increment : table.addressIncrement = config.addressIncrement := by
    have stored : table.get? "address_increment" = config.value? .addressIncrement :=
      get?_key same .addressIncrement
    unfold addressIncrement Configuration.addressIncrement
    rw [stored]
    unfold Configuration.value?
    cases config.increment with
    | dataBytes => exact bytes
    | bytes count => rfl
  have reset : table.registerReset = config.registerReset := by
    unfold registerReset
    rw [text_registerReset same, ofWord?_resetStyle]
    rfl
  have filler : table.readFiller = config.readFiller := by
    unfold readFiller Configuration.readFiller
    rw [rawReadFiller_eq same, width]
  have convention : table.namingCase = config.namingCase := by
    unfold namingCase
    rw [text_namingCase same, ofWord?_namingCase]
    rfl
  exact
    { get? := same
      name := name_eq same
      dataWidth := width
      dataBytes := bytes
      addressWidth := addressWidth_eq valid same
      addressIncrement := increment
      registerReset := reset
      rawReadFiller := rawReadFiller_eq same
      readFiller := filler
      namingPrefix := namingPrefix_eq same
      namingCase := convention
      bridgeWord := bridgeWord_eq same }

/-- What a table stores is in bounds, since a configuration's values are. -/
theorem bounded_of_get? : table.Bounded := by
  have mirrors := mirrors_of_get? valid same
  have increment : ∃ exponent ≤ 12, table.addressIncrement = 2 ^ exponent := by
    rw [mirrors.addressIncrement]
    exact valid.exists_pow_increment
  have follows (stored : table.get? "address_increment" = some (.text "data_width")) :
      table.addressIncrement = table.dataBytes := by
    unfold addressIncrement
    rw [stored]
  exact
    { dataWidth := mirrors.dataWidth ▸ valid.dataWidth
      addressWidth := mirrors.addressWidth ▸ valid.addressWidth
      addressIncrement := increment
      follows := follows
      name := mirrors.name ▸ valid.name
      namingPrefix := mirrors.namingPrefix ▸ valid.namingPrefix.symm }

/-- Stored values have the types that the getters ask for, so that no getter
falls back. -/
theorem typed_of_get? : table.Typed := by
  have int : ∀ key ∈ ["data_width", "address_width", "read_filler"],
      table.get? key = some (.int (table.int key)) := by
    intro key listed
    simp only [List.mem_cons, List.not_mem_nil, or_false] at listed
    rcases listed with rfl | rfl | rfl
    · exact get?_int (get?_key same .dataWidth)
    · exact get?_int (get?_key same .addressWidth)
    · exact get?_int (get?_key same .readFiller)
  have text : ∀ key ∈ ["register_reset", "naming.prefix", "naming.case", "lb_bridge.type"],
      table.get? key = some (.text (table.text key)) := by
    intro key listed
    simp only [List.mem_cons, List.not_mem_nil, or_false] at listed
    rcases listed with rfl | rfl | rfl | rfl
    · exact get?_text (get?_key same .registerReset)
    · exact get?_text (get?_key same .namingPrefix)
    · exact get?_text (get?_key same .namingCase)
    · exact get?_text (get?_key same .bridge)
  have notNegative (key : String) (number : Int) :
      table.get? key ≠ some (.negative number) := by
    rw [same]
    intro stored
    obtain ⟨setting, -, stored⟩ := Option.bind_eq_some_iff.mp stored
    exact setting.kind.not_admits_negative number (valid.admits stored)
  have present (setting : Setting) (given : setting.default? ≠ none) :
      ∃ value, table.get? setting.key = some value ∧ setting.kind.Admits value := by
    obtain ⟨value, stored⟩ := config.exists_value?_of_default given
    exact ⟨value, (get?_key same setting).trans stored, valid.admits stored⟩
  have reset : ResetStyle.ofWord? (table.text "register_reset") = some table.registerReset := by
    rw [(mirrors_of_get? valid same).registerReset, text_registerReset same]
    exact ofWord?_resetStyle config.registerReset
  have convention : NamingCase.ofWord? (table.text "naming.case") = some table.namingCase := by
    rw [(mirrors_of_get? valid same).namingCase, text_namingCase same]
    exact ofWord?_namingCase config.namingCase
  exact
    { notNegative := notNegative
      present := present
      int := int
      text := text
      registerReset := reset
      namingCase := convention }

end Mirrored

/-! ## The defaults -/

/-- Laying down defaults leaves the entries under other keys alone. -/
theorem lookup?_withDefaults {key : String} {settings : List Setting}
    (unknown : ∀ setting ∈ settings, setting.key ≠ key) (entries : List (String × SettingValue)) :
    lookup? key (settings.foldl withDefault entries) = lookup? key entries := by
  induction settings generalizing entries with
  | nil => rfl
  | cons setting rest ih =>
    obtain ⟨apart, others⟩ := List.forall_mem_cons.mp unknown
    rw [List.foldl_cons, ih others]
    unfold withDefault
    cases setting.default? with
    | none => rfl
    | some value => exact lookup?_insertEntry_of_ne apart value entries

/-- A fresh table answers as the default configuration does. -/
theorem get?_default (key : String) : default.get? key = Configuration.default.get? key := by
  unfold Configuration.get?
  cases found : Setting.ofKey? key with
  | none =>
    have unknown (setting : Setting) (_ : setting ∈ Setting.all) : setting.key ≠ key := by
      intro own
      rw [ofKey?_eq_some_iff.mpr own] at found
      cases found
    exact lookup?_withDefaults unknown []
  | some setting =>
    rw [← ofKey?_eq_some_iff.mp found]
    cases setting <;> decide

/-! ## Calls -/

/-- Storing a value changes the answer for its own key only. -/
theorem get?_stored {setting : Setting} {value : SettingValue} (other : String) :
    (OptionTable.mk (insertEntry setting.key value table.entries)).get? other =
      if other = setting.key then some value else table.get? other := by
  unfold get?
  by_cases own : other = setting.key
  · rw [if_pos own, own]
    exact lookup?_insertEntry_self setting.key value table.entries
  · rw [if_neg own]
    exact lookup?_insertEntry_of_ne (Ne.symm own) value table.entries

/-- Storing a value under an option's key keeps table and configuration alike. -/
theorem get?_store (same : ∀ key, table.get? key = config.get? key) {setting : Setting}
    {value : SettingValue} (admitted : setting.kind.Admits value) (other : String) :
    (OptionTable.mk (insertEntry setting.key value table.entries)).get? other =
      (config.store setting value).get? other := by
  rw [get?_stored, same]
  unfold Configuration.get?
  cases found : Setting.ofKey? other with
  | none =>
    have apart : other ≠ setting.key := by
      intro own
      rw [own, ofKey?_key] at found
      cases found
    exact if_neg apart
  | some known =>
    rw [← ofKey?_eq_some_iff.mp found]
    by_cases own : known = setting
    · rw [own, if_pos rfl]
      exact (Configuration.value?_store_self admitted).symm
    · rw [if_neg fun keys => own (key_injective keys)]
      exact (Configuration.value?_store_of_ne own value).symm

section Call

variable (table : OptionTable) (config : Configuration) {key : String}

/-- Both refuse a key that names no option, and keep what they hold. -/
theorem set_unknown (value : SettingValue) (found : Setting.ofKey? key = none) :
    config.set key value = .error (.schema (.named key) (.unknownOption key)) ∧
      table.set key value = (table, .error (.schema (.named key) (.unknownOption key))) := by
  unfold set Configuration.set
  rw [found]
  exact ⟨rfl, rfl⟩

variable {setting : Setting} {value : SettingValue} (found : Setting.ofKey? key = some setting)

include found

/-- Both refuse a value that fails the check of its option, with the same
error. -/
theorem set_refused {problem : Error} (refused : setting.kind.check key value = .error problem) :
    config.set key value = .error problem ∧
      table.set key value = (table, .error problem) := by
  unfold set Configuration.set
  simp only [found, refused, and_self]

/-- Both store a value that passes the check of its option. -/
theorem set_passed (passed : setting.kind.check key value = .ok ()) :
    config.set key value = .ok (config.store setting value) ∧
      table.set key value = (⟨insertEntry setting.key value table.entries⟩, .ok ()) := by
  unfold set Configuration.set
  simp only [found, passed, and_self]

end Call

/-- One call: both are refused for the same reason, or both store the value. -/
theorem setsAlike_of_get? (valid : config.Valid)
    (same : ∀ key, table.get? key = config.get? key) (key : String) (value : SettingValue) :
    table.SetsAlike config key value := by
  cases found : Setting.ofKey? key with
  | none =>
    obtain ⟨record, entries⟩ := set_unknown table config value found
    have unknown (setting : Setting) : setting.key ≠ key := by
      intro own
      rw [ofKey?_eq_some_iff.mpr own] at found
      cases found
    constructor
    · intro next done
      rw [record] at done
      cases done
    · intro error refused
      rw [record] at refused
      cases refused
      exact ⟨entries, .inr ⟨unknown, rfl⟩⟩
  | some setting =>
    have own := ofKey?_eq_some_iff.mp found
    cases checked : setting.kind.check key value with
    | error problem =>
      obtain ⟨record, entries⟩ := set_refused table config found checked
      constructor
      · intro next done
        rw [record] at done
        cases done
      · intro error refused
        rw [record] at refused
        cases refused
        exact ⟨entries, .inl ⟨⟨setting, own⟩, SettingKind.exists_of_check_error checked⟩⟩
    | ok =>
      obtain ⟨record, entries⟩ := set_passed table config found checked
      have admitted := SettingKind.admits_of_check checked
      constructor
      · intro next done
        rw [record] at done
        cases done
        rw [entries]
        refine ⟨rfl, mirrors_of_get? (valid.store admitted) (get?_store same admitted), ?_⟩
        rw [← own]
        exact get?_stored
      · intro error refused
        rw [record] at refused
        cases refused

/-- By induction on the calls: as long as the answers agree, each call keeps
them so. -/
theorem get?_setAll (calls : List (String × SettingValue)) (valid : config.Valid)
    (same : ∀ key, table.get? key = config.get? key) :
    (config.setAll calls).Valid ∧
      ∀ key, (table.setAll calls).get? key = (config.setAll calls).get? key := by
  induction calls generalizing table config with
  | nil => exact ⟨valid, same⟩
  | cons call rest ih =>
    have alike := setsAlike_of_get? valid same call.1 call.2
    have first : table.setAll (call :: rest) = (table.set call.1 call.2).1.setAll rest := rfl
    have second : config.setAll (call :: rest) =
        (match config.set call.1 call.2 with
          | .ok next => next
          | .error _ => config).setAll rest := rfl
    rw [first, second]
    cases outcome : config.set call.1 call.2 with
    | ok next =>
      obtain ⟨-, mirrors, -⟩ := alike.taken next outcome
      obtain ⟨setting, admitted, rfl⟩ := Configuration.exists_of_set_ok outcome
      exact ih (valid.store admitted) mirrors.get?
    | error error =>
      rw [(alike.refused error outcome).1]
      exact ih valid same

/-- **Options stay in their bounds and of their types**, whatever is set: after
any calls the table of options mirrors the configuration, no value needs a
fallback, and each further call stores one value or nothing. -/
theorem options_after_calls (calls : List (String × SettingValue)) :
    (default.setAll calls).Mirrors (Configuration.default.setAll calls) ∧
      (default.setAll calls).Bounded ∧ (default.setAll calls).Typed ∧
      ∀ key value,
        (default.setAll calls).SetsAlike (Configuration.default.setAll calls) key value := by
  obtain ⟨valid, same⟩ := get?_setAll calls Configuration.Valid.default get?_default
  exact ⟨mirrors_of_get? valid same, bounded_of_get? valid same, typed_of_get? valid same,
    setsAlike_of_get? valid same⟩

end OptionTable

end RegisterBank
