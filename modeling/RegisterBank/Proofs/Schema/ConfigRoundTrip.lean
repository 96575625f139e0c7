import RegisterBank.Proofs.Construction.StoredOptions
import RegisterBank.Proofs.Construction.Workbench
import RegisterBank.Proofs.Document.RoundTrip
import RegisterBank.Proofs.Schema.MapRoundTrip
import RegisterBank.Schema.ConfigDocument

/-!
# Configurations read back

A written configuration has one entry for each option that is set, those with a
dot in their key inside a table.  Reading sets the options again in the order of
their keys, on top of the defaults.  Each value passes its check once more, and
each option has its own place in the configuration, so the order does not
matter.
-/

namespace RegisterBank.Schema

open RegisterBank.Document

/-! ## The tree of a configuration -/

/-- The tree that stands for an option's value. -/
def valueTree : SettingValue → Tree
  | .int value => intTree value
  | .text value => .text value
  | .negative value => .int value

/-- An entry for an option that is set. -/
def optionEntry (config : Configuration) (setting : Setting) (key : String) : List (String × Tree) :=
  match config.value? setting with
  | some value => [(key, valueTree value)]
  | none => []

/-- The entries of a configuration, in the order of their keys on both levels. -/
def configEntries (config : Configuration) : List (String × Tree) :=
  optionEntry config .addressIncrement "address_increment"
    ++ optionEntry config .addressWidth "address_width"
    ++ optionEntry config .dataWidth "data_width"
    ++ [("lb_bridge", .table (optionEntry config .bridge "type"))]
    ++ optionEntry config .name "name"
    ++ [("naming", .table (optionEntry config .namingCase "case"
      ++ optionEntry config .namingPrefix "prefix"))]
    ++ optionEntry config .readFiller "read_filler"
    ++ optionEntry config .registerReset "register_reset"

/-- Options in the order of their keys never meet a value where they need a table. -/
theorem groupAt_values (config : Configuration) :
    config.values.foldlM (fun entries option =>
      groupAt option.1.key (valueTree option.2) option.1.path entries) [] =
        .ok (configEntries config) := by
  obtain ⟨name, dataWidth, addressWidth, increment, registerReset, rawReadFiller, namingPrefix,
    namingCase, protocol⟩ := config
  cases name <;>
    simp [configEntries, optionEntry, Configuration.values, Configuration.value?, Setting.all,
      Setting.path, groupAt, insertEntry, Text.order, Text.orderChars, lookup?, pure, bind,
      Except.pure, Except.bind]

/-- Only the conversion of an integer can fail, and a faithful codec never does. -/
theorem convertValue_eq_ok {codec : Codec} (faithful : codec.Faithful) (key : String)
    (value : SettingValue) : convertValue codec key value = .ok (valueTree value) := by
  cases value with
  | text text => rfl
  | negative value => rfl
  | int value =>
    have converted : codec.convert (intTree value) = .ok (intTree value) := by
      unfold intTree
      by_cases short : value < Nat.pow 2 63
      · rw [if_pos short]
        exact faithful.int value short
      · rw [if_neg short]
        exact faithful.text _
    unfold convertValue valueTree
    simp only [converted]
    rfl

/-- The options of a configuration are grouped without a clash. -/
theorem configTree_eq_ok {codec : Codec} (faithful : codec.Faithful) (config : Configuration) :
    configTree codec config = .ok (.table (configEntries config)) := by
  have grouped : groupOption codec = fun entries option =>
      groupAt option.1.key (valueTree option.2) option.1.path entries := by
    funext entries option
    unfold groupOption
    simp only [convertValue_eq_ok faithful, ok_bind]
  unfold configTree
  rw [grouped, groupAt_values]
  rfl

theorem sorted_valueTree (value : SettingValue) : (valueTree value).sorted = valueTree value := by
  cases value with
  | int value => exact sorted_intTree value
  | text => rfl
  | negative => rfl

/-- The entries are written in the order in which a reader lists them. -/
theorem sorted_configEntries (config : Configuration) :
    (Tree.table (configEntries config)).sorted = .table (configEntries config) := by
  obtain ⟨name, dataWidth, addressWidth, increment, registerReset, rawReadFiller, namingPrefix,
    namingCase, protocol⟩ := config
  cases name <;>
    simp [configEntries, optionEntry, Configuration.value?, Tree.sorted, sortedEntries,
      sorted_valueTree, Tree.ofEntries, insertEntry, Text.order, Text.orderChars]

/-! ## Reading the leaves of the tree -/

/-- The options in the order of their keys. -/
def keyOrder : List Setting :=
  [.addressIncrement, .addressWidth, .dataWidth, .bridge, .name, .namingCase, .namingPrefix,
    .readFiller, .registerReset]

/-- The values of options are no negative numbers and stand on a line. -/
theorem inline_valueTree {kind : SettingKind} {value : SettingValue} (admitted : kind.Admits value) :
    (valueTree value).Inline := by
  cases value with
  | int value => exact inline_intTree value
  | text text => exact .text text
  | negative value => cases kind <;> cases admitted

theorem leavesUnder_inline {tree : Tree} (inline : tree.Inline) (key : String) :
    leavesUnder key tree = [(key, tree)] := by
  cases inline with
  | bool => rfl
  | int => rfl
  | text => rfl
  | list => rfl

section Valid

variable {config : Configuration}

theorem leaves_optionEntry (valid : config.Valid) (setting : Setting) (outer key : String) :
    leaves outer (optionEntry config setting key) =
      optionEntry config setting (joinKey outer key) := by
  unfold optionEntry
  cases given : config.value? setting with
  | none => rfl
  | some value =>
    have inline := inline_valueTree (valid.admits given)
    show leavesUnder (joinKey outer key) (valueTree value) ++ [] = _
    rw [leavesUnder_inline inline, List.append_nil]

theorem leaves_append (outer : String) (entries others : List (String × Tree)) :
    leaves outer (entries ++ others) = leaves outer entries ++ leaves outer others := by
  induction entries with
  | nil => rfl
  | cons entry rest ih =>
    rw [List.cons_append, leaves, leaves, ih, List.append_assoc]

theorem leaves_table (outer key : String) (entries : List (String × Tree)) :
    leaves outer [(key, .table entries)] = leaves (joinKey outer key) entries := by
  rw [leaves, leaves, List.append_nil, leavesUnder]

/-- The tables of a configuration hold its options under their keys. -/
theorem leaves_configEntries (valid : config.Valid) :
    leaves "" (configEntries config) =
      keyOrder.flatMap fun setting => optionEntry config setting setting.key := by
  unfold configEntries keyOrder
  simp only [leaves_append, leaves_table, leaves_optionEntry valid, List.flatMap_cons,
    List.flatMap_nil, List.append_nil, List.append_assoc]
  rfl

/-! ## Setting the leaves -/

/-- The value of a kind is read back from its tree. -/
theorem settingValue_valueTree {kind : SettingKind} {value : SettingValue} (key : String)
    (admitted : kind.Admits value) (small : ∀ number, value = .int number → number < Nat.pow 2 64) :
    settingValue key kind (valueTree value) = .ok value := by
  have read (number : Nat) (same : value = .int number) :
      unsigned? (intTree number) = some number := unsigned?_intTree (small number same)
  cases kind <;> cases value <;> simp only [SettingKind.Admits] at admitted
  case identifier.text => rfl
  case wordChoice.text => rfl
  case intChoice.int choices number =>
    unfold settingValue valueTree
    rw [read number rfl]
  case intRange.int least greatest number =>
    unfold settingValue valueTree
    rw [read number rfl]
  case increment.text text =>
    rw [admitted]
    rfl
  case increment.int number =>
    obtain ⟨exponent, few, power⟩ := Configuration.exists_pow_of_isStride admitted
    have short : number < Nat.pow 2 63 := by
      rw [power]
      exact Nat.pow_lt_pow_right (by decide) (by omega)
    have number : intTree number = .int number := if_pos short
    unfold settingValue valueTree
    simp only [number]
    rfl

theorem value_lt (valid : config.Valid) {setting : Setting} {value : SettingValue}
    (given : config.value? setting = some value) (number : Nat) (same : value = .int number) :
    number < Nat.pow 2 64 := by
  have admitted := valid.admits given
  rw [same] at admitted
  cases setting <;> simp only [Setting.kind, SettingKind.Admits] at admitted
  case dataWidth =>
    simp only [List.mem_cons, List.not_mem_nil, or_false] at admitted
    rcases admitted with rfl | rfl | rfl | rfl <;> decide
  case addressWidth =>
    exact Nat.lt_of_le_of_lt admitted.2 (by decide)
  case addressIncrement =>
    obtain ⟨exponent, few, power⟩ := Configuration.exists_pow_of_isStride admitted
    rw [power]
    exact Nat.pow_lt_pow_right (by decide) (by omega)
  case readFiller => exact Nat.lt_of_le_of_lt admitted.2 (by decide)

/-- Reading the entry of an option stores the option's value. -/
theorem setLeaf_value (valid : config.Valid) {setting : Setting} {value : SettingValue}
    (given : config.value? setting = some value) (current : Configuration) :
    setLeaf current (setting.key, valueTree value) = .ok (current.store setting value) := by
  have admitted := valid.admits given
  unfold setLeaf Configuration.set
  simp only [ofKey?_key, settingValue_valueTree setting.key admitted (value_lt valid given),
    ok_bind, SettingKind.check_of_admits admitted]

/-- A configuration with some options taken from another. -/
def withOptions (current target : Configuration) (settings : List Setting) : Configuration :=
  settings.foldl (fun current setting =>
    match target.value? setting with
    | some value => current.store setting value
    | none => current) current

theorem foldlM_setLeaf (valid : config.Valid) (settings : List Setting) (current : Configuration) :
    (settings.flatMap fun setting => optionEntry config setting setting.key).foldlM setLeaf current =
      .ok (withOptions current config settings) := by
  induction settings generalizing current with
  | nil => rfl
  | cons setting rest ih =>
    rw [List.flatMap_cons, List.foldlM_append]
    unfold optionEntry withOptions
    cases given : config.value? setting with
    | none =>
      simp only [List.foldlM_nil, List.foldl_cons, given]
      exact ih current
    | some value =>
      simp only [List.foldlM_cons, List.foldlM_nil, List.foldl_cons, given,
        setLeaf_value valid given, ok_bind]
      exact ih _

/-- All options together make up a configuration, whatever they are stored on, if
a name is. -/
theorem withOptions_keyOrder (config : Configuration) :
    withOptions .default config keyOrder = config := by
  have bridge := ofWord?_bridgeWord config
  obtain ⟨name, dataWidth, addressWidth, increment, registerReset, rawReadFiller, namingPrefix,
    namingCase, protocol⟩ := config
  cases name <;> cases increment <;>
    simp [withOptions, keyOrder, Configuration.value?, Configuration.store, ofWord?_resetStyle,
      ofWord?_namingCase, bridge, Configuration.default]

/-! ## The tree has a place for every table -/

theorem mem_optionEntry {setting : Setting} {key : String} {entry : String × Tree}
    (listed : entry ∈ optionEntry config setting key) :
    entry.1 = key ∧ ∃ value, config.value? setting = some value ∧ entry.2 = valueTree value := by
  unfold optionEntry at listed
  cases given : config.value? setting with
  | none =>
    rw [given] at listed
    cases listed
  | some value =>
    rw [given] at listed
    obtain rfl := List.mem_singleton.mp listed
    exact ⟨rfl, value, rfl, rfl⟩

theorem placed_optionEntry (valid : config.Valid) {setting : Setting} {key : String}
    {entry : String × Tree} (listed : entry ∈ optionEntry config setting key) : entry.2.Placed := by
  obtain ⟨-, value, given, tree⟩ := mem_optionEntry listed
  rw [tree]
  exact .inline (inline_valueTree (valid.admits given))

/-- Tables whose keys are some of a list of bare keys. -/
theorem soundKeys_of_sublist {entries : List (String × Tree)} (keys : List String)
    (named : (entries.map Prod.fst).Sublist keys) (bare : ∀ key ∈ keys, IsBare key)
    (nodup : keys.Nodup) : SoundKeys entries :=
  .of_keys (entries.map Prod.fst) rfl (fun key listed => bare key (named.subset listed))
    (nodup.sublist named)

theorem keys_optionEntry (setting : Setting) (key : String) :
    ((optionEntry config setting key).map Prod.fst).Sublist [key] := by
  unfold optionEntry
  cases config.value? setting with
  | none => exact List.nil_sublist _
  | some value => exact List.Sublist.refl _

theorem placed_configEntries (valid : config.Valid) : (Tree.table (configEntries config)).Placed := by
  have bridge : (Tree.table (optionEntry config .bridge "type")).Placed :=
    .table (soundKeys_of_sublist [_] (keys_optionEntry _ _) (by decide) (by decide))
      fun entry listed => placed_optionEntry valid listed
  have naming : (Tree.table (optionEntry config .namingCase "case"
      ++ optionEntry config .namingPrefix "prefix")).Placed := by
    refine .table (soundKeys_of_sublist ["case", "prefix"] ?_ (by decide) (by decide)) ?_
    · rw [List.map_append]
      exact (keys_optionEntry _ _).append (keys_optionEntry _ _)
    · intro entry listed
      rcases List.mem_append.mp listed with listed | listed
      · exact placed_optionEntry valid listed
      · exact placed_optionEntry valid listed
  refine .table (soundKeys_of_sublist
    ["address_increment", "address_width", "data_width", "lb_bridge", "name", "naming",
      "read_filler", "register_reset"] ?_ (by decide) (by decide)) ?_
  · unfold configEntries
    simp only [List.map_append, List.append_assoc]
    exact (keys_optionEntry _ _).append ((keys_optionEntry _ _).append
      ((keys_optionEntry _ _).append ((List.Sublist.refl ["lb_bridge"]).append
        ((keys_optionEntry _ _).append ((List.Sublist.refl ["naming"]).append
          ((keys_optionEntry _ _).append (keys_optionEntry _ _)))))))
  · intro entry listed
    unfold configEntries at listed
    simp only [List.mem_append, List.mem_singleton] at listed
    rcases listed with ((((((listed | listed) | listed) | rfl) | listed) | rfl) | listed) | listed
    · exact placed_optionEntry valid listed
    · exact placed_optionEntry valid listed
    · exact placed_optionEntry valid listed
    · exact bridge
    · exact placed_optionEntry valid listed
    · exact naming
    · exact placed_optionEntry valid listed
    · exact placed_optionEntry valid listed

theorem entriesDepth_append (entries others : List (String × Tree)) :
    entriesDepth (entries ++ others) = max (entriesDepth entries) (entriesDepth others) := by
  induction entries with
  | nil => exact (Nat.zero_max _).symm
  | cons entry rest ih => rw [List.cons_append, entriesDepth, entriesDepth, ih, Nat.max_assoc]

theorem depth_optionEntry (setting : Setting) (key : String) :
    entriesDepth (optionEntry config setting key) = 0 := by
  have flat (value : SettingValue) : (valueTree value).depth = 0 := by
    cases value with
    | int value => exact depth_intTree value
    | text => rfl
    | negative => rfl
  unfold optionEntry
  cases config.value? setting with
  | none => rfl
  | some value => simp only [entriesDepth, flat, Nat.max_self]

theorem depth_configEntries (config : Configuration) :
    (Tree.table (configEntries config)).depth = 2 := by
  simp only [Tree.depth, configEntries, entriesDepth_append, entriesDepth, depth_optionEntry]
  rfl

theorem isDocument_configEntries (valid : config.Valid) :
    (Tree.table (configEntries config)).IsDocument where
  table := rfl
  placed := placed_configEntries valid
  shallow := by
    rw [depth_configEntries]
    decide

/-- The entries of a valid configuration describe it. -/
theorem readConfigTree_configEntries (valid : config.Valid) (document : String) :
    readConfigTree document (.table (configEntries config)) = .ok config := by
  unfold readConfigTree
  simp only [ok_bind, expectTable, leaves_configEntries valid, foldlM_setLeaf valid,
    withOptions_keyOrder]

end Valid

/-! ## Round trips -/

/-- **A configuration is read back from its document.**  A faithful codec writes
what setting options led to: no option clashes with a value, every format holds
the values, and the configuration is read from the text. -/
theorem readConfig_writeConfig {config : Configuration} (reachable : config.Reachable)
    {codec : Codec} (faithful : codec.Faithful) (format : Format) (document : String) :
    ∃ tree text, configTree codec config = .ok tree ∧ tree.Plain ∧
      writeConfig codec format config = .ok text ∧
      readConfig codec format text document = .ok config := by
  have valid := reachable.valid
  have grouped := configTree_eq_ok faithful config
  obtain ⟨text, rendered, read⟩ := faithful.render format (isDocument_configEntries valid)
  refine ⟨_, text, grouped, plain_of_placed (placed_configEntries valid), ?_, ?_⟩
  · unfold writeConfig renderTree
    rw [grouped, ok_bind, rendered]
    rfl
  · rw [sorted_configEntries] at read
    unfold readConfig readTree
    rw [read, ok_bind]
    exact readConfigTree_configEntries valid document

/-- The calls that make a configuration without a name and without a prefix, whose
stride is a number and whose filler is above the signed integers. -/
def oddCalls : List Workbench.Call :=
  [.newConfiguration, .setOption 0 "data_width" (.int 64),
    .setOption 0 "address_increment" (.int 16),
    .setOption 0 "read_filler" (.int (Nat.pow 2 64 - 1)),
    .setOption 0 "naming.prefix" (.text ""), .setOption 0 "lb_bridge.type" (.text "axil")]

/-- The configuration that these calls make. -/
def oddConfig : Configuration := (Workbench.empty.run oddCalls).configurations.headD .default

theorem readConfig_writeConfig_odd : oddConfig.Reachable ∧ Codec.standard.Faithful ∧
    oddConfig.name = none ∧ oddConfig.increment = .bytes 16 ∧ 2 ^ 63 ≤ oddConfig.rawReadFiller ∧
    ∃ tree text, configTree .standard oddConfig = .ok tree ∧ tree.Plain ∧
      writeConfig .standard .toml oddConfig = .ok text ∧
      readConfig .standard .toml text "config.toml" = .ok oddConfig := by
  have reachable : oddConfig.Reachable := by
    have listed : (Workbench.empty.run oddCalls).configurations = [oddConfig] := rfl
    refine (Workbench.Built.empty.run oddCalls).configurations oddConfig ?_
    rw [listed]
    exact List.mem_singleton_self _
  have faithful := Codec.faithful_standard
  have wide : 2 ^ 63 ≤ oddConfig.rawReadFiller := by decide
  exact ⟨reachable, faithful, rfl, rfl, wide,
    readConfig_writeConfig reachable faithful .toml "config.toml"⟩

end RegisterBank.Schema
