import RegisterBank.Configuration
import RegisterBank.Schema.Expect

/-!
# Configuration documents

The document of a configuration is a table of options.  A dot in an option's
key stands for a level of nesting, and a document may use either, so tables are
flattened to keys with dots before their values are set on top of the defaults.
Writing groups the options into tables, and refuses an option whose key leads
through the value of another.
-/

namespace RegisterBank.Schema

open RegisterBank.Document

/-! ## Reading -/

/-- The key of an entry inside a table that `outer` leads to. -/
def joinKey (outer key : String) : String := if outer = "" then key else s!"{outer}.{key}"

mutual

/-- The values under a key: what tables hold, at any depth. -/
def leavesUnder (key : String) : Tree → List (String × Tree)
  | .table entries => leaves key entries
  | value => [(key, value)]

/-- The values in a table, each under its key with dots, in key order on every
level. -/
def leaves (outer : String) : List (String × Tree) → List (String × Tree)
  | [] => []
  | (key, value) :: rest => leavesUnder (joinKey outer key) value ++ leaves outer rest

end

/-- The value for an option of a kind that a document's value stands for. -/
def settingValue (key : String) (kind : SettingKind) (found : Tree) : Result SettingValue :=
  match kind, found with
  | .intChoice _, _ | .intRange _ _, _ =>
    match unsigned? found with
    | some value => .ok (.int value)
    | none => configError (.integerExpected key found)
  | .increment, _ =>
    if found.text? = some Increment.followWord then .ok (.text Increment.followWord)
    else
      match unsigned? found with
      | some value => .ok (.int value)
      | none => configError (.incrementExpected key found)
  | .identifier _, .text value | .wordChoice _, .text value => .ok (.text value)
  | _, _ => configError (.textExpected key found)

/-- A configuration with one value of a document set. -/
def setLeaf (config : Configuration) (leaf : String × Tree) : Result Configuration :=
  match Setting.ofKey? leaf.1 with
  | none => fault (.named leaf.1) (.unknownOption leaf.1)
  | some setting => do config.set leaf.1 (← settingValue leaf.1 setting.kind leaf.2)

/-- The configuration that a tree describes, on top of the defaults. -/
def readConfigTree (document : String) (tree : Tree) : Result Configuration := do
  let root ← expectTable (.named document) tree
  (leaves "" root).foldlM setLeaf .default

/-- The configuration that a text describes.  The document's name stands in
errors. -/
def readConfig (codec : Codec) (format : Format) (text document : String) :
    Result Configuration := do
  readConfigTree document (← readTree codec format text document)

/-! ## Writing -/

/-- The tree of an option's value.  Integers are converted by the codec. -/
def convertValue (codec : Codec) (key : String) : SettingValue → Result Tree
  | .int value => (codec.convert (intTree value)).mapError (.render key)
  | .text value => .ok (.text value)
  | .negative value => .ok (.int value)

/-- The entries with the value of an option put under a path of keys, in key
order on every level.  A value that stands where a table is needed is a clash. -/
def groupAt (key : String) (value : Tree) :
    List String → List (String × Tree) → Result (List (String × Tree))
  | [], entries => .ok entries
  | [last], entries => .ok (insertEntry last value entries)
  | part :: next :: path, entries =>
    match lookup? part entries with
    | none => do
      return insertEntry part (.table (← groupAt key value (next :: path) [])) entries
    | some (.table inner) => do
      return insertEntry part (.table (← groupAt key value (next :: path) inner)) entries
    | some _ => .error (.render "configuration" s!"option '{key}' clashes with a value")

/-- The entries with an option of a configuration put in its place. -/
def groupOption (codec : Codec) (entries : List (String × Tree))
    (option : Setting × SettingValue) : Result (List (String × Tree)) := do
  let key := option.1.key
  groupAt key (← convertValue codec key option.2) option.1.path entries

/-- The tree of a configuration. -/
def configTree (codec : Codec) (config : Configuration) : Result Tree := do
  return .table (← config.values.foldlM (groupOption codec) [])

/-- The text of a configuration. -/
def writeConfig (codec : Codec) (format : Format) (config : Configuration) : Result String := do
  renderTree codec format (← configTree codec config) "configuration"

end RegisterBank.Schema
