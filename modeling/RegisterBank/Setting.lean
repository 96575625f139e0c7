import RegisterBank.Bus.Protocol
import RegisterBank.NamingCase
import RegisterBank.Text.Quoted

/-!
# Settings

The options that a configuration holds.  Each has a key, a kind that bounds
its values, a documented default and a line of documentation.
-/

namespace RegisterBank

/-- A value given to an option. -/
inductive SettingValue where
  | int (value : Nat)
  | text (value : String)
  /-- A negative integer.  No option takes one. -/
  | negative (value : Int)
  deriving DecidableEq, Repr

namespace SettingValue

/-- The value as people write it. -/
def display : SettingValue → String
  | .int value => toString value
  | .text value => value
  | .negative value => toString value

/-- The value with its type, a text between quotes. -/
def typed : SettingValue → String
  | .int value => s!"Int({value})"
  | .text value => s!"Str({Text.quoted value})"
  | .negative value => s!"Negative({value})"

end SettingValue

/-- The values an option takes. -/
inductive SettingKind where
  /-- An identifier, or the empty text where that is allowed. -/
  | identifier (allowEmpty : Bool)
  /-- One of some integers. -/
  | intChoice (choices : List Nat)
  /-- An integer between two bounds, both included. -/
  | intRange (least greatest : Nat)
  /-- One of some words. -/
  | wordChoice (choices : List String)
  /-- The word `data_width`, or a power of two up to 4096. -/
  | increment
  deriving DecidableEq, Repr

namespace SettingKind

/-- The kind as messages and listings show it. -/
def shown : SettingKind → String
  | .identifier allowEmpty => "Identifier \x7b allow_empty: " ++ toString allowEmpty ++ " \x7d"
  | .intChoice choices => s!"IntChoice({Text.bracketed (choices.map toString)})"
  | .intRange least greatest => "IntRange \x7b min: " ++ toString least ++ ", max: "
      ++ toString greatest ++ " \x7d"
  | .wordChoice choices => s!"Choice({Text.bracketed (choices.map Text.quoted)})"
  | .increment => "Increment"

end SettingKind

/-- An option of a configuration. -/
inductive Setting where
  | name
  | dataWidth
  | addressWidth
  | addressIncrement
  | registerReset
  | readFiller
  | namingPrefix
  | namingCase
  | bridge
  deriving DecidableEq, Repr

namespace Setting

/-- Every option, in the order in which options are listed. -/
def all : List Setting :=
  [name, dataWidth, addressWidth, addressIncrement, registerReset, readFiller,
    namingPrefix, namingCase, bridge]

/-- The key of the option.  A dot stands for a level of nesting in a document. -/
def key : Setting → String
  | .name => "name"
  | .dataWidth => "data_width"
  | .addressWidth => "address_width"
  | .addressIncrement => "address_increment"
  | .registerReset => "register_reset"
  | .readFiller => "read_filler"
  | .namingPrefix => "naming.prefix"
  | .namingCase => "naming.case"
  | .bridge => "lb_bridge.type"

/-- The keys that lead to the option in a nested document. -/
def path : Setting → List String
  | .name => ["name"]
  | .dataWidth => ["data_width"]
  | .addressWidth => ["address_width"]
  | .addressIncrement => ["address_increment"]
  | .registerReset => ["register_reset"]
  | .readFiller => ["read_filler"]
  | .namingPrefix => ["naming", "prefix"]
  | .namingCase => ["naming", "case"]
  | .bridge => ["lb_bridge", "type"]

/-- The option with a key. -/
def ofKey? (key : String) : Option Setting := all.find? fun setting => setting.key == key

/-- The values the option takes. -/
def kind : Setting → SettingKind
  | .name => .identifier false
  | .dataWidth => .intChoice [8, 16, 32, 64]
  | .addressWidth => .intRange 1 32
  | .addressIncrement => .increment
  | .registerReset => .wordChoice (ResetStyle.all.map ResetStyle.word)
  | .readFiller => .intRange 0 (Nat.pow 2 64 - 1)
  | .namingPrefix => .identifier true
  | .namingCase => .wordChoice (NamingCase.all.map NamingCase.word)
  | .bridge => .wordChoice Bus.Protocol.choices

/-- The value the option has before it is set.  Only the name has none. -/
def default? : Setting → Option SettingValue
  | .name => none
  | .dataWidth => some (.int 32)
  | .addressWidth => some (.int 16)
  | .addressIncrement => some (.text "data_width")
  | .registerReset => some (.text "sync_pos")
  | .readFiller => some (.int 0)
  | .namingPrefix => some (.text "csr_")
  | .namingCase => some (.text "lower")
  | .bridge => some (.text "none")

/-- The default as listings show it. -/
def defaultShown (setting : Setting) : String :=
  match setting.default? with
  | some value => value.typed
  | none => "Unset"

/-- What the option is for. -/
def doc : Setting → String
  | .name => "Base name of generated files; defaults to the register map file name"
  | .dataWidth => "Bus data width in bits"
  | .addressWidth => "Bus address width in bits"
  | .addressIncrement =>
    "Byte stride between registers; 'data_width' uses the bus width in bytes"
  | .registerReset => "Reset style of generated flip-flops"
  | .readFiller => "Value read from unmapped addresses and non-readable bits"
  | .namingPrefix => "Prefix of hardware-side port names"
  | .namingCase => "Case convention of hardware-side port names"
  | .bridge => "Bus protocol of the generated Local Bus bridge, or 'none'"

end Setting

end RegisterBank
