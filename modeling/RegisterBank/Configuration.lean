import RegisterBank.Bits
import RegisterBank.Error
import RegisterBank.Text.Identifier

/-!
# Configurations

A configuration holds a value for each option.  Values are checked when they
are set, so what is derived from them needs no check of its own.  The address
increment is either a number of bytes or follows the data width.
-/

namespace RegisterBank

/-- The stride between registers as it is configured. -/
inductive Increment where
  /-- The bytes of the data bus. -/
  | dataBytes
  | bytes (count : Nat)
  deriving DecidableEq, Repr

/-- A value for each option. -/
structure Configuration where
  /-- Base name of generated outputs. -/
  name : Option String
  /-- Bus data width in bits. -/
  dataWidth : Nat
  /-- Bus address width in bits. -/
  addressWidth : Nat
  increment : Increment
  registerReset : ResetStyle
  /-- Value of unmapped addresses and of bits that cannot be read, before it is
  cut to the data width. -/
  rawReadFiller : Nat
  namingPrefix : String
  namingCase : NamingCase
  /-- The bus family to generate a bridge for, if any. -/
  protocol : Option Bus.Protocol
  deriving DecidableEq, Repr

/-- The word that makes the increment follow the data width. -/
def Increment.followWord : String := "data_width"

/-- Whether `value` is a power of two up to 4096. -/
def isStride (value : Nat) : Bool := (List.range 13).any fun exponent => Nat.pow 2 exponent == value

namespace SettingKind

/-- Whether a value of the option `key` is of the kind. -/
def check (key : String) (kind : SettingKind) (value : SettingValue) : Result Unit :=
  match kind, value with
  | .identifier allowEmpty, .text text =>
    if Text.isIdentifier text || (allowEmpty && text.isEmpty) then .ok ()
    else configError (.notIdentifier key text)
  | .intChoice choices, .int value =>
    if choices.contains value then .ok () else configError (.notAmongIntegers key choices value)
  | .intRange least greatest, .int value =>
    if least ≤ value ∧ value ≤ greatest then .ok ()
    else configError (.notWithin key least greatest value)
  | .wordChoice choices, .text text =>
    if choices.contains text then .ok () else configError (.notAmongWords key choices text)
  | .increment, .text text =>
    if text = Increment.followWord then .ok () else configError (.badIncrementWord key text)
  | .increment, .int value =>
    if isStride value then .ok () else configError (.badIncrement key value)
  | _, .negative value => configError (.negative key value)
  | kind, value => configError (.wrongType key kind value)

end SettingKind

namespace Configuration

/-- The documented defaults. -/
def default : Configuration where
  name := none
  dataWidth := 32
  addressWidth := 16
  increment := .dataBytes
  registerReset := .syncPositive
  rawReadFiller := 0
  namingPrefix := "csr_"
  namingCase := .lower
  protocol := none

instance : Inhabited Configuration := ⟨default⟩

/-! ## Values of options -/

/-- The word for the bus family, or for none. -/
def bridgeWord (config : Configuration) : String :=
  match config.protocol with
  | some protocol => protocol.word
  | none => "none"

/-- The value of an option, if it is set. -/
def value? (config : Configuration) : Setting → Option SettingValue
  | .name => config.name.map .text
  | .dataWidth => some (.int config.dataWidth)
  | .addressWidth => some (.int config.addressWidth)
  | .addressIncrement =>
    some (match config.increment with
      | .dataBytes => .text Increment.followWord
      | .bytes count => .int count)
  | .registerReset => some (.text config.registerReset.word)
  | .readFiller => some (.int config.rawReadFiller)
  | .namingPrefix => some (.text config.namingPrefix)
  | .namingCase => some (.text config.namingCase.word)
  | .bridge => some (.text (bridgeWord config))

/-- The configuration with an option's value stored.  A value that is not of
the option's kind changes nothing. -/
def store (config : Configuration) : Setting → SettingValue → Configuration
  | .name, .text text => { config with name := some text }
  | .dataWidth, .int value => { config with dataWidth := value }
  | .addressWidth, .int value => { config with addressWidth := value }
  | .addressIncrement, .text _ => { config with increment := .dataBytes }
  | .addressIncrement, .int value => { config with increment := .bytes value }
  | .registerReset, .text word =>
    { config with registerReset := (ResetStyle.ofWord? word).getD config.registerReset }
  | .readFiller, .int value => { config with rawReadFiller := value }
  | .namingPrefix, .text text => { config with namingPrefix := text }
  | .namingCase, .text word =>
    { config with namingCase := (NamingCase.ofWord? word).getD config.namingCase }
  | .bridge, .text word => { config with protocol := Bus.Protocol.ofWord? word }
  | _, _ => config

/-- The configuration with an option set.  The key and the value are checked,
in this order. -/
def set (config : Configuration) (key : String) (value : SettingValue) :
    Result Configuration :=
  match Setting.ofKey? key with
  | none => .error (.schema (.named key) (.unknownOption key))
  | some setting =>
    match setting.kind.check key value with
    | .ok () => .ok (config.store setting value)
    | .error error => .error error

/-- The value under a key, if the key is known and the option is set. -/
def get? (config : Configuration) (key : String) : Option SettingValue :=
  (Setting.ofKey? key).bind config.value?

/-- The options that are set, in listing order, with their values. -/
def values (config : Configuration) : List (Setting × SettingValue) :=
  Setting.all.filterMap fun setting => (config.value? setting).map fun value => (setting, value)

/-! ## Derived values -/

/-- Bus data width in bytes. -/
def dataBytes (config : Configuration) : Nat := config.dataWidth / 8

/-- Byte stride between registers. -/
def addressIncrement (config : Configuration) : Nat :=
  match config.increment with
  | .dataBytes => config.dataBytes
  | .bytes count => count

/-- The filler value, cut to the data width. -/
def readFiller (config : Configuration) : Nat :=
  config.rawReadFiller &&& Bits.ones config.dataWidth

end Configuration

end RegisterBank
