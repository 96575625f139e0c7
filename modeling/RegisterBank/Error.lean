import RegisterBank.Access
import RegisterBank.BitRange
import RegisterBank.Document.Format
import RegisterBank.Document.Place
import RegisterBank.Setting

/-!
# Errors

Why an operation fails, by cause.  Four groups of causes are told apart: a text
that is no document, a document that does not follow its schema, a register map
that cannot be, and a configuration or a word that is not known.  A fifth comes
from the file store, a sixth from the libraries that print documents.  The
wording of each cause stands in its `message`; a value of a document is shown in
the words of the codec.
-/

namespace RegisterBank

open RegisterBank.Document

/-! ## Documents that do not follow their schema -/

/-- What is wrong at a place of a document. -/
inductive SchemaProblem where
  | unknownOption (key : String)
  | unknownAttribute (key : String) (allowed : List String)
  | missingAttribute (key : String)
  | wrongKind (expected : String) (found : Tree)
  | notUnsigned (found : Tree)
  | outOfRange (value : Nat)

/-- The problem in words. -/
def SchemaProblem.message (codec : Codec) : SchemaProblem → String
  | .unknownOption key => s!"unknown configuration option '{key}'"
  | .unknownAttribute key allowed =>
    s!"unknown attribute '{key}' (expected one of " ++ ", ".intercalate allowed ++ ")"
  | .missingAttribute key => s!"missing required attribute '{key}'"
  | .wrongKind expected found => s!"expected {expected}, found {found.kind}"
  | .notUnsigned found => s!"expected a non-negative integer, found {codec.shown found}"
  | .outOfRange value => s!"{value} is out of range"

/-! ## Register maps that cannot be -/

/-- What a generated signal belongs to. -/
inductive SignalOwner where
  | clockAndReset
  | busInterface (title : String)
  | busBridge
  | register (name : String)
  | field (register field : String)
  deriving DecidableEq, Repr

/-- The owner in words. -/
def SignalOwner.text : SignalOwner → String
  | .clockAndReset => "the clock/reset"
  | .busInterface title => s!"the {title} interface"
  | .busBridge => "the bus bridge"
  | .register name => s!"register '{name}'"
  | .field owner inner => s!"bit field '{owner}.{inner}'"

/-- A rule of bit fields, registers, maps or bridges that is broken. -/
inductive Conflict where
  | fieldName (name : String)
  | zeroWidth (field : String)
  | fieldTooWide (field : String) (lsb width : Nat)
  | initialTooLarge (field : String) (initial width : Nat)
  | needsWritable (modifier : Modifier) (field : String) (access : Access)
  | needsReadable (modifier : Modifier) (field : String) (access : Access)
  | exclusiveModifiers (field : String) (first second : Modifier)
  | initialReverts (field : String) (initial : Nat)
  | registerName (name : String)
  | duplicateField (register field : String)
  | fieldsOverlap (register added : String) (addedBits : BitRange) (other : String)
      (otherBits : BitRange)
  | duplicateRegister (name : String)
  | fieldExceedsBus (register field : String) (bits : BitRange) (dataWidth : Nat)
  | misaligned (register : String) (address increment : Nat)
  | addressTooLarge (register : String) (address addressWidth : Nat)
  | sharedAddress (first second : String) (address : Nat)
  | noAddressLeft (register : String) (highest : Nat)
  | sameAddress (first second : String) (address addressWidth : Nat)
  | widthMismatch (resolved configured : Nat)
  | unsupportedWidth (title : String) (dataWidth : Nat) (supported : List Nat)
  | incrementTooSmall (increment dataBytes : Nat)
  | keywordSignal (name : String) (owner : SignalOwner)
  | signalCollision (name : String) (owner first : SignalOwner)
  deriving DecidableEq, Repr

/-- The conflict in words. -/
def Conflict.message : Conflict → String
  | .fieldName name => s!"bit field name '{name}' is not a valid identifier"
  | .zeroWidth field => s!"bit field '{field}' has zero width"
  | .fieldTooWide field lsb width =>
    s!"bit field '{field}' [{lsb + width - 1}:{lsb}] exceeds {Bits.wordWidth} bits"
  | .initialTooLarge field initial width =>
    s!"initial value {Text.hexPlain initial} of bit field '{field}' does not fit in "
      ++ s!"{width} bit(s)"
  | .needsWritable modifier field access =>
    s!"'{modifier.word}' needs a writable field, '{field}' is {access.word}"
  | .needsReadable modifier field access =>
    s!"'{modifier.word}' needs a readable field, '{field}' is {access.word}"
  | .exclusiveModifiers field first second =>
    s!"bit field '{field}' cannot combine modifiers '{first.word}' and '{second.word}'"
  | .initialReverts field initial =>
    s!"bit field '{field}' reverts to zero and cannot have initial value "
      ++ Text.hexPlain initial
  | .registerName name => s!"register name '{name}' is not a valid identifier"
  | .duplicateField register field =>
    s!"register '{register}' already has a bit field named '{field}'"
  | .fieldsOverlap register added addedBits other otherBits =>
    s!"bit field '{added}' {addedBits.text} overlaps bit field '{other}' {otherBits.text} "
      ++ s!"in register '{register}'"
  | .duplicateRegister name => s!"register map already has a register named '{name}'"
  | .fieldExceedsBus register field bits dataWidth =>
    s!"bit field '{field}' {bits.text} of register '{register}' exceeds the "
      ++ s!"{dataWidth}-bit bus"
  | .misaligned register address increment =>
    s!"register '{register}' address {Text.hexPlain address} is not a multiple of {increment}"
  | .addressTooLarge register address addressWidth =>
    s!"register '{register}' address {Text.hexPlain address} exceeds {addressWidth} "
      ++ "address bits"
  | .sharedAddress first second address =>
    s!"registers '{first}' and '{second}' share the address {Text.hexPlain address}"
  | .noAddressLeft register highest =>
    s!"no address left for register '{register}' after {Text.hexPlain highest}"
  | .sameAddress first second address addressWidth =>
    s!"registers '{first}' and '{second}' both resolve to address "
      ++ Text.hexAddress address addressWidth
  | .widthMismatch resolved configured =>
    s!"map resolved for a {resolved}-bit bus, bridge configured for {configured} bits"
  | .unsupportedWidth title dataWidth supported =>
    s!"{title} does not support a {dataWidth}-bit data bus (supported: "
      ++ Text.bracketed (supported.map toString) ++ ")"
  | .incrementTooSmall increment dataBytes =>
    s!"address increment {increment} is smaller than the {dataBytes}-byte data bus"
  | .keywordSignal name owner =>
    s!"signal '{name}' generated for {owner.text} is a Verilog keyword"
  | .signalCollision name owner first =>
    s!"signal '{name}' generated for {owner.text} collides with {first.text}"

/-! ## Configurations and words that are not known -/

/-- A value or a word that is not taken. -/
inductive ConfigProblem where
  | notIdentifier (key text : String)
  | notAmongIntegers (key : String) (choices : List Nat) (value : Nat)
  | notWithin (key : String) (least greatest value : Nat)
  | notAmongWords (key : String) (choices : List String) (text : String)
  | badIncrementWord (key text : String)
  | badIncrement (key : String) (value : Nat)
  | negative (key : String) (value : Int)
  | wrongType (key : String) (kind : SettingKind) (value : SettingValue)
  | integerExpected (key : String) (found : Tree)
  | incrementExpected (key : String) (found : Tree)
  | textExpected (key : String) (found : Tree)
  | unknownAccess (word : String)
  | unknownModifier (word : String)
  | unknownResetStyle (word : String)
  | unknownNamingCase (word : String)
  | unknownProtocol (word : String)
  | unknownFormat (path : String)
  | noOutputName
  | fillerTooWide (filler dataWidth : Nat)
  | badModuleName (mapName : String)

/-- The problem in words. -/
def ConfigProblem.message (codec : Codec) : ConfigProblem → String
  | .notIdentifier key text => s!"option '{key}' must be an identifier, got '{text}'"
  | .notAmongIntegers key choices value =>
    s!"option '{key}' must be one of {Text.bracketed (choices.map toString)}, got {value}"
  | .notWithin key least greatest value =>
    s!"option '{key}' must be within {least}..={greatest}, got {value}"
  | .notAmongWords key choices text =>
    s!"option '{key}' must be one of {Text.bracketed (choices.map Text.quoted)}, got '{text}'"
  | .badIncrementWord key text =>
    s!"option '{key}' must be 'data_width' or an integer, got '{text}'"
  | .badIncrement key value =>
    s!"option '{key}' must be a power of two up to 4096, got {value}"
  | .negative key value => s!"option '{key}' must not be negative, got {value}"
  | .wrongType key kind value =>
    s!"option '{key}' has the wrong type: expected {kind.shown}, got {value.typed}"
  | .integerExpected key found =>
    s!"option '{key}' expects a non-negative integer, found {codec.shown found}"
  | .incrementExpected key found =>
    s!"option '{key}' expects 'data_width' or an integer, found {codec.shown found}"
  | .textExpected key found => s!"option '{key}' expects a string, found {found.kind}"
  | .unknownAccess word => s!"unknown access mode '{word}' (expected rw, ro or wo)"
  | .unknownModifier word =>
    s!"unknown modifier '{word}' (expected one of "
      ++ ", ".intercalate (Modifier.all.map Modifier.word) ++ ")"
  | .unknownResetStyle word => s!"unknown reset style '{word}'"
  | .unknownNamingCase word => s!"unknown naming case '{word}'"
  | .unknownProtocol word =>
    s!"unknown bridge type '{word}' (expected one of "
      ++ ", ".intercalate Bus.Protocol.choices ++ ")"
  | .unknownFormat path =>
    s!"cannot infer a document format from '{path}' (expected .json or .toml)"
  | .noOutputName => "no output name: set the 'name' option or read the map from a file"
  | .fillerTooWide filler dataWidth =>
    s!"read_filler {Text.hexPlain filler} does not fit the {dataWidth}-bit data bus"
  | .badModuleName mapName =>
    s!"register map name '{mapName}' cannot be used in a module name"

/-! ## All errors -/

/-- Why a file could not be read or written. -/
inductive FileProblem where
  /-- A store in memory has no file with the path. -/
  | missing
  /-- The file system refuses. -/
  | refused
  deriving DecidableEq, Repr

/-- Why an operation fails. -/
inductive Error where
  | parse (document : String) (position : Text.Position) (reason : String)
  | schema (place : Place) (problem : SchemaProblem)
  | conflict (cause : Conflict)
  | config (problem : ConfigProblem)
  | file (path : String) (problem : FileProblem)
  | render (target reason : String)

/-- The error in words. -/
def Error.message (codec : Codec) : Error → String
  | .parse document position reason =>
    s!"{document}:{position.line}:{position.column}: parse error: {reason}"
  | .schema place problem => s!"schema error at {place.text}: {problem.message codec}"
  | .conflict cause => s!"conflict: {cause.message}"
  | .config problem => s!"configuration error: {problem.message codec}"
  | .file path .missing => s!"I/O error on {path}: no such file"
  | .file path .refused => s!"I/O error on {path}"
  | .render target reason => s!"failed to render {target}: {reason}"

/-- The result of an operation that may fail. -/
abbrev Result (α : Type) := Except Error α

/-- A failure by a conflict. -/
def conflict {α : Type} (cause : Conflict) : Result α := .error (.conflict cause)

/-- A failure by a configuration problem. -/
def configError {α : Type} (problem : ConfigProblem) : Result α := .error (.config problem)

/-- A result, where nothing means a configuration problem. -/
def orConfigError {α : Type} (problem : ConfigProblem) : Option α → Result α
  | some value => .ok value
  | none => configError problem

end RegisterBank
