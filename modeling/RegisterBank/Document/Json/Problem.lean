/-!
# What can be wrong with a JSON text

The causes for which reading a JSON text stops, with their wording.
-/

namespace RegisterBank.Document.Json

/-- Why a text is not JSON. -/
inductive Problem where
  | endInList
  | endInObject
  | endInText
  | endInValue
  | colonExpected
  | listEndExpected
  | objectEndExpected
  | wordExpected
  | valueExpected
  | badEscape
  | badNumber
  | numberTooLarge
  | controlInText
  | keyNotText
  | loneSurrogate
  | trailingComma
  | trailingCharacters
  | surrogateCut
  | tooDeep
  deriving DecidableEq, Repr

/-- The problem in words. -/
def Problem.message : Problem → String
  | .endInList => "EOF while parsing a list"
  | .endInObject => "EOF while parsing an object"
  | .endInText => "EOF while parsing a string"
  | .endInValue => "EOF while parsing a value"
  | .colonExpected => "expected `:`"
  | .listEndExpected => "expected `,` or `]`"
  | .objectEndExpected => "expected `,` or `\x7d`"
  | .wordExpected => "expected ident"
  | .valueExpected => "expected value"
  | .badEscape => "invalid escape"
  | .badNumber => "invalid number"
  | .numberTooLarge => "number out of range"
  | .controlInText => "control character (\\u0000-\\u001F) found while parsing a string"
  | .keyNotText => "key must be a string"
  | .loneSurrogate => "lone leading surrogate in hex escape"
  | .trailingComma => "trailing comma"
  | .trailingCharacters => "trailing characters"
  | .surrogateCut => "unexpected end of hex escape"
  | .tooDeep => "recursion limit exceeded"

end RegisterBank.Document.Json
