/-!
# Identifiers

Names of registers, bit fields, maps and generated signals follow one rule:
an ASCII letter or an underscore, then ASCII letters, digits and underscores.
-/

namespace RegisterBank.Text

/-- Characters that may start an identifier. -/
def isIdentifierStart (c : Char) : Bool := c.isAlpha || c == '_'

/-- Characters that may continue an identifier. -/
def isIdentifierRest (c : Char) : Bool := c.isAlphanum || c == '_'

/-- The identifier rule over characters. -/
def isIdentifierChars : List Char → Bool
  | [] => false
  | first :: rest => isIdentifierStart first && rest.all isIdentifierRest

/-- Whether `name` is an identifier. -/
def isIdentifier (name : String) : Bool := isIdentifierChars name.toList

end RegisterBank.Text
