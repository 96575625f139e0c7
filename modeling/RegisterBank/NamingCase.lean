import RegisterBank.Text.SnakeCase

/-!
# Naming cases

The case convention that is applied to the names of hardware-side ports.
-/

namespace RegisterBank

/-- A case convention. -/
inductive NamingCase where
  | keep
  | lower
  | upper
  | snake
  deriving DecidableEq, Repr

namespace NamingCase

/-- Every convention, in the order in which the choices are listed. -/
def all : List NamingCase := [keep, lower, upper, snake]

/-- The word a document uses for the convention. -/
def word : NamingCase → String
  | .keep => "keep"
  | .lower => "lower"
  | .upper => "upper"
  | .snake => "snake"

/-- The convention a document names. -/
def ofWord? (word : String) : Option NamingCase := all.find? fun case => case.word == word

/-- `name` in the convention. -/
def apply (convention : NamingCase) (name : String) : String :=
  match convention with
  | .keep => name
  | .lower => Text.lowerCase name
  | .upper => Text.upperCase name
  | .snake => Text.snakeCase name

end NamingCase

end RegisterBank
