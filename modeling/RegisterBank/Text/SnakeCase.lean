/-!
# Snake case

`snakeCase` brings a name into lower-case words joined by single underscores.
Three things put an underscore into the result: a leading digit, a run of
separators, and a capital that follows a small letter or a digit.  A last pass
halves every doubled underscore those rules leave behind.
-/

namespace RegisterBank.Text

/-- ASCII blanks and punctuation, the underscore included. -/
def isSeparator (c : Char) : Bool :=
  c == ' ' || c == '\t' || c == '\n' || c == '\x0c' || c == '\r' ||
    (0x21 ≤ c.toNat && c.toNat ≤ 0x2f) || (0x3a ≤ c.toNat && c.toNat ≤ 0x40) ||
    (0x5b ≤ c.toNat && c.toNat ≤ 0x60) || (0x7b ≤ c.toNat && c.toNat ≤ 0x7e)

/-- Whether a word ends between `previous` and `c`: a capital after a small
letter or a digit. -/
def startsWord (previous : Option Char) (c : Char) : Bool :=
  match previous with
  | some p => (p.isLower || p.isDigit) && c.isUpper
  | none => false

/-- The words of a name, given the character before it.  A run of separators
counts as one underscore. -/
def snakeWords (previous : Option Char) : List Char → List Char
  | [] => []
  | c :: rest =>
    if isSeparator c then
      if previous = some '_' then snakeWords (some '_') rest
      else '_' :: snakeWords (some '_') rest
    else if startsWord previous c then '_' :: c.toLower :: snakeWords (some c) rest
    else c.toLower :: snakeWords (some c) rest

/-- Each two adjacent underscores, taken from the left, become one. -/
def halveUnderscores : List Char → List Char
  | '_' :: '_' :: rest => '_' :: halveUnderscores rest
  | c :: rest => c :: halveUnderscores rest
  | [] => []

/-- The underscore that keeps a leading digit from starting the name. -/
def leadingUnderscore : List Char → List Char
  | c :: _ => if c.isDigit then ['_'] else []
  | [] => []

/-- Snake case over characters. -/
def snakeCaseChars (name : List Char) : List Char :=
  halveUnderscores (leadingUnderscore name ++ snakeWords none name)

/-- `name` in snake case. -/
def snakeCase (name : String) : String := String.ofList (snakeCaseChars name.toList)

/-- `name` with its ASCII capitals made small. -/
def lowerCase (name : String) : String := String.ofList (name.toList.map Char.toLower)

/-- `name` with its ASCII small letters made capital. -/
def upperCase (name : String) : String := String.ofList (name.toList.map Char.toUpper)

end RegisterBank.Text
