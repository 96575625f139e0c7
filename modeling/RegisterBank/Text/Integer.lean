import RegisterBank.Text.Blank

/-!
# Reading integers

An integer is written in decimal, in hexadecimal after `0x`, or in binary after
`0b`, with underscores anywhere between its characters and blanks around it.
The digits may follow one plus sign, and the value must be below `2 ^ 64`.
-/

namespace RegisterBank.Text

/-- The first integer too large to be read. -/
def integerLimit : Nat := Nat.pow 2 64

/-- The value of one digit in `base`. -/
def digitValue? (base : Nat) (c : Char) : Option Nat :=
  let value :=
    if c.isDigit then c.toNat - '0'.toNat
    else if 'a' ≤ c ∧ c ≤ 'f' then c.toNat - 'a'.toNat + 10
    else if 'A' ≤ c ∧ c ≤ 'F' then c.toNat - 'A'.toNat + 10
    else base
  if value < base then some value else none

/-- The value of a run of digits in `base`, continuing from `value`. -/
def digitsValue? (base value : Nat) : List Char → Option Nat
  | [] => some value
  | c :: rest =>
    match digitValue? base c with
    | some digit => digitsValue? base (value * base + digit) rest
    | none => none

/-- One or more digits in `base`, after at most one plus sign, below the limit. -/
def unsignedValue? (base : Nat) (text : List Char) : Option Nat :=
  let digits := match text with
    | '+' :: rest => rest
    | other => other
  if digits.isEmpty then none
  else match digitsValue? base 0 digits with
    | some value => if value < integerLimit then some value else none
    | none => none

/-- The base that the first two characters announce, with the text after them. -/
def splitBase : List Char → Nat × List Char
  | '0' :: 'x' :: rest => (16, rest)
  | '0' :: 'X' :: rest => (16, rest)
  | '0' :: 'b' :: rest => (2, rest)
  | '0' :: 'B' :: rest => (2, rest)
  | text => (10, text)

/-- The integer that `text` writes. -/
def integer? (text : String) : Option Nat :=
  let (base, digits) := splitBase ((trimBlanks text.toList).filter (· != '_'))
  unsignedValue? base digits

end RegisterBank.Text
