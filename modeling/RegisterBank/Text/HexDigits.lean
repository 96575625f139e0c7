/-!
# Hexadecimal constants

Numbers are shown in lower-case hexadecimal, an underscore between groups of
four digits counted from the right.  Addresses and sized constants are padded
with zeros to the digits their width needs, and one digit at least.
-/

namespace RegisterBank.Text

/-- The hexadecimal digits of `value`, most significant first. -/
def hexDigits (value : Nat) : List Char := Nat.toDigits 16 value

/-- `digits` with zeros in front, up to `count` digits in all. -/
def padDigits (count : Nat) (digits : List Char) : List Char :=
  List.replicate (count - digits.length) '0' ++ digits

/-- An underscore after each digit that has a positive multiple of four digits
to its right. -/
def groupDigits : List Char → List Char
  | [] => []
  | digit :: rest =>
    if rest.length % 4 = 0 ∧ rest ≠ [] then digit :: '_' :: groupDigits rest
    else digit :: groupDigits rest

/-- The hexadecimal digits a `width`-bit number needs, and one at least. -/
def digitCount (width : Nat) : Nat := max 1 ((width + 3) / 4)

/-- The grouped digits of `value`, padded to the digits of `width` bits. -/
def paddedHex (width value : Nat) : String :=
  String.ofList (groupDigits (padDigits (digitCount width) (hexDigits value)))

/-- `value` with the mark of hexadecimal notation, ungrouped. -/
def hexPlain (value : Nat) : String := "0x" ++ String.ofList (hexDigits value)

/-- A constant for people: one decimal digit up to 9, grouped hexadecimal above. -/
def hexConstant (value : Nat) : String :=
  if value > 9 then "0x" ++ String.ofList (groupDigits (hexDigits value)) else toString value

/-- An address on a bus with `width` address bits. -/
def hexAddress (value width : Nat) : String := "0x" ++ paddedHex width value

end RegisterBank.Text
