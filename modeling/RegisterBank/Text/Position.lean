/-!
# Positions in a text

A position counts lines and columns from 1; a column counts bytes of the UTF-8
form, and a line ends with its newline byte.
-/

namespace RegisterBank.Text

/-- A line and a column of a text. -/
structure Position where
  line : Nat
  column : Nat
  deriving DecidableEq, Repr

/-- The newline byte. -/
def newlineByte : UInt8 := 10

/-- The position just after the bytes `before`. -/
def positionAfter (before : List UInt8) : Position where
  line := before.count newlineByte + 1
  column := (before.reverse.takeWhile (· != newlineByte)).length + 1

/-- The position of byte `offset`; an offset past the end counts as the end. -/
def lineColumn (text : String) (offset : Nat) : Position :=
  positionAfter (text.toUTF8.toList.take offset)

/-- The bytes of the UTF-8 form of some characters. -/
def byteCount (chars : List Char) : Nat :=
  chars.foldl (fun count char => count + char.utf8Size) 0

end RegisterBank.Text
