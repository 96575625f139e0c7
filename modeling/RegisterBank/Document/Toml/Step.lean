/-!
# Steps of reading TOML

A step of reading works on the characters that are left and gives its result
with the rest, or says where it stopped.  A stop that is not committed leaves
room for another reading from the same place; a committed one ends the whole
reading.

Steps that repeat take fuel.  Each round takes a character at least, so fuel
above the length of the text never ends first.
-/

namespace RegisterBank.Document.Toml

/-- Where a step stopped: the text that was left there, and whether no other
reading may be tried. -/
structure Stop where
  rest : List Char
  committed : Bool
  deriving DecidableEq, Repr

/-- What a step of reading gives. -/
abbrev Step (α : Type) := Except Stop (α × List Char)

/-- A stop at `rest` that leaves room for another reading. -/
def stopAt (rest : List Char) : Stop := ⟨rest, false⟩

/-- A committed stop at `rest`. -/
def failAt (rest : List Char) : Stop := ⟨rest, true⟩

/-- The same stop, committed. -/
def Stop.commit (stop : Stop) : Stop := { stop with committed := true }

/-- A result whose stop is committed. -/
def committed {α : Type} : Except Stop α → Except Stop α
  | .ok result => .ok result
  | .error stop => .error stop.commit

/-! ## Blanks, line ends and comments -/

/-- Blanks within a line. -/
def isBlank (c : Char) : Bool := c == ' ' || c == '\t'

/-- The text from its first character that is not blank. -/
def skipBlanks (text : List Char) : List Char := text.dropWhile isBlank

/-- Characters that may stand in a comment: all but the controls, a tab being
no control here. -/
def isPlain (c : Char) : Bool := c == '\t' || (0x20 ≤ c.toNat && c.toNat != 0x7f)

/-- The text after one line break, if it starts with one. -/
def lineBreak? : List Char → Option (List Char)
  | '\n' :: rest => some rest
  | '\r' :: '\n' :: rest => some rest
  | _ => none

/-- The text after a comment, if it starts with one. -/
def skipComment : List Char → List Char
  | '#' :: rest => rest.dropWhile isPlain
  | text => text

/-- The text after the end of a line: blanks, a comment, and a line break or
the end of the text. -/
def lineEnd (text : List Char) : Except Stop (List Char) :=
  let rest := skipComment (skipBlanks text)
  match lineBreak? rest with
  | some rest => .ok rest
  | none => if rest.isEmpty then .ok [] else .error (stopAt rest)

/-- The text after the line break that must follow.  A byte that starts none
is taken before it is refused. -/
def takeLineBreak (text : List Char) : Except Stop (List Char) :=
  match lineBreak? text, text with
  | some rest, _ => .ok rest
  | none, [] => .error (stopAt [])
  | none, _ :: rest => .error (stopAt rest)

/-- The text after all blanks, line breaks and comments at its start. -/
def skipLines : Nat → List Char → Except Stop (List Char)
  | 0, text => .ok text
  | fuel + 1, text =>
    match skipBlanks text with
    | '#' :: rest =>
      match takeLineBreak (rest.dropWhile isPlain) with
      | .ok rest => skipLines fuel rest
      | .error stop => .error stop
    | '\n' :: rest => skipLines fuel rest
    | '\r' :: rest =>
      match takeLineBreak ('\r' :: rest) with
      | .ok rest => skipLines fuel rest
      | .error stop => .error stop
    | rest => .ok rest

end RegisterBank.Document.Toml
