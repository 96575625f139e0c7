import RegisterBank.Document.Tree
import RegisterBank.Number.Shortest
import RegisterBank.Text.HexDigits

/-!
# Writing TOML

A table is written as lines of keys and values, followed by its sub-tables and
arrays of tables, each under a header with its full path.  A text takes the
first of five forms that can hold it with the fewest escapes.
-/

namespace RegisterBank.Document.Toml

/-! ## Texts -/

/-- Control characters, tab and line break included. -/
def isControl (c : Char) : Bool := c.toNat < 0x20 || c.toNat == 0x7f

/-- The most characters `c` that follow each other in a text. -/
def longestRun (c : Char) : List Char → Nat → Nat
  | [], _ => 0
  | d :: rest, current =>
    if d = c then max (current + 1) (longestRun c rest (current + 1)) else longestRun c rest 0

/-- The forms of a text. -/
inductive TextForm where
  /-- Between double quotes, as it stands. -/
  | basic
  /-- Between single quotes, as it stands. -/
  | literal
  /-- Between three double quotes. -/
  | basicLines
  /-- Between three single quotes, as it stands. -/
  | literalLines
  deriving DecidableEq, Repr

/-- The form in which a text is written. -/
def textForm (text : List Char) : TextForm :=
  let hasBreak := text.contains '\n'
  let hasControl := text.any fun c => isControl c && c != '\t' && c != '\n'
  if !text.contains '\\' && !text.contains '"' && !hasBreak && !hasControl then .basic
  else if !text.contains '\'' && !hasBreak && !hasControl then .literal
  else if !text.contains '\\' && longestRun '"' text 0 < 3 && !hasControl then .basicLines
  else if longestRun '\'' text 0 < 3 && !hasControl then .literalLines
  else if hasBreak then .basicLines
  else .basic

/-- A control character by its code point, in four capital digits. -/
def codePoint (c : Char) : String :=
  "\\u" ++ String.ofList (Text.padDigits 4 ((Text.hexDigits c.toNat).map Char.toUpper))

/-- One character between double quotes, quotes apart. -/
def escapeChar (overLines : Bool) (c : Char) : String :=
  if c = '\x08' then "\\b"
  else if c = '\t' then "\\t"
  else if c = '\n' then (if overLines then "\n" else "\\n")
  else if c = '\x0c' then "\\f"
  else if c = '\r' then "\\r"
  else if c = '\\' then "\\\\"
  else if isControl c then codePoint c
  else c.toString

/-- Characters between double quotes.  On one line every quote is escaped;
over several lines only each third one of a run, after which the run is
counted anew. -/
def escapeChars (overLines : Bool) : Nat → List Char → String
  | _, [] => ""
  | run, c :: rest =>
    if c = '"' then
      if overLines ∧ run < 2 then "\"" ++ escapeChars overLines (run + 1) rest
      else "\\\"" ++ escapeChars overLines 0 rest
    else escapeChar overLines c ++ escapeChars overLines 0 rest

/-- The line break after three opening quotes, which a text over several lines
needs. -/
def openingBreak (text : List Char) : String := if text.contains '\n' then "\n" else ""

/-- A text in its form. -/
def textLiteral (text : String) : String :=
  let chars := text.toList
  match textForm chars with
  | .basic => "\"" ++ escapeChars false 0 chars ++ "\""
  | .literal => "'" ++ text ++ "'"
  | .basicLines =>
    "\"\"\"" ++ openingBreak chars ++ escapeChars true 0 chars ++ "\"\"\""
  | .literalLines => "'''" ++ openingBreak chars ++ text ++ "'''"

/-! ## Values and tables -/

/-- A key: as it stands if its characters allow it, else as a text. -/
def keyLiteral (key : String) : String :=
  if key ≠ "" ∧ key.toList.all (fun c => c.isAlphanum || c == '-' || c == '_') then key
  else textLiteral key

mutual

/-- A value on one line.  What has no value is written as the number that is
none, which reads back to it. -/
def valueLiteral : Tree → String
  | .null => "nan"
  | .bool value => toString value
  | .int value => toString value
  | .float value => value.text
  | .text value => textLiteral value
  | .list items => "[" ++ itemLiterals items ++ "]"
  | .table entries => "\x7b" ++ entryLiterals entries ++ "\x7d"

/-- The items of an array, separated by commas. -/
def itemLiterals : List Tree → String
  | [] => ""
  | [item] => valueLiteral item
  | item :: next :: rest => valueLiteral item ++ ", " ++ itemLiterals (next :: rest)

/-- The entries of an inline table, separated by commas. -/
def entryLiterals : List (String × Tree) → String
  | [] => ""
  | [(key, value)] => " " ++ keyLiteral key ++ " = " ++ valueLiteral value ++ " "
  | (key, value) :: next :: rest =>
    " " ++ keyLiteral key ++ " = " ++ valueLiteral value ++ "," ++ entryLiterals (next :: rest)

end

/-- Whether a tree stands under headers: a table, or a list of nothing but
tables that is not empty. -/
def needsHeader : Tree → Bool
  | .table _ => true
  | .list (item :: rest) => (item :: rest).all Tree.isTable
  | _ => false

/-- The lines of the entries that need no header. -/
def plainLines (entries : List (String × Tree)) : String :=
  entries.foldl
    (fun lines (key, value) =>
      if needsHeader value then lines
      else lines ++ keyLiteral key ++ " = " ++ valueLiteral value ++ "\n") ""

/-- A path of keys in a header. -/
def pathText (path : List String) : String := ".".intercalate (path.map keyLiteral)

mutual

/-- The parts of a tree under the headers for a path: each a header with the
lines below it. -/
def headedParts (path : List String) : Tree → List String
  | .table entries =>
    ("[" ++ pathText path ++ "]\n" ++ plainLines entries) :: partsOf path entries
  | .list items => elementParts path items
  | _ => []

/-- The headed parts of the elements of an array of tables. -/
def elementParts (path : List String) : List Tree → List String
  | [] => []
  | .table entries :: rest =>
    ("[[" ++ pathText path ++ "]]\n" ++ plainLines entries) ::
      (partsOf path entries ++ elementParts path rest)
  | _ :: rest => elementParts path rest

/-- The headed parts of the entries of a table. -/
def partsOf (path : List String) : List (String × Tree) → List String
  | [] => []
  | (key, value) :: rest =>
    (if needsHeader value then headedParts (path ++ [key]) value else []) ++ partsOf path rest

end

/-- A whole document: the lines of the root table, then each headed part after
an empty line. -/
def render : Tree → String
  | .table entries =>
    "\n".intercalate ((plainLines entries :: partsOf [] entries).filter (· != ""))
  | value => valueLiteral value ++ "\n"

end RegisterBank.Document.Toml
