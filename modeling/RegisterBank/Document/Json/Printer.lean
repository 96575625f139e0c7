import RegisterBank.Document.Tree
import RegisterBank.Number.Shortest
import RegisterBank.Text.HexDigits

/-!
# Writing JSON

A tree is written on one line without blanks, or over several lines with an
indent of two blanks for each level.  Texts keep every character but quotes,
backslashes and controls.
-/

namespace RegisterBank.Document.Json

open RegisterBank.Document

/-- One character of a text between quotes. -/
def escapeChar (c : Char) : String :=
  if c = '"' then "\\\""
  else if c = '\\' then "\\\\"
  else if c = '\x08' then "\\b"
  else if c = '\x0c' then "\\f"
  else if c = '\n' then "\\n"
  else if c = '\r' then "\\r"
  else if c = '\t' then "\\t"
  else if c.toNat < 0x20 then
    "\\u" ++ String.ofList (Text.padDigits 4 (Text.hexDigits c.toNat))
  else c.toString

/-- A text between quotes. -/
def quote (text : String) : String :=
  "\"" ++ text.toList.foldl (fun shown c => shown ++ escapeChar c) "" ++ "\""

mutual

/-- A tree on one line, without blanks. -/
def compact : Tree → String
  | .null => "null"
  | .bool value => toString value
  | .int value => toString value
  | .float value => value.text
  | .text value => quote value
  | .list items => "[" ++ compactItems items ++ "]"
  | .table entries => "\x7b" ++ compactEntries entries ++ "\x7d"

/-- The items of a list, separated by commas. -/
def compactItems : List Tree → String
  | [] => ""
  | [item] => compact item
  | item :: next :: rest => compact item ++ "," ++ compactItems (next :: rest)

/-- The entries of a table, separated by commas. -/
def compactEntries : List (String × Tree) → String
  | [] => ""
  | [(key, value)] => quote key ++ ":" ++ compact value
  | (key, value) :: next :: rest =>
    quote key ++ ":" ++ compact value ++ "," ++ compactEntries (next :: rest)

end

/-- The start of a line at an indent. -/
def newLine (indent : Nat) : String := "\n" ++ String.ofList (List.replicate (2 * indent) ' ')

mutual

/-- A tree over several lines, whose first line stands at an indent. -/
def indented (indent : Nat) : Tree → String
  | .null => "null"
  | .bool value => toString value
  | .int value => toString value
  | .float value => value.text
  | .text value => quote value
  | .list [] => "[]"
  | .list (item :: rest) =>
    "[" ++ newLine (indent + 1) ++ indented (indent + 1) item
      ++ indentedItems (indent + 1) rest ++ newLine indent ++ "]"
  | .table [] => "\x7b\x7d"
  | .table ((key, value) :: rest) =>
    "\x7b" ++ newLine (indent + 1) ++ quote key ++ ": " ++ indented (indent + 1) value
      ++ indentedEntries (indent + 1) rest ++ newLine indent ++ "\x7d"

/-- The items after the first, each on a line of its own. -/
def indentedItems (indent : Nat) : List Tree → String
  | [] => ""
  | item :: rest =>
    "," ++ newLine indent ++ indented indent item ++ indentedItems indent rest

/-- The entries after the first, each on a line of its own. -/
def indentedEntries (indent : Nat) : List (String × Tree) → String
  | [] => ""
  | (key, value) :: rest =>
    "," ++ newLine indent ++ quote key ++ ": " ++ indented indent value
      ++ indentedEntries indent rest

end

/-- A whole document. -/
def render (tree : Tree) : String := indented 0 tree

end RegisterBank.Document.Json
