/-!
# Markdown pages

A page is a list of blocks with an empty line between them.  A table has one
row of headings and rows of as many cells.  What stands in a cell keeps to its
row and its column: a bar is escaped and a line break becomes a blank.
-/

namespace RegisterBank.Reference

/-- A table. -/
structure Table where
  headings : List String
  rows : List (List String)
  deriving DecidableEq, Repr

/-- A part of a page. -/
inductive Block where
  | heading (level : Nat) (text : String)
  | paragraph (text : String)
  | table (content : Table)
  deriving DecidableEq, Repr

/-- A character of a cell. -/
def cellChar : Char → List Char
  | '|' => ['\\', '|']
  | '\r' => [' ']
  | '\n' => [' ']
  | char => [char]

/-- A text that is safe within a cell. -/
def cell (text : String) : String := String.ofList (text.toList.flatMap cellChar)

/-- A row between bars, its cells between blanks. -/
def rowText (cells : List String) : String :=
  cells.foldl (fun line text => line ++ " " ++ text ++ " |") "|"

/-- The rule below headings, as wide as they are. -/
def ruleText (headings : List String) : String :=
  headings.foldl
    (fun line text => line ++ String.ofList (List.replicate (text.length + 2) '-') ++ "|") "|"

/-- The lines of a table. -/
def Table.lines (table : Table) : List String :=
  rowText table.headings :: ruleText table.headings :: table.rows.map rowText

/-- The lines of a block. -/
def Block.lines : Block → List String
  | .heading level text => [String.ofList (List.replicate level '#') ++ " " ++ text]
  | .paragraph text => [text]
  | .table content => content.lines

/-- The lines of a page. -/
def pageLines : List Block → List String
  | [] => []
  | [block] => block.lines
  | block :: next :: rest => block.lines ++ "" :: pageLines (next :: rest)

/-- The text of a page. -/
def pageText (blocks : List Block) : String :=
  (pageLines blocks).foldl (fun text line => text ++ line ++ "\n") ""

end RegisterBank.Reference
