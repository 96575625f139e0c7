import RegisterBank.Text.HexDigits
import RegisterBank.Verilog.Module

/-!
# The text of a hardware module

Blocks are indented by four blanks.  Ranges of port and bus declarations fill a
column of eight, so that the names below each other line up.
-/

namespace RegisterBank.Verilog

/-! ## Expressions -/

/-- A constant with its width, in grouped hexadecimal. -/
def sizedHex (width value : Nat) : String := s!"{width}'h" ++ Text.paddedHex width value

/-- A constant with its width, in binary. -/
def sizedBinary (width value : Nat) : String :=
  s!"{width}'b" ++ String.ofList (Text.padDigits width (Nat.toDigits 2 value))

mutual

/-- The text of an expression. -/
def Expr.text : Expr → String
  | .net name => name
  | .select name bits => name ++ bits.text
  | .hex width value => sizedHex width value
  | .binary width value => sizedBinary width value
  | .invert operand => "~" ++ operand.text
  | .isFalse operand => "!" ++ operand.text
  | .anyBit operand => "|" ++ operand.text
  | .bitAnd left right => left.text ++ " & " ++ right.text
  | .bitOr left right => left.text ++ " | " ++ right.text
  | .both left right => left.text ++ " && " ++ right.text
  | .equals left right => left.text ++ " == " ++ right.text
  | .choose condition yes no => condition.text ++ " ? " ++ yes.text ++ " : " ++ no.text
  | .paren inner => "(" ++ inner.text ++ ")"
  | .concat parts => "\x7b" ++ partsText parts ++ "\x7d"
  | .replicate count part => "\x7b" ++ toString count ++ "\x7b" ++ part.text ++ "\x7d\x7d"

/-- The text of vectors side by side. -/
def partsText : List Expr → String
  | [] => ""
  | [part] => part.text
  | part :: next :: rest => part.text ++ ", " ++ partsText (next :: rest)

end

/-! ## Statements -/

/-- A text filled with blanks up to a column. -/
def padRight (column : Nat) (text : String) : String :=
  text ++ String.ofList (List.replicate (column - text.length) ' ')

/-- Lines one level deeper. -/
def indent (lines : List String) : List String := lines.map fun line => "    " ++ line

/-- Lines with a text in front of the first. -/
def onFirst (start : String) : List String → List String
  | [] => [start]
  | line :: rest => (start ++ line) :: rest

mutual

/-- The lines of a statement. -/
def Stmt.lines : Stmt → List String
  | .skip => []
  | .set target column value => [padRight column target ++ " <= " ++ value.text ++ ";"]
  | .seq first second => first.lines ++ second.lines
  | .branch condition yes no =>
    s!"if ({condition.text}) begin" :: indent yes.lines ++ no.elseLines
  | .branchLine condition yes no =>
    onFirst s!"if ({condition.text}) " yes.lines ++ no.elseLine
  | .select subject arms => s!"case ({subject.text})" :: indent arms.lines ++ ["endcase"]

/-- The lines that end a block, for what stands in its `else`. -/
def Stmt.elseLines : Stmt → List String
  | .skip => ["end"]
  | .branch condition yes no =>
    s!"end else if ({condition.text}) begin" :: indent yes.lines ++ no.elseLines
  | .set target column value =>
    "end else begin" :: indent [padRight column target ++ " <= " ++ value.text ++ ";"] ++ ["end"]
  | .seq first second => "end else begin" :: indent (first.lines ++ second.lines) ++ ["end"]
  | .branchLine condition yes no =>
    "end else begin"
      :: indent (onFirst s!"if ({condition.text}) " yes.lines ++ no.elseLine) ++ ["end"]
  | .select subject arms =>
    "end else begin" :: indent (s!"case ({subject.text})" :: indent arms.lines ++ ["endcase"])
      ++ ["end"]

/-- The lines after a choice on one line. -/
def Stmt.elseLine : Stmt → List String
  | .branchLine condition yes no =>
    onFirst s!"else if ({condition.text}) " yes.lines ++ no.elseLine
  | _ => []

/-- The lines of what an arm selects, behind its label. -/
def Stmt.armLines (label : String) : Stmt → List String
  | .seq first second =>
    (label ++ ": begin") :: indent (first.lines ++ second.lines) ++ ["end"]
  | .set target column value =>
    [label ++ ": " ++ padRight column target ++ " <= " ++ value.text ++ ";"]
  | .branch condition yes no =>
    (label ++ s!": if ({condition.text}) begin") :: indent yes.lines ++ no.elseLines
  | .skip => [label ++ ": ;"]
  | .branchLine condition yes no =>
    onFirst (label ++ s!": if ({condition.text}) ") yes.lines ++ no.elseLine
  | .select subject arms =>
    (label ++ s!": case ({subject.text})") :: indent arms.lines ++ ["endcase"]

/-- The lines of the arms of a selection. -/
def Arms.lines : Arms → List String
  | .otherwise body => body.armLines "default"
  | .arm label body rest => body.armLines label.text ++ rest.lines

end

/-! ## Modules -/

/-- The range of a vector, with the blank behind it.  A single bit has none
unless it is to be a vector of one. -/
def rangeText (width : Nat) (isVector : Bool) : String :=
  if width > 1 ∨ isVector then s!"[{width - 1}:0] " else ""

/-- The keyword of a declaration, filled to the longer of the two. -/
def NetKind.text : NetKind → String
  | .wire => "wire "
  | .reg => "reg  "

/-- The line of a declaration. -/
def Net.text (net : Net) : String :=
  let value := match net.value? with
    | some value => " = " ++ value.text
    | none => ""
  net.kind.text ++ padRight net.column (rangeText net.width net.isVector) ++ net.name ++ value
    ++ ";"

/-- The lines of an item. -/
def Item.lines : Item → List String
  | .blank => [""]
  | .comment text => ["// " ++ text]
  | .parameter name value => [s!"localparam {name} = " ++ sizedBinary 1 value ++ ";"]
  | .declare net => [net.text]
  | .assign target column value =>
    ["assign " ++ padRight column target ++ " = " ++ value.text ++ ";"]
  | .always sensitivity body =>
    s!"always {sensitivity} begin" :: indent body.lines ++ ["end"]

/-- The column that ranges fill in a port list. -/
def portColumn : Nat := 8

/-- The lines of a port, the last one without a comma. -/
def ModulePort.lines (port : ModulePort) (isLast : Bool) : List String :=
  let comment := match port.comment? with
    | some text => ["// " ++ text]
    | none => []
  let separator := if isLast then "" else ","
  comment ++
    [padRight 6 port.direction.keyword ++ " wire "
      ++ padRight portColumn (rangeText port.width false) ++ port.name ++ separator]

/-- The lines of a port list. -/
def portLines : List ModulePort → List String
  | [] => []
  | [port] => port.lines true
  | port :: next :: rest => port.lines false ++ portLines (next :: rest)

/-- The lines of a module. -/
def Module.lines (design : Module) : List String :=
  design.comments.map (fun text => "// " ++ text) ++ [""] ++ [s!"module {design.name} ("]
    ++ indent (portLines design.ports) ++ [");", ""] ++ design.items.flatMap Item.lines
    ++ ["", "endmodule"]

/-- Lines as a text, each with its line break. -/
def linesText (lines : List String) : String :=
  lines.foldl (fun text line => text ++ line ++ "\n") ""

/-- The text of some items. -/
def itemsText (items : List Item) : String := linesText (items.flatMap Item.lines)

/-- The text of a module. -/
def Module.text (design : Module) : String := linesText design.lines

end RegisterBank.Verilog
