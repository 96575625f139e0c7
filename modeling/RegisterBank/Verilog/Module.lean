import RegisterBank.BitRange
import RegisterBank.Bus.Protocol

/-!
# Hardware modules

The fragment of Verilog that generated bridges are written in: vectors of bits,
continuous assignments, and clocked blocks of non-blocking assignments.  Blank
lines, comments and the columns that line up declarations belong to a module,
so that its text is a function of it.
-/

namespace RegisterBank.Verilog

/-- An expression. -/
inductive Expr where
  | net (name : String)
  /-- Some bits of a vector, at constant positions. -/
  | select (name : String) (bits : BitRange)
  /-- A sized constant in hexadecimal. -/
  | hex (width value : Nat)
  /-- A sized constant in binary. -/
  | binary (width value : Nat)
  /-- Every bit inverted. -/
  | invert (operand : Expr)
  /-- Truth inverted. -/
  | isFalse (operand : Expr)
  /-- Whether any bit is set. -/
  | anyBit (operand : Expr)
  | bitAnd (left right : Expr)
  | bitOr (left right : Expr)
  | both (left right : Expr)
  | equals (left right : Expr)
  | choose (condition yes no : Expr)
  | paren (inner : Expr)
  /-- Vectors side by side, the most significant first. -/
  | concat (parts : List Expr)
  | replicate (count : Nat) (part : Expr)

mutual

/-- A statement of a clocked block. -/
inductive Stmt where
  | skip
  /-- A non-blocking assignment, its target padded to a column. -/
  | set (target : String) (column : Nat) (value : Expr)
  | seq (first second : Stmt)
  /-- A choice between blocks; `skip` stands for no `else`. -/
  | branch (condition : Expr) (yes no : Stmt)
  /-- A choice between assignments, each on the line of its condition. -/
  | branchLine (condition : Expr) (yes no : Stmt)
  | select (subject : Expr) (arms : Arms)

/-- The arms of a selection, the last of which takes what is left. -/
inductive Arms where
  | otherwise (body : Stmt)
  | arm (label : Expr) (body : Stmt) (rest : Arms)

end

/-- Whether a net keeps a value or follows one. -/
inductive NetKind where
  | wire
  | reg
  deriving DecidableEq, Repr

/-- The declaration of a net. -/
structure Net where
  kind : NetKind
  width : Nat
  /-- Whether a range is written even for a single bit. -/
  isVector : Bool
  /-- The column to which the range is padded. -/
  column : Nat
  name : String
  /-- What a wire follows, if it is declared with it. -/
  value? : Option Expr

/-- A line or a block of a module's body. -/
inductive Item where
  | blank
  | comment (text : String)
  | parameter (name : String) (value : Nat)
  | declare (net : Net)
  /-- A continuous assignment, its target padded to a column. -/
  | assign (target : String) (column : Nat) (value : Expr)
  /-- A block that runs on clock and reset events. -/
  | always (sensitivity : String) (body : Stmt)

/-- A port of a module, with a comment that may stand above it. -/
structure ModulePort where
  comment? : Option String
  direction : Bus.Direction
  width : Nat
  name : String

/-- A module with the comments above it. -/
structure Module where
  comments : List String
  name : String
  ports : List ModulePort
  items : List Item

end RegisterBank.Verilog
