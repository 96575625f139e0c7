import RegisterBank.Verilog.Module
import RegisterBank.Verilog.Nets

/-!
# The meaning of hardware modules

What the items of a module do with the values of its nets.  Between two clock
edges the continuous assignments settle, each after the nets it reads, which
the order of the items ensures.  At an edge every clocked block takes the
settled values and sets the nets it assigns; all others keep theirs.  Operands
that one operator joins have the same width, so a value never has to be
extended before it is inverted.
-/

namespace RegisterBank.Verilog

/-- A truth value as a bit. -/
def truth (condition : Bool) : Nat := if condition then 1 else 0

/-! ## Expressions -/

mutual

/-- The width of an expression, given the widths of the nets. -/
def Expr.width (widths : Nets) : Expr → Nat
  | .net name => widths.get name
  | .select _ bits => bits.width
  | .hex width _ => width
  | .binary width _ => width
  | .invert operand => operand.width widths
  | .isFalse _ => 1
  | .anyBit _ => 1
  | .bitAnd left right => max (left.width widths) (right.width widths)
  | .bitOr left right => max (left.width widths) (right.width widths)
  | .both _ _ => 1
  | .equals _ _ => 1
  | .choose _ yes no => max (yes.width widths) (no.width widths)
  | .paren inner => inner.width widths
  | .concat parts => partsWidth widths parts
  | .replicate count part => count * part.width widths

/-- The width of vectors side by side. -/
def partsWidth (widths : Nets) : List Expr → Nat
  | [] => 0
  | part :: rest => part.width widths + partsWidth widths rest

end

/-- Several copies of a value of a width, side by side. -/
def copies (width value : Nat) : Nat → Nat
  | 0 => 0
  | count + 1 => (copies width value count <<< width) ||| value

mutual

/-- The value of an expression, given the widths and the values of the nets. -/
def Expr.value (widths values : Nets) : Expr → Nat
  | .net name => values.get name
  | .select name bits => Bits.extract (values.get name) bits.lsb bits.width
  | .hex _ value => value
  | .binary _ value => value
  | .invert operand => Bits.ones (operand.width widths) ^^^ operand.value widths values
  | .isFalse operand => truth (operand.value widths values == 0)
  | .anyBit operand => truth (operand.value widths values != 0)
  | .bitAnd left right => left.value widths values &&& right.value widths values
  | .bitOr left right => left.value widths values ||| right.value widths values
  | .both left right =>
    truth (left.value widths values != 0 && right.value widths values != 0)
  | .equals left right => truth (left.value widths values == right.value widths values)
  | .choose condition yes no =>
    if condition.value widths values != 0 then yes.value widths values
    else no.value widths values
  | .paren inner => inner.value widths values
  | .concat parts => partsValue widths values parts
  | .replicate count part => copies (part.width widths) (part.value widths values) count

/-- The value of vectors side by side. -/
def partsValue (widths values : Nets) : List Expr → Nat
  | [] => 0
  | part :: rest =>
    (part.value widths values <<< partsWidth widths rest) ||| partsValue widths values rest

end

/-! ## Clocked blocks -/

mutual

/-- The nets after a statement, which reads the values `before` the edge. -/
def Stmt.apply (widths before : Nets) : Stmt → Nets → Nets
  | .skip, after => after
  | .set target _ value, after =>
    after.set target (value.value widths before &&& Bits.ones (widths.get target))
  | .seq first second, after => second.apply widths before (first.apply widths before after)
  | .branch condition yes no, after =>
    if condition.value widths before != 0 then yes.apply widths before after
    else no.apply widths before after
  | .branchLine condition yes no, after =>
    if condition.value widths before != 0 then yes.apply widths before after
    else no.apply widths before after
  | .select subject arms, after => arms.apply widths before (subject.value widths before) after

/-- The nets after the arm that a value selects. -/
def Arms.apply (widths before : Nets) (subject : Nat) : Arms → Nets → Nets
  | .otherwise body, after => body.apply widths before after
  | .arm label body rest, after =>
    if label.value widths before = subject then body.apply widths before after
    else rest.apply widths before subject after

end

/-! ## Items -/

/-- The net that an item declares, with its width. -/
def Item.declared? : Item → Option (String × Nat)
  | .parameter name _ => some (name, 1)
  | .declare net => some (net.name, net.width)
  | .blank | .comment _ | .assign _ _ _ | .always _ _ => none

/-- The nets after an item's continuous assignment. -/
def Item.settle (widths : Nets) (values : Nets) : Item → Nets
  | .parameter name value => values.set name value
  | .assign target _ value =>
    values.set target (value.value widths values &&& Bits.ones (widths.get target))
  | .declare net =>
    match net.value? with
    | some value => values.set net.name (value.value widths values &&& Bits.ones net.width)
    | none => values
  | .blank | .comment _ | .always _ _ => values

/-- The nets when all continuous assignments have settled. -/
def settle (widths : Nets) (items : List Item) (values : Nets) : Nets :=
  items.foldl (Item.settle widths) values

/-- The nets after an item's clocked block. -/
def Item.edge (widths before : Nets) (after : Nets) : Item → Nets
  | .always _ body => body.apply widths before after
  | .blank | .comment _ | .parameter _ _ | .declare _ | .assign _ _ _ => after

/-- The nets after a clock edge at settled values. -/
def edge (widths : Nets) (items : List Item) (settled : Nets) : Nets :=
  items.foldl (Item.edge widths settled) settled

end RegisterBank.Verilog
