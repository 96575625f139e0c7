import RegisterBank.Proofs.Verilog.Code

/-!
# Expressions and statements, read back

`Fits` says of the syntax what is asked of its text: known names, selects within
vectors, constants that fit.  What fits where some nets are known still fits
where more are, and all lines that are printed for it can be read
(`Expr.code`, `Stmt.printed`).
-/

namespace RegisterBank.Verilog

/-! ## Syntax that fits -/

section Fits

variable (widths : Nets) (known : List String)

mutual

/-- An expression of known nets, of bits that they have, and of constants that
fit their widths. -/
def Expr.Fits : Expr → Prop
  | .net name => name ∈ known
  | .select name bits => name ∈ known ∧ 0 < bits.width ∧ bits.above ≤ widths.get name
  | .hex width value => value < 2 ^ width
  | .binary width value => value < 2 ^ width
  | .invert operand => operand.Fits
  | .isFalse operand => operand.Fits
  | .anyBit operand => operand.Fits
  | .bitAnd left right => left.Fits ∧ right.Fits
  | .bitOr left right => left.Fits ∧ right.Fits
  | .both left right => left.Fits ∧ right.Fits
  | .equals left right => left.Fits ∧ right.Fits
  | .choose condition yes no => condition.Fits ∧ yes.Fits ∧ no.Fits
  | .paren inner => inner.Fits
  | .concat parts => partsFit parts
  | .replicate _ part => part.Fits

/-- Vectors side by side that fit. -/
def partsFit : List Expr → Prop
  | [] => True
  | part :: rest => part.Fits ∧ partsFit rest

end

mutual

/-- A statement of expressions that fit, with known targets. -/
def Stmt.Fits : Stmt → Prop
  | .skip => True
  | .set target _ value => target ∈ known ∧ value.Fits widths known
  | .seq first second => first.Fits ∧ second.Fits
  | .branch condition yes no => condition.Fits widths known ∧ yes.Fits ∧ no.Fits
  | .branchLine condition yes no => condition.Fits widths known ∧ yes.Fits ∧ no.Fits
  | .select subject arms => subject.Fits widths known ∧ arms.Fits

/-- The arms of a selection that fit. -/
def Arms.Fits : Arms → Prop
  | .otherwise body => body.Fits
  | .arm label body rest => label.Fits widths known ∧ body.Fits ∧ rest.Fits

end

end Fits

theorem partsFit_iff {widths : Nets} {known : List String} {parts : List Expr} :
    partsFit widths known parts ↔ ∀ part ∈ parts, part.Fits widths known := by
  induction parts with
  | nil => simp [partsFit]
  | cons part rest ih => rw [partsFit, ih, List.forall_mem_cons]

section Wider

variable {widths : Nets} {known others : List String}

mutual

/-- What fits where some nets are known fits where more of them are. -/
theorem Expr.Fits.mono (wider : known ⊆ others) :
    (expr : Expr) → expr.Fits widths known → expr.Fits widths others
  | .net _, listed => wider listed
  | .select _ _, ⟨listed, inside⟩ => ⟨wider listed, inside⟩
  | .hex _ _, small => small
  | .binary _ _, small => small
  | .invert operand, fits => Expr.Fits.mono wider operand fits
  | .isFalse operand, fits => Expr.Fits.mono wider operand fits
  | .anyBit operand, fits => Expr.Fits.mono wider operand fits
  | .bitAnd left right, ⟨first, second⟩ =>
    ⟨Expr.Fits.mono wider left first, Expr.Fits.mono wider right second⟩
  | .bitOr left right, ⟨first, second⟩ =>
    ⟨Expr.Fits.mono wider left first, Expr.Fits.mono wider right second⟩
  | .both left right, ⟨first, second⟩ =>
    ⟨Expr.Fits.mono wider left first, Expr.Fits.mono wider right second⟩
  | .equals left right, ⟨first, second⟩ =>
    ⟨Expr.Fits.mono wider left first, Expr.Fits.mono wider right second⟩
  | .choose condition yes no, ⟨test, first, second⟩ =>
    ⟨Expr.Fits.mono wider condition test, Expr.Fits.mono wider yes first,
      Expr.Fits.mono wider no second⟩
  | .paren inner, fits => Expr.Fits.mono wider inner fits
  | .concat parts, fits => partsFit.mono wider parts fits
  | .replicate _ part, fits => Expr.Fits.mono wider part fits

theorem partsFit.mono (wider : known ⊆ others) :
    (parts : List Expr) → partsFit widths known parts → partsFit widths others parts
  | [], _ => trivial
  | part :: rest, ⟨first, behind⟩ =>
    ⟨Expr.Fits.mono wider part first, partsFit.mono wider rest behind⟩

end

mutual

/-- A statement still fits where more nets are known. -/
theorem Stmt.Fits.mono (wider : known ⊆ others) :
    (stmt : Stmt) → stmt.Fits widths known → stmt.Fits widths others
  | .skip, _ => trivial
  | .set _ _ value, ⟨listed, fits⟩ => ⟨wider listed, Expr.Fits.mono wider value fits⟩
  | .seq first second, ⟨here, there⟩ =>
    ⟨Stmt.Fits.mono wider first here, Stmt.Fits.mono wider second there⟩
  | .branch condition yes no, ⟨test, here, there⟩ =>
    ⟨Expr.Fits.mono wider condition test, Stmt.Fits.mono wider yes here,
      Stmt.Fits.mono wider no there⟩
  | .branchLine condition yes no, ⟨test, here, there⟩ =>
    ⟨Expr.Fits.mono wider condition test, Stmt.Fits.mono wider yes here,
      Stmt.Fits.mono wider no there⟩
  | .select subject arms, ⟨test, fits⟩ =>
    ⟨Expr.Fits.mono wider subject test, Arms.Fits.mono wider arms fits⟩

theorem Arms.Fits.mono (wider : known ⊆ others) :
    (arms : Arms) → arms.Fits widths known → arms.Fits widths others
  | .otherwise body, fits => Stmt.Fits.mono wider body fits
  | .arm label body rest, ⟨test, here, there⟩ =>
    ⟨Expr.Fits.mono wider label test, Stmt.Fits.mono wider body here,
      Arms.Fits.mono wider rest there⟩

end

end Wider

/-! ## Expressions -/

section Expressions

variable {widths : Nets} {known : List String}

mutual

/-- What is printed for an expression that fits. -/
theorem Expr.code (identifiers : ∀ name ∈ known, Text.isIdentifier name = true) :
    (expr : Expr) → expr.Fits widths known → Code widths known expr.text known
  | .net name, listed => .identifier (identifiers name listed) (.use listed .nil)
  | .select name bits, ⟨listed, positive, inside⟩ =>
    .select (identifiers name listed) listed positive inside
  | .hex _ _, small => .hex small
  | .binary _ _, small => .binary small
  | .invert operand, fits => by
    unfold Expr.text
    exact (operand.code identifiers fits).prefixed (by decide)
  | .isFalse operand, fits => by
    unfold Expr.text
    exact (operand.code identifiers fits).prefixed (by decide)
  | .anyBit operand, fits => by
    unfold Expr.text
    exact (operand.code identifiers fits).prefixed (by decide)
  | .bitAnd left right, ⟨leftFits, rightFits⟩ => by
    unfold Expr.text
    exact (left.code identifiers leftFits).joined (right.code identifiers rightFits) (by decide)
  | .bitOr left right, ⟨leftFits, rightFits⟩ => by
    unfold Expr.text
    exact (left.code identifiers leftFits).joined (right.code identifiers rightFits) (by decide)
  | .both left right, ⟨leftFits, rightFits⟩ => by
    unfold Expr.text
    exact (left.code identifiers leftFits).joined (right.code identifiers rightFits) (by decide)
  | .equals left right, ⟨leftFits, rightFits⟩ => by
    unfold Expr.text
    exact (left.code identifiers leftFits).joined (right.code identifiers rightFits) (by decide)
  | .choose condition yes no, ⟨conditionFits, yesFits, noFits⟩ => by
    unfold Expr.text
    exact ((condition.code identifiers conditionFits).joined (yes.code identifiers yesFits)
      (by decide)).joined (no.code identifiers noFits) (by decide)
  | .paren inner, fits => by
    unfold Expr.text
    exact ((inner.code identifiers fits).prefixed (by decide)).suffixed (by decide)
  | .concat parts, fits => by
    unfold Expr.text
    exact ((partsCode identifiers parts fits).prefixed (by decide)).suffixed (by decide)
  | .replicate count part, fits => by
    unfold Expr.text
    have counted : Code widths known ("\x7b" ++ toString count) known :=
      (Code.number count).prefixed (by decide)
    exact (counted.joined (part.code identifiers fits) (by decide)).suffixed (by decide)

/-- Parts of a concatenation stand side by side with commas between. -/
theorem partsCode (identifiers : ∀ name ∈ known, Text.isIdentifier name = true) :
    (parts : List Expr) → partsFit widths known parts →
    Code widths known (partsText parts) known
  | [], _ => .empty
  | [part], ⟨fits, _⟩ => part.code identifiers fits
  | part :: next :: rest, ⟨fits, others⟩ => by
    unfold partsText
    exact (part.code identifiers fits).joined (partsCode identifiers (next :: rest) others)
      (by decide)

end

end Expressions

/-! ## Statements -/

/-- Lines that are read one by one and declare nothing. -/
def CodeLines (widths : Nets) (known lines : List String) : Prop :=
  ∀ line ∈ lines, Code widths known line known

section Statements

variable {widths : Nets} {known lines others : List String} {line : String}

theorem CodeLines.nil : CodeLines widths known [] := fun _ listed => absurd listed List.not_mem_nil

theorem CodeLines.cons (first : Code widths known line known)
    (rest : CodeLines widths known lines) : CodeLines widths known (line :: lines) :=
  List.forall_mem_cons.mpr ⟨first, rest⟩

theorem CodeLines.append (first : CodeLines widths known lines)
    (second : CodeLines widths known others) : CodeLines widths known (lines ++ others) :=
  List.forall_mem_append.mpr ⟨first, second⟩

theorem CodeLines.single (only : Code widths known line known) : CodeLines widths known [line] :=
  .cons only .nil

/-- Indented lines are read as the lines are. -/
theorem CodeLines.indent (inner : CodeLines widths known lines) :
    CodeLines widths known (indent lines) := by
  intro line listed
  obtain ⟨inside, member, rfl⟩ := List.mem_map.mp listed
  exact (inner inside member).prefixed (by decide)

/-- What is put in front of the first line is read before it. -/
theorem CodeLines.onFirst {start : String} (first : Code widths known start known)
    (apart : endsApart start.toList = true) (rest : CodeLines widths known lines) :
    CodeLines widths known (onFirst start lines) := by
  cases lines with
  | nil => exact .single first
  | cons line others =>
    obtain ⟨here, behind⟩ := List.forall_mem_cons.mp rest
    exact .cons (first.append here (Or.inl apart)) behind

/-- What stands in the `else` of a block. -/
theorem CodeLines.elseBlock (inner : CodeLines widths known lines) :
    CodeLines widths known ("end else begin" :: RegisterBank.Verilog.indent lines ++ ["end"]) :=
  (CodeLines.cons (.fixed (by decide)) inner.indent).append (.single (.fixed (by decide)))

/-- What is printed for a statement, wherever it stands. -/
structure Stmt.Printed (widths : Nets) (known : List String) (stmt : Stmt) : Prop where
  lines : CodeLines widths known stmt.lines
  elseLines : CodeLines widths known stmt.elseLines
  elseLine : CodeLines widths known stmt.elseLine
  armLines : ∀ label, Code widths known label known →
    CodeLines widths known (stmt.armLines label)

/-- The line of an assignment, its target padded to a column. -/
theorem Code.assignment {target : String} {value : Expr}
    (identifiers : ∀ name ∈ known, Text.isIdentifier name = true) (listed : target ∈ known)
    (fits : value.Fits widths known) (column : Nat) :
    Code widths known (RegisterBank.Verilog.padRight column target ++ " <= " ++ value.text ++ ";")
      known := by
  have start : Code widths known target known :=
    .identifier (identifiers target listed) (.use listed .nil)
  exact ((start.padRight column).joined (value.code identifiers fits) (by decide)).suffixed
    (by decide)

/-- What stands behind a label. -/
theorem Code.labelled {label start inner ending : String} (named : Code widths known label known)
    (there : Code widths known (start ++ inner ++ ending) known)
    (checked : (startsApart start.toList && !start.toList.isEmpty) = true) :
    Code widths known (label ++ (start ++ inner ++ ending)) known := by
  rw [Bool.and_eq_true, Bool.not_eq_true', List.isEmpty_eq_false_iff] at checked
  refine named.append there (Or.inr ?_)
  rw [String.toList_append, String.toList_append, List.append_assoc,
    startsApart_append checked.2]
  exact checked.1

/-- A piece ends apart from the next one if its ending does. -/
theorem endsApart_suffixed {inner ending : String}
    (checked : (endsApart ending.toList && !ending.toList.isEmpty) = true) :
    endsApart (inner ++ ending).toList = true := by
  rw [Bool.and_eq_true, Bool.not_eq_true', List.isEmpty_eq_false_iff] at checked
  rw [String.toList_append, endsApart_append checked.2]
  exact checked.1

/-! ### One kind of statement at a time -/

section Kinds

variable {condition subject : Expr} {first second yes no : Stmt} {arms : Arms}

theorem Stmt.Printed.skip : Stmt.Printed widths known .skip where
  lines := .nil
  elseLines := .single (.fixed (by decide))
  elseLine := .nil
  armLines := fun _ named => .single (named.suffixed (by decide))

/-- A statement that is printed as lines of its own stands in blocks of its
own wherever it stands. -/
theorem Stmt.Printed.set {target : String} {value : Expr}
    (identifiers : ∀ name ∈ known, Text.isIdentifier name = true) (listed : target ∈ known)
    (fits : value.Fits widths known) (column : Nat) :
    Stmt.Printed widths known (.set target column value) where
  lines := .single (.assignment identifiers listed fits column)
  elseLines := .elseBlock (.single (.assignment identifiers listed fits column))
  elseLine := .nil
  armLines := by
    intro label named
    have start : Code widths known target known :=
      .identifier (identifiers target listed) (.use listed .nil)
    have labelled : Code widths known
        (label ++ ": " ++ RegisterBank.Verilog.padRight column target) known :=
      named.joined (start.padRight column) (by decide)
    exact .single ((labelled.joined (value.code identifiers fits) (by decide)).suffixed
      (by decide))

/-- Statements one after the other need a block where a single one is asked
for. -/
theorem Stmt.Printed.seq (here : first.Printed widths known)
    (there : second.Printed widths known) : Stmt.Printed widths known (.seq first second) := by
  have both : CodeLines widths known (first.lines ++ second.lines) :=
    here.lines.append there.lines
  refine { lines := both, elseLines := both.elseBlock, elseLine := .nil, armLines := ?_ }
  intro label named
  exact (CodeLines.cons (named.suffixed (by decide)) both.indent).append
    (.single (.fixed (by decide)))

/-- A choice with blocks, which an `else` before it may take up. -/
theorem Stmt.Printed.branch (test : Code widths known condition.text known)
    (taken : yes.Printed widths known) (other : no.Printed widths known) :
    Stmt.Printed widths known (.branch condition yes no) := by
  have block := taken.lines.indent
  have whole : CodeLines widths known (Stmt.branch condition yes no).lines :=
    .append (.cons (test.wrapped (by decide)) block) other.elseLines
  have chained : CodeLines widths known (Stmt.branch condition yes no).elseLines :=
    .append (.cons (test.wrapped (by decide)) block) other.elseLines
  refine { lines := whole, elseLines := chained, elseLine := .nil, armLines := ?_ }
  intro label named
  exact .append (.cons (named.labelled (test.wrapped (by decide)) (by decide)) block)
    other.elseLines

/-- A choice on one line, which goes on behind an `else` on the next. -/
theorem Stmt.Printed.branchLine (test : Code widths known condition.text known)
    (taken : yes.Printed widths known) (other : no.Printed widths known) :
    Stmt.Printed widths known (.branchLine condition yes no) := by
  have onLine : CodeLines widths known (onFirst ("if (" ++ condition.text ++ ") ") yes.lines) :=
    .onFirst (test.wrapped (by decide)) (endsApart_suffixed (by decide)) taken.lines
  have whole : CodeLines widths known (Stmt.branchLine condition yes no).lines :=
    onLine.append other.elseLine
  have chained : CodeLines widths known (Stmt.branchLine condition yes no).elseLine :=
    .append (.onFirst (test.wrapped (by decide)) (endsApart_suffixed (by decide)) taken.lines)
      other.elseLine
  refine { lines := whole, elseLines := whole.elseBlock, elseLine := chained, armLines := ?_ }
  intro label named
  have apart : endsApart (label ++ (": if (" ++ condition.text ++ ") ")).toList = true := by
    rw [← String.append_assoc]
    exact endsApart_suffixed (by decide)
  exact .append (.onFirst (named.labelled (test.wrapped (by decide)) (by decide)) apart
    taken.lines) other.elseLine

/-- A selection, with its arms one step further in. -/
theorem Stmt.Printed.select (test : Code widths known subject.text known)
    (printed : CodeLines widths known arms.lines) :
    Stmt.Printed widths known (.select subject arms) := by
  have ending : CodeLines widths known ["endcase"] := .single (.fixed (by decide))
  have whole : CodeLines widths known (Stmt.select subject arms).lines :=
    (CodeLines.cons (test.wrapped (by decide)) printed.indent).append ending
  refine { lines := whole, elseLines := whole.elseBlock, elseLine := .nil, armLines := ?_ }
  intro label named
  exact (CodeLines.cons (named.labelled (test.wrapped (by decide)) (by decide))
    printed.indent).append ending

end Kinds

mutual

/-- What is printed for a statement that fits. -/
theorem Stmt.printed (identifiers : ∀ name ∈ known, Text.isIdentifier name = true) :
    (stmt : Stmt) → stmt.Fits widths known → stmt.Printed widths known
  | .skip, _ => .skip
  | .set _ column _, ⟨listed, fits⟩ => .set identifiers listed fits column
  | .seq first second, ⟨here, there⟩ =>
    .seq (first.printed identifiers here) (second.printed identifiers there)
  | .branch condition yes no, ⟨test, taken, other⟩ =>
    .branch (condition.code identifiers test) (yes.printed identifiers taken)
      (no.printed identifiers other)
  | .branchLine condition yes no, ⟨test, taken, other⟩ =>
    .branchLine (condition.code identifiers test) (yes.printed identifiers taken)
      (no.printed identifiers other)
  | .select subject arms, ⟨test, fits⟩ =>
    .select (subject.code identifiers test) (arms.printed identifiers fits)

/-- All arms of a selection, each behind its label. -/
theorem Arms.printed (identifiers : ∀ name ∈ known, Text.isIdentifier name = true) :
    (arms : Arms) → arms.Fits widths known → CodeLines widths known arms.lines
  | .otherwise body, fits => (body.printed identifiers fits).armLines "default" (.fixed (by decide))
  | .arm label body rest, ⟨test, here, there⟩ =>
    ((body.printed identifiers here).armLines label.text
      (label.code identifiers test)).append (rest.printed identifiers there)

end

end Statements

end RegisterBank.Verilog
