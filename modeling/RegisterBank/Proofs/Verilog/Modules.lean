import RegisterBank.Proofs.Verilog.Statements
import RegisterBank.Verilog.Meaning

/-!
# Modules, read back

Declarations, ports and items, line by line.  An item may declare a net, which
is known from there on, so a list of items fits what the ports and the items
before it declare (`ItemsFit`), and a module that fits is read from its first
line to its last (`Module.tokens_text`).
-/

namespace RegisterBank.Verilog

/-! ## Declarations -/

section Declarations

variable {widths : Nets} {known : List String} {name : String}

/-- The tokens of the range of a declaration. -/
def rangeTokens (width : Nat) (isVector : Bool) : List String :=
  if width > 1 ∨ isVector then ["[", toString (width - 1), ":", "0", "]"] else []

/-- The range of a vector is read as its tokens. -/
theorem lineTokens_rangeText (width : Nat) (isVector : Bool) :
    lineTokens (rangeText width isVector).toList = rangeTokens width isVector := by
  unfold rangeText rangeTokens
  split
  · have chars : ("[" ++ toString (width - 1) ++ ":0] ").toList =
        '[' :: ((toString (width - 1)).toList ++ ':' :: ['0', ']', ' ']) := by simp
    refine (congrArg lineTokens chars).trans ?_
    rw [lineTokens_cons (by decide), lineTokens_toString_append (by decide)]
    rfl
  · rfl

/-- A name that may be declared where others are known. -/
structure Declarable (known : List String) (name : String) : Prop where
  identifier : Text.isIdentifier name = true
  template : name ∉ templateWords
  fresh : name ∉ known

/-- A declaring word, its range if there is one, and the name. -/
theorem reads_declaration {word : String} (declaring : word ∈ declaringWords)
    (declarable : Declarable known name) (width : Nat) (isVector : Bool) :
    Reads widths known (word :: rangeTokens width isVector ++ [name]) (known ++ [name]) := by
  obtain ⟨-, -, named⟩ := characters_of_isIdentifier declarable.identifier
  have nameOther := plain_of_isIdentifier declarable.identifier
  have words : ∀ word ∈ declaringWords,
      isName word = true ∧ word ≠ "[" ∧ '\'' ∉ word.toList := by decide
  obtain ⟨wordNamed, wordOther, wordUnquoted⟩ := words word declaring
  have walk : Scoped known [word, name] (known ++ [name]) :=
    .declare declaring declarable.fresh declarable.template .nil
  unfold rangeTokens
  by_cases ranged : width > 1 ∨ isVector = true
  · have inside := plain_of_mem_range (width - 1) 0
    rw [if_pos ranged]
    constructor
    · have number := (plain_toString (width - 1)).1
      have symbols : isName "[" = false ∧ isName ":" = false ∧ isName "0" = false ∧
          isName "]" = false := by decide
      simp only [List.cons_append, List.nil_append, List.filter_cons, List.filter_nil, wordNamed,
        named, number, symbols, if_true, Bool.false_eq_true, if_false]
      exact walk
    · refine .bracket (Or.inl declaring) wordOther wordUnquoted (.of_forall ?_)
      intro token listed
      rcases List.mem_append.mp listed with range | last
      · exact (inside token range).2
      · rw [List.mem_singleton.mp last]
        exact nameOther
  · rw [if_neg ranged]
    constructor
    · simpa [List.filter_cons, wordNamed, named] using walk
    · refine .of_forall ?_
      intro token listed
      rcases List.mem_cons.mp listed with rfl | last
      · exact ⟨wordOther, wordUnquoted⟩
      · rw [List.mem_singleton.mp last]
        exact nameOther

/-- The name ends a declaration, behind word and range. -/
theorem lineTokens_declaration {start word : String} {width : Nat} {isVector : Bool}
    (tokens : lineTokens start.toList = word :: rangeTokens width isVector)
    (apart : endsApart start.toList = true) (identifier : Text.isIdentifier name = true) :
    lineTokens (start ++ name).toList = word :: rangeTokens width isVector ++ [name] := by
  rw [String.toList_append, lineTokens_append (Or.inl apart), tokens,
    lineTokens_identifier identifier]

/-- A piece of a line that declares a name, without what follows the name. -/
theorem Code.declaration {start word : String} {width : Nat} {isVector : Bool}
    (declaring : word ∈ declaringWords) (onLine : OnLine start)
    (tokens : lineTokens start.toList = word :: rangeTokens width isVector)
    (apart : endsApart start.toList = true) (declarable : Declarable known name) :
    Code widths known (start ++ name) (known ++ [name]) := by
  refine ⟨onLine.append (onLine_of_isIdentifier declarable.identifier), ?_⟩
  rw [lineTokens_declaration tokens apart declarable.identifier]
  exact reads_declaration declaring declarable width isVector

theorem onLine_rangeText (width : Nat) (isVector : Bool) : OnLine (rangeText width isVector) := by
  have opening : OnLine "[" := onLine_of_all (by decide)
  have closing : OnLine ":0] " := onLine_of_all (by decide)
  unfold rangeText
  split
  · exact (opening.append (onLine_toString _)).append closing
  · exact onLine_of_all (by decide)

theorem endsApart_rangeText (width : Nat) (isVector : Bool) :
    endsApart (rangeText width isVector).toList = true := by
  unfold rangeText
  split
  · show endsApart ("[" ++ toString (width - 1) ++ ":0] ").toList = true
    exact endsApart_suffixed (by decide)
  · rfl

theorem endsApart_both {first second : List Char} (here : endsApart first = true)
    (there : endsApart second = true) : endsApart (first ++ second) = true := by
  cases second with
  | nil => rwa [List.append_nil]
  | cons c rest =>
    rw [endsApart_append (List.cons_ne_nil c rest)]
    exact there

theorem lineTokens_range {start word : String} (tokens : lineTokens start.toList = [word])
    (apart : endsApart start.toList = true) (column width : Nat) (isVector : Bool) :
    lineTokens (start ++ RegisterBank.Verilog.padRight column (rangeText width isVector)).toList =
      word :: rangeTokens width isVector := by
  rw [String.toList_append, lineTokens_append (Or.inl apart), tokens, lineTokens_padRight,
    lineTokens_rangeText]
  rfl

theorem endsApart_range {start : String} (apart : endsApart start.toList = true)
    (column width : Nat) (isVector : Bool) :
    endsApart (start ++ RegisterBank.Verilog.padRight column (rangeText width isVector)).toList =
      true := by
  rw [String.toList_append]
  exact endsApart_both apart (endsApart_padRight (endsApart_rangeText width isVector) column)

/-- A declaring word with a range in a column of its own, and the name. -/
theorem Code.ranged {start word : String} (declaring : word ∈ declaringWords)
    (onLine : OnLine start) (tokens : lineTokens start.toList = [word])
    (apart : endsApart start.toList = true) (declarable : Declarable known name)
    (column width : Nat) (isVector : Bool) :
    Code widths known (start ++ RegisterBank.Verilog.padRight column (rangeText width isVector)
      ++ name) (known ++ [name]) :=
  .declaration declaring (onLine.append ((onLine_rangeText width isVector).padRight column))
    (lineTokens_range tokens apart column width isVector)
    (endsApart_range apart column width isVector) declarable

end Declarations

/-! ## Lines -/

/-- Lines that are read one after the other, comments or code. -/
structure Lines (widths : Nets) (known lines declared : List String) : Prop where
  unbroken : ∀ line ∈ lines, '\n' ∉ line.toList
  reads : Reads widths known (lines.flatMap fun line => codeTokens line.toList) declared

section Lines

variable {widths : Nets} {known declared later block rest : List String} {line : String}

theorem Lines.nil : Lines widths known [] known :=
  ⟨fun _ listed => absurd listed List.not_mem_nil, .nil⟩

theorem Lines.append (first : Lines widths known block declared)
    (second : Lines widths declared rest later) : Lines widths known (block ++ rest) later where
  unbroken := List.forall_mem_append.mpr ⟨first.unbroken, second.unbroken⟩
  reads := by
    rw [List.flatMap_append]
    exact first.reads.trans second.reads

/-- A line of code is read from its start to its end. -/
theorem Lines.code (only : Code widths known line declared) :
    Lines widths known [line] declared where
  unbroken := by
    intro other listed
    rw [List.mem_singleton.mp listed]
    exact fun broken => (only.onLine _ broken).1 rfl
  reads := by
    have plain : '/' ∉ line.toList := fun slash => (only.onLine _ slash).2 rfl
    rw [List.flatMap_singleton, codeTokens, withoutComment_of_not_mem plain]
    exact only.reads

theorem Lines.of_codeLines (all : CodeLines widths known block) :
    Lines widths known block known := by
  induction block with
  | nil => exact .nil
  | cons line rest ih =>
    obtain ⟨first, behind⟩ := List.forall_mem_cons.mp all
    exact (Lines.code first).append (ih behind)

theorem toList_comment (blanks text : String) : (blanks ++ ("// " ++ text)).toList =
    blanks.toList ++ '/' :: '/' :: ' ' :: text.toList := by
  simp

/-- A comment behind nothing but blanks has no tokens. -/
theorem codeTokens_comment {blanks text : String} (onLine : OnLine blanks)
    (empty : lineTokens blanks.toList = []) :
    codeTokens (blanks ++ ("// " ++ text)).toList = [] := by
  have plain : '/' ∉ blanks.toList := fun slash => (onLine _ slash).2 rfl
  rw [codeTokens, toList_comment, withoutComment_append plain, empty]

theorem unbroken_comment {blanks text : String} (onLine : OnLine blanks)
    (unbroken : '\n' ∉ text.toList) : '\n' ∉ (blanks ++ ("// " ++ text)).toList := by
  have start : '\n' ∉ blanks.toList := fun broken => (onLine _ broken).1 rfl
  rw [toList_comment]
  simp [start, unbroken]

/-- A line with a comment declares nothing. -/
theorem Lines.comment {blanks text : String} (onLine : OnLine blanks)
    (empty : lineTokens blanks.toList = []) (unbroken : '\n' ∉ text.toList) :
    Lines widths known [blanks ++ ("// " ++ text)] known := by
  constructor
  · intro other listed
    rw [List.mem_singleton.mp listed]
    exact unbroken_comment onLine unbroken
  · rw [List.flatMap_singleton, codeTokens_comment onLine empty]
    exact .nil

/-! ## Ports -/

/-- The comments of ports do not end their lines. -/
def portsFit (ports : List ModulePort) : Prop :=
  ∀ port ∈ ports, ∀ text, port.comment? = some text → '\n' ∉ text.toList

/-- A port is read as its declaration; its comment stands on a line of its
own. -/
theorem ModulePort.lines_read {port : ModulePort}
    (unbroken : ∀ text, port.comment? = some text → '\n' ∉ text.toList)
    (declarable : Declarable known port.name) (isLast : Bool) :
    Lines widths known (indent (port.lines isLast)) (known ++ [port.name]) := by
  have direction : Code widths known (RegisterBank.Verilog.padRight 6 port.direction.keyword)
      known := by
    refine Code.padRight ?_ 6
    cases port.direction <;> exact .fixed (by decide)
  have declaration : Code widths known (" wire " ++
      RegisterBank.Verilog.padRight portColumn (rangeText port.width false) ++ port.name)
      (known ++ [port.name]) :=
    .ranged (by decide : "wire" ∈ declaringWords) (onLine_of_all (by decide)) (by decide)
      (by decide) declarable portColumn port.width false
  have apart : startsApart (" wire " ++
      RegisterBank.Verilog.padRight portColumn (rangeText port.width false) ++ port.name).toList =
        true := by
    rw [String.toList_append, String.toList_append, List.append_assoc,
      startsApart_append (by decide)]
    decide
  have line : Code widths known (RegisterBank.Verilog.padRight 6 port.direction.keyword ++ " wire "
      ++ RegisterBank.Verilog.padRight portColumn (rangeText port.width false) ++ port.name
      ++ (if isLast then "" else ",")) (known ++ [port.name]) := by
    have whole := direction.append declaration (Or.inr apart)
    simp only [← String.append_assoc] at whole
    cases isLast
    · exact whole.suffixed (by decide)
    · exact whole.suffixed (by decide)
  unfold ModulePort.lines indent
  rw [List.map_append]
  refine Lines.append ?_ (.code (line.prefixed (by decide)))
  cases given : port.comment? with
  | none => exact .nil
  | some text => exact .comment (onLine_of_all (by decide)) (by decide) (unbroken text given)

/-- Names that may be declared one after the other. -/
structure Declarables (known names : List String) : Prop where
  each : ∀ name ∈ names, Text.isIdentifier name = true ∧ name ∉ templateWords
  fresh : (known ++ names).Nodup

/-- Names that may be declared in a row may be declared in two parts. -/
theorem Declarables.append {names others : List String}
    (declarables : Declarables known (names ++ others)) :
    Declarables known names ∧ Declarables (known ++ names) others := by
  obtain ⟨each, fresh⟩ := declarables
  rw [← List.append_assoc] at fresh
  exact ⟨⟨fun name listed => each name (List.mem_append_left _ listed),
      fresh.sublist (List.sublist_append_left _ _)⟩,
    ⟨fun name listed => each name (List.mem_append_right _ listed), fresh⟩⟩

theorem Declarables.single {name : String} (declarables : Declarables known [name]) :
    Declarable known name := by
  obtain ⟨identifier, template⟩ := declarables.each name List.mem_cons_self
  refine ⟨identifier, template, fun listed => ?_⟩
  exact (List.nodup_append.mp declarables.fresh).2.2 name listed name List.mem_cons_self rfl

theorem Declarables.identifiers {names : List String} (declarables : Declarables known names)
    (identifiers : ∀ name ∈ known, Text.isIdentifier name = true) :
    ∀ name ∈ known ++ names, Text.isIdentifier name = true :=
  List.forall_mem_append.mpr ⟨identifiers, fun name listed => (declarables.each name listed).1⟩

/-- By induction on the ports: each declares its name, and all but the last have
a comma. -/
theorem portLines_read {ports : List ModulePort} (fit : portsFit ports)
    (declarables : Declarables known (ports.map ModulePort.name)) :
    Lines widths known (indent (portLines ports)) (known ++ ports.map ModulePort.name) := by
  induction ports generalizing known with
  | nil =>
    rw [List.map_nil, List.append_nil]
    exact .nil
  | cons port rest ih =>
    have split : Declarables known ([port.name] ++ rest.map ModulePort.name) := declarables
    obtain ⟨first, behind⟩ := split.append
    have here (isLast : Bool) :
        Lines widths known (indent (port.lines isLast)) (known ++ [port.name]) :=
      port.lines_read (fit port List.mem_cons_self) first.single isLast
    have there := ih (fun other listed => fit other (List.mem_cons_of_mem _ listed)) behind
    rw [List.append_assoc] at there
    cases rest with
    | nil => exact here true
    | cons next rest =>
      unfold indent at here there ⊢
      rw [portLines, List.map_append]
      exact (here false).append there

/-! ## Items -/

/-- The words and symbols of an item. -/
def Item.tokens (item : Item) : List String :=
  item.lines.flatMap fun line => codeTokens line.toList

/-- The name that an item declares, if any. -/
def Item.names (item : Item) : List String := (item.declared?.map Prod.fst).toList

/-- The events of a clocked block, on ports that are known. -/
def EventsFit (known : List String) (sensitivity : String) : Prop :=
  ∃ style : ResetStyle, sensitivity = style.sensitivity ∧ "clk" ∈ known ∧ style.port ∈ known

theorem eventsFit_sensitivity {style : ResetStyle} (clock : "clk" ∈ known)
    (reset : style.port ∈ known) : EventsFit known style.sensitivity :=
  ⟨style, rfl, clock, reset⟩

theorem EventsFit.mono {others : List String} (wider : known ⊆ others) {sensitivity : String}
    (fit : EventsFit known sensitivity) : EventsFit others sensitivity := by
  obtain ⟨style, rfl, clock, reset⟩ := fit
  exact eventsFit_sensitivity (wider clock) (wider reset)

/-- An item that fits where some nets are known. -/
def Item.Fits (widths : Nets) (known : List String) : Item → Prop
  | .blank => True
  | .comment text => '\n' ∉ text.toList
  | .parameter _ value => value < 2 ^ 1
  | .declare net => ∀ value, net.value? = some value → value.Fits widths known
  | .assign target _ value => target ∈ known ∧ value.Fits widths known
  | .always sensitivity body => EventsFit known sensitivity ∧ body.Fits widths known

theorem Code.events {sensitivity : String} (fit : EventsFit known sensitivity) :
    Code widths known sensitivity known := by
  obtain ⟨style, rfl, clock, reset⟩ := fit
  have onLine : OnLine style.sensitivity := onLine_of_all (by cases style <;> decide)
  have tokens : (∀ name ∈ (lineTokens style.sensitivity.toList).filter isName,
        name ∈ plainWords ∨ name ∈ ["clk", style.port]) ∧
      ∀ token ∈ lineTokens style.sensitivity.toList, token ≠ "[" ∧ '\'' ∉ token.toList := by
    cases style <;> decide
  obtain ⟨names, plain⟩ := tokens
  refine ⟨onLine, .of_forall fun name listed => (names name listed).imp_right ?_, .of_forall plain⟩
  intro either
  rcases List.mem_cons.mp either with rfl | either
  · exact clock
  · rw [List.mem_singleton.mp either]
    exact reset

/-- The line of a comment between items. -/
theorem Lines.remark {text : String} (unbroken : '\n' ∉ text.toList) :
    Lines widths known ["// " ++ text] known := by
  have line : Lines widths known ["" ++ ("// " ++ text)] known :=
    .comment (onLine_of_all (by decide)) (by decide) unbroken
  rw [String.empty_append] at line
  exact line

/-- A parameter declares its name and has a one-bit literal. -/
theorem Code.parameter {name : String} {value : Nat} (declarable : Declarable known name)
    (small : value < 2 ^ 1) :
    Code widths known ("localparam " ++ name ++ " = " ++ sizedBinary 1 value ++ ";")
      (known ++ [name]) := by
  have declaration : Code widths known ("localparam " ++ name) (known ++ [name]) :=
    .declaration (by decide : "localparam" ∈ declaringWords) (onLine_of_all (by decide))
      (by decide : _ = "localparam" :: rangeTokens 1 false) (by decide) declarable
  exact (declaration.joined (.binary small) (by decide)).suffixed (by decide)

/-- The word of a net's kind stands in front of its range. -/
theorem NetKind.reads_text (kind : NetKind) :
    OnLine kind.text ∧ endsApart kind.text.toList = true ∧
      ∃ word ∈ declaringWords, lineTokens kind.text.toList = [word] := by
  cases kind with
  | wire => exact ⟨onLine_of_all (by decide), by decide, "wire", by decide, by decide⟩
  | reg => exact ⟨onLine_of_all (by decide), by decide, "reg", by decide, by decide⟩

/-- A net declares its name and may have an expression of nets declared before
it. -/
theorem Code.net {net : Net} (identifiers : ∀ name ∈ known, Text.isIdentifier name = true)
    (declarable : Declarable known net.name)
    (fits : ∀ value, net.value? = some value → value.Fits widths known) :
    Code widths known net.text (known ++ [net.name]) := by
  obtain ⟨onLine, apart, word, declaring, tokens⟩ := net.kind.reads_text
  have declaration : Code widths known (net.kind.text
      ++ RegisterBank.Verilog.padRight net.column (rangeText net.width net.isVector)
      ++ net.name) (known ++ [net.name]) :=
    .ranged declaring onLine tokens apart declarable net.column net.width net.isVector
  unfold Net.text
  cases given : net.value? with
  | none =>
    simp only [String.append_empty]
    exact declaration.suffixed (by decide)
  | some value =>
    have wider : ∀ name ∈ known ++ [net.name], Text.isIdentifier name = true := by
      refine List.forall_mem_append.mpr ⟨identifiers, fun name listed => ?_⟩
      rw [List.mem_singleton.mp listed]
      exact declarable.identifier
    have follows : Code widths (known ++ [net.name]) value.text (known ++ [net.name]) :=
      value.code wider (Expr.Fits.mono (List.subset_append_left _ _) value (fits value given))
    simp only [← String.append_assoc]
    exact (declaration.joined follows (by decide)).suffixed (by decide)

/-- An assignment drives a net that is declared before it. -/
theorem Code.assign {target : String} {value : Expr}
    (identifiers : ∀ name ∈ known, Text.isIdentifier name = true) (listed : target ∈ known)
    (fits : value.Fits widths known) (column : Nat) :
    Code widths known
      ("assign " ++ RegisterBank.Verilog.padRight column target ++ " = " ++ value.text ++ ";")
      known := by
  have start : Code widths known target known :=
    .identifier (identifiers target listed) (.use listed .nil)
  have left : Code widths known
      ("assign " ++ RegisterBank.Verilog.padRight column target) known :=
    (start.padRight column).prefixed (by decide)
  exact (left.joined (value.code identifiers fits) (by decide)).suffixed (by decide)

/-- A clocked block: its events, the statements and the line that ends it. -/
theorem CodeLines.always {sensitivity : String} {body : Stmt}
    (identifiers : ∀ name ∈ known, Text.isIdentifier name = true)
    (events : EventsFit known sensitivity) (fits : body.Fits widths known) :
    CodeLines widths known (("always " ++ sensitivity ++ " begin")
      :: RegisterBank.Verilog.indent body.lines ++ ["end"]) := by
  have block := (body.printed identifiers fits).lines.indent
  exact (CodeLines.cons ((Code.events events).wrapped (by decide)) block).append
    (.single (.fixed (by decide)))

/-- An item that fits is read, and it declares its name if it has one. -/
theorem Item.lines_read {item : Item}
    (identifiers : ∀ name ∈ known, Text.isIdentifier name = true) (fits : item.Fits widths known)
    (declarables : Declarables known item.names) :
    Lines widths known item.lines (known ++ item.names) := by
  -- Only parameters and nets declare a name; behind the others the same names are known.
  have same : known ++ [] = known := List.append_nil known
  cases item with
  | blank =>
    show Lines widths known [""] (known ++ [])
    rw [same]
    exact .code .empty
  | comment text =>
    show Lines widths known ["// " ++ text] (known ++ [])
    rw [same]
    exact .remark fits
  | parameter name value => exact .code (.parameter declarables.single fits)
  | declare net => exact .code (.net identifiers declarables.single fits)
  | assign target column value =>
    show Lines widths known ["assign " ++ RegisterBank.Verilog.padRight column target ++ " = "
      ++ value.text ++ ";"] (known ++ [])
    rw [same]
    exact .code (.assign identifiers fits.1 fits.2 column)
  | always sensitivity body =>
    show Lines widths known (("always " ++ sensitivity ++ " begin")
      :: RegisterBank.Verilog.indent body.lines ++ ["end"]) (known ++ [])
    rw [same]
    exact .of_codeLines (.always identifiers fits.1 fits.2)

/-- Items that fit one after the other, each where the ports and the items
before it are known. -/
def ItemsFit (widths : Nets) : List String → List Item → Prop
  | _, [] => True
  | known, item :: rest => item.Fits widths known ∧ ItemsFit widths (known ++ item.names) rest

/-- Items fit one after another where the first ones' names are known to the
later ones. -/
theorem itemsFit_append {items later : List Item} : ItemsFit widths known (items ++ later) ↔
    ItemsFit widths known items ∧ ItemsFit widths (known ++ items.flatMap Item.names) later := by
  induction items generalizing known with
  | nil => simp [ItemsFit]
  | cons item rest ih =>
    rw [List.cons_append, ItemsFit, ItemsFit, ih, List.flatMap_cons, List.append_assoc, and_assoc]

/-- An item still fits where more nets are known. -/
theorem Item.Fits.mono {others : List String} (wider : known ⊆ others) {item : Item}
    (fits : item.Fits widths known) : item.Fits widths others := by
  cases item with
  | blank => trivial
  | comment text => exact fits
  | parameter name value => exact fits
  | declare net => exact fun value given => Expr.Fits.mono wider value (fits value given)
  | assign target column value => exact ⟨wider fits.1, Expr.Fits.mono wider value fits.2⟩
  | always sensitivity body => exact ⟨fits.1.mono wider, Stmt.Fits.mono wider body fits.2⟩

theorem ItemsFit.mono {others : List String} (wider : known ⊆ others) {items : List Item}
    (fit : ItemsFit widths known items) : ItemsFit widths others items := by
  induction items generalizing known others with
  | nil => trivial
  | cons item rest ih =>
    exact ⟨fit.1.mono wider, ih (List.append_subset.mpr
      ⟨List.subset_append_of_subset_left _ wider, List.subset_append_right _ _⟩) fit.2⟩

/-- Items that need none of the others to be declared. -/
theorem ItemsFit.of_forall {items : List Item} (fit : ∀ item ∈ items, item.Fits widths known) :
    ItemsFit widths known items := by
  induction items generalizing known with
  | nil => trivial
  | cons item rest ih =>
    obtain ⟨first, behind⟩ := List.forall_mem_cons.mp fit
    exact ⟨first, ih fun other listed =>
      (behind other listed).mono (List.subset_append_left _ _)⟩

/-- Blocks that fit on their own fit one after the other. -/
theorem ItemsFit.flatMap {α : Type} {elements : List α} {items : α → List Item}
    (fit : ∀ element ∈ elements, ItemsFit widths known (items element)) :
    ItemsFit widths known (elements.flatMap items) := by
  induction elements generalizing known with
  | nil => trivial
  | cons element rest ih =>
    rw [List.flatMap_cons, itemsFit_append]
    refine ⟨fit element List.mem_cons_self, ih fun other listed => ?_⟩
    exact (fit other (List.mem_cons_of_mem _ listed)).mono (List.subset_append_left _ _)

/-- By induction on the items: each is read where the names before it are
known. -/
theorem items_read {items : List Item} (fit : ItemsFit widths known items)
    (identifiers : ∀ name ∈ known, Text.isIdentifier name = true)
    (declarables : Declarables known (items.flatMap Item.names)) :
    Lines widths known (items.flatMap Item.lines) (known ++ items.flatMap Item.names) := by
  induction items generalizing known with
  | nil =>
    rw [List.flatMap_nil, List.flatMap_nil, List.append_nil]
    exact .nil
  | cons item rest ih =>
    rw [List.flatMap_cons] at declarables
    obtain ⟨first, behind⟩ := declarables.append
    have there := ih fit.2 (first.identifiers identifiers) behind
    rw [List.append_assoc] at there
    exact (item.lines_read identifiers fit.1 first).append there

/-! ## Modules -/

/-- A module whose names may be declared one after the other and whose items
fit. -/
structure Module.Fits (widths : Nets) (design : Module) : Prop where
  comments : ∀ text ∈ design.comments, '\n' ∉ text.toList
  name : Text.isIdentifier design.name = true
  ports : portsFit design.ports
  declarables : Declarables [] (design.ports.map ModulePort.name ++ design.items.flatMap Item.names)
  items : ItemsFit widths (design.ports.map ModulePort.name) design.items

/-- The line that opens a module. -/
theorem title_read {name : String} (identifier : Text.isIdentifier name = true) :
    OnLine ("module " ++ name ++ " (") ∧
      lineTokens ("module " ++ name ++ " (").toList = ["module", name, "("] := by
  have opening : OnLine "module " := onLine_of_all (by decide)
  have after : OnLine " (" := onLine_of_all (by decide)
  refine ⟨(opening.append (onLine_of_isIdentifier identifier)).append after, ?_⟩
  rw [String.toList_append, lineTokens_append (Or.inr (by decide)), String.toList_append,
    lineTokens_append (Or.inl (by decide)), lineTokens_identifier identifier]
  rfl

/-- The comments in front of a module have no tokens. -/
theorem Module.heading_read (design : Module)
    (unbroken : ∀ text ∈ design.comments, '\n' ∉ text.toList) :
    ∀ line ∈ design.comments.map (fun text => "// " ++ text) ++ [""],
      '\n' ∉ line.toList ∧ codeTokens line.toList = [] := by
  intro line listed
  rcases List.mem_append.mp listed with comment | empty
  · obtain ⟨text, member, rfl⟩ := List.mem_map.mp comment
    have noBlanks : OnLine "" := onLine_of_all (by decide)
    rw [← String.empty_append (s := "// " ++ text)]
    exact ⟨unbroken_comment noBlanks (unbroken text member), codeTokens_comment noBlanks rfl⟩
  · rw [List.mem_singleton.mp empty]
    exact ⟨by decide, rfl⟩

/-- The comments, the line that opens the module, and what is read behind it. -/
theorem Module.lines_eq (design : Module) : design.lines =
    (design.comments.map (fun text => "// " ++ text) ++ [""]) ++
      (("module " ++ design.name ++ " (") :: (indent (portLines design.ports) ++ [");", ""]
        ++ design.items.flatMap Item.lines ++ ["", "endmodule"])) := by
  unfold Module.lines
  simp only [List.append_assoc]
  rfl

/-- What stands behind the parenthesis that opens the ports. -/
theorem Module.body_read {design : Module} (fits : design.Fits widths) :
    Lines widths [] (indent (portLines design.ports) ++ [");", ""]
        ++ design.items.flatMap Item.lines ++ ["", "endmodule"])
      (design.ports.map ModulePort.name ++ design.items.flatMap Item.names) := by
  obtain ⟨portNames, itemNames⟩ := fits.declarables.append
  have identifiers : ∀ name ∈ design.ports.map ModulePort.name, Text.isIdentifier name = true :=
    fun name listed => (portNames.each name listed).1
  have ports : Lines widths [] (indent (portLines design.ports))
      (design.ports.map ModulePort.name) :=
    portLines_read fits.ports portNames
  have items := items_read fits.items identifiers itemNames
  have closing : Lines widths (design.ports.map ModulePort.name) [");", ""]
      (design.ports.map ModulePort.name) :=
    .of_codeLines (.cons (.fixed (by decide)) (.single .empty))
  have ending : Lines widths (design.ports.map ModulePort.name ++ design.items.flatMap Item.names)
      ["", "endmodule"] (design.ports.map ModulePort.name ++ design.items.flatMap Item.names) :=
    .of_codeLines (.cons .empty (.single (.fixed (by decide))))
  exact ((ports.append closing).append items).append ending

/-- The text of a module that fits starts with the module's name.  What follows
declares the names of the ports and the items, and has every item in it. -/
theorem Module.tokens_text {design : Module} (fits : design.Fits widths) :
    ∃ rest, tokens design.text = "module" :: design.name :: rest ∧
      Reads widths [] rest
        (design.ports.map ModulePort.name ++ design.items.flatMap Item.names) ∧
      ∀ item ∈ design.items, item.tokens <:+: rest := by
  have parenthesis : Reads widths [] ["("] [] :=
    ⟨.of_forall (by decide), .of_forall (by decide)⟩
  have body := Module.body_read fits
  have title := title_read fits.name
  have heading := design.heading_read fits.comments
  have lines := design.lines_eq
  have unbroken : ∀ line ∈ design.lines, '\n' ∉ line.toList := by
    rw [lines]
    refine List.forall_mem_append.mpr ⟨fun line listed => (heading line listed).1,
      List.forall_mem_cons.mpr ⟨fun broken => (title.1 _ broken).1 rfl, body.unbroken⟩⟩
  have plain : '/' ∉ ("module " ++ design.name ++ " (").toList := fun slash =>
    (title.1 _ slash).2 rfl
  refine ⟨_, ?_, parenthesis.trans body.reads, fun item listed => ?_⟩
  · rw [Module.text, tokens_linesText unbroken, lines, List.flatMap_append, List.flatMap_cons,
      List.flatMap_eq_nil_iff.mpr fun line listed => (heading line listed).2, List.nil_append,
      codeTokens, withoutComment_of_not_mem plain, title.2]
    rfl
  · have inside : item.tokens <:+:
        (design.items.flatMap Item.lines).flatMap fun line => codeTokens line.toList := by
      rw [List.flatMap_assoc]
      exact List.infix_of_mem_flatten (List.mem_map_of_mem listed)
    rw [List.flatMap_append, List.flatMap_append, ← List.append_assoc, ← List.append_assoc]
    exact inside.trans (List.infix_append _ _ _)

end Lines

end RegisterBank.Verilog
