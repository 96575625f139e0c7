import Mathlib.Data.List.Forall2
import RegisterBank.Proofs.Construction.ResetValue
import RegisterBank.Proofs.Construction.Workbench
import RegisterBank.Proofs.Layout.Placement
import RegisterBank.Proofs.Reference.Pages
import RegisterBank.Proofs.Reference.Rows
import RegisterBank.Proofs.Text.Characters
import RegisterBank.Proofs.Text.Constants
import RegisterBank.Verilog.Printer

/-!
# The tables of a reference page

A page falls into its parts: what is above the configuration, the table of the
options, the summary, and a section for each register (`PageTables`).  Each table
has the rows it is to have, in their order, and each row is one line with as many
cells as there are headings, whatever the descriptions are.  Free text comes into
a row through `cell` only; everything else that stands there is put together from
identifiers, numbers and fixed words, and so `Plain`.  The order of the fields is
strict since fields that share no bit start at different ones.
-/

namespace RegisterBank.Reference

open RegisterBank.Verilog (linesText)

/-! ## What the tables are to be -/

/-- The lines of a table: the headings, a rule below them, and some rows with as
many cells as there are headings. -/
structure IsTable (headings rows lines : List String) : Prop where
  shape : ∃ header rule, lines = header :: rule :: rows ∧
    IsRow header (headings.map spaced) ∧ IsRow rule (headings.map dashes)
  rows : ∀ row ∈ rows, ∃ cells, IsRow row cells ∧ cells.length = headings.length

/-- The row of an option: its key as code, and its value.  The filler is shown as
a constant and every other value as it is. -/
structure ShowsOption (entry : Setting × SettingValue) (row : String) : Prop where
  filler : ∀ value, entry = (.readFiller, .int value) →
    IsRow row [" `read_filler` ", spaced (cell (Text.hexConstant value))]
  other : (∀ value, entry ≠ (.readFiller, .int value)) →
    IsRow row [spaced s!"`{entry.1.key}`", spaced (cell entry.2.display)]

/-- A row of the summary, whose address and reset cells read back. -/
def ShowsRegister (placed : PlacedRegister) (row : String) : Prop :=
  ∃ address reset,
    IsRow row [address, spaced s!"[{placed.name}](#{Text.lowerCase placed.name})", reset,
      spaced (cell placed.register.description)] ∧
    Text.integer? address = some placed.address ∧
    Text.integer? reset = some placed.register.resetValue

/-- The bits of a field: one index for a single bit, else both ends. -/
structure ShowsBits (bits : BitRange) (shown : String) : Prop where
  single : bits.width = 1 → shown = s!"[{bits.lsb}]"
  several : bits.width ≠ 1 → shown = s!"[{bits.lsb + bits.width - 1}:{bits.lsb}]"

/-- The reset value of a field, as a constant that reads back.  A field that
hardware drives has none. -/
structure ShowsInitial (field : Field) (shown : String) : Prop where
  driven : field.isHardwareDriven = true → shown = "-"
  stored : field.isHardwareDriven = false →
    shown = Text.hexConstant field.initial ∧ Text.integer? shown = some field.initial

/-- The row of a field: its bits, its name, the word for its access, its reset
value, the words for its modifiers, and its description. -/
def ShowsField (field : Field) (row : String) : Prop :=
  ∃ bits initial, ShowsBits field.bits bits ∧ ShowsInitial field initial ∧
    IsRow row [spaced bits, spaced field.name, spaced field.access.word, spaced initial,
      spaced (", ".intercalate field.modifiers.words), spaced (cell field.description)]

/-- The summary: a row for each register in declaration order. -/
structure IsSummary (layout : Layout) (lines : List String) : Prop where
  empty : layout.registers = [] → lines = ["The register map is empty."]
  filled : layout.registers ≠ [] → ∃ rows,
    IsTable ["Address", "Name", "Reset", "Description"] rows lines ∧
      List.Forall₂ ShowsRegister layout.registers rows

/-- What stands about the fields of a register: a row for each of them, each
field above the next. -/
structure IsFieldTable (register : Register) (lines : List String) : Prop where
  empty : register.fields = [] → lines = ["No bit fields."]
  filled : register.fields ≠ [] → ∃ fields rows,
    IsTable ["Bits", "Name", "Access", "Reset", "Modifiers", "Description"] rows lines ∧
      fields.Perm register.fields ∧
      fields.Pairwise (fun higher lower => lower.bits.lsb < higher.bits.lsb) ∧
      List.Forall₂ ShowsField fields rows

/-- The section of a register: its name, its address and reset value, its
description if there is one, and its fields. -/
def IsSection (layout : Layout) (placed : PlacedRegister) (lines : List String) : Prop :=
  ∃ table, IsFieldTable placed.register table ∧
    lines = ["### " ++ placed.name, "",
        s!"Address: `{addressText layout placed}`, reset value: `{resetText layout placed}`", ""]
      ++ (if placed.register.description = "" then [] else [placed.register.description, ""])
      ++ table

/-- A page with its tables: the lines of the options, of the summary, and of the
section of each register. -/
structure PageTables (map : RegisterMap) (layout : Layout) (mapName : String)
    (options summary : List String) (sections : List (List String)) : Prop where
  declared : layout.registers.map PlacedRegister.register = map.registers
  text : page layout mapName = linesText
    (["# Register map `" ++ mapName ++ "`", "", "Generated by regmap-compiler, do not edit.", "",
        "## Configuration", ""]
      ++ options ++ ["", "## Registers", ""] ++ summary
      ++ sections.flatMap fun lines => "" :: lines)
  options : ∃ rows, IsTable ["Option", "Value"] rows options ∧
    List.Forall₂ ShowsOption map.config.values rows
  summary : IsSummary layout summary
  sections : List.Forall₂ (IsSection layout) layout.registers sections

/-! ## Plain texts -/

section Plain

variable {text : String}

theorem Plain.append {other : String} (here : Plain text) (there : Plain other) :
    Plain (text ++ other) :=
  Text.forall_mem_append here there

/-- Letters, digits and underscores neither end a cell nor need an escape. -/
theorem plain_of_word (characters : ∀ c ∈ text.toList, Text.isIdentifierRest c = true) :
    Plain text := by
  have apart {c d : Char} (inside : Text.isIdentifierRest c = true)
      (outside : Text.isIdentifierRest d = false) : c ≠ d := by
    intro same
    rw [same, outside] at inside
    cases inside
  intro c listed
  have inside := characters c listed
  exact isPlain_iff.mpr
    ⟨apart inside (by decide), apart inside (by decide), apart inside (by decide)⟩

theorem plain_of_isIdentifier (identifier : Text.isIdentifier text = true) : Plain text :=
  plain_of_word fun _ listed => Text.isIdentifierRest_of_mem identifier listed

theorem plain_toString (value : Nat) : Plain (toString value) :=
  plain_of_word (Text.isIdentifierRest_of_mem_toString value)

theorem plain_hexAddress (value width : Nat) : Plain (Text.hexAddress value width) :=
  plain_of_word (Text.isIdentifierRest_of_mem_hexAddress value width)

theorem plain_hexConstant (value : Nat) : Plain (Text.hexConstant value) :=
  plain_of_word (Text.isIdentifierRest_of_mem_hexConstant value)

end Plain

/-! ## Rows -/

theorem plain_key (setting : Setting) : Plain s!"`{setting.key}`" := by
  cases setting <;> decide

/-- The value of an option is free text, which goes through `cell`. -/
theorem safe_optionRow (setting : Setting) (value : SettingValue) :
    ∀ text ∈ optionRow setting value, Safe text := by
  intro text listed
  rcases List.mem_cons.mp listed with rfl | listed
  · exact (plain_key setting).safe
  · rw [List.mem_singleton.mp listed]
    exact safe_cell _

/-- Of a register only the description can hold what breaks a row. -/
theorem safe_summaryRow {layout : Layout} {placed : PlacedRegister}
    (named : Text.isIdentifier placed.name = true) :
    ∀ text ∈ summaryRow layout placed, Safe text := by
  have small : Text.isIdentifier (Text.lowerCase placed.name) = true :=
    NamingCase.isIdentifier_apply .lower named
  have opening : Plain "[" := by decide
  have middle : Plain "](#" := by decide
  have closing : Plain ")" := by decide
  have link : Plain s!"[{placed.name}](#{Text.lowerCase placed.name})" :=
    (((opening.append (plain_of_isIdentifier named)).append middle).append
      (plain_of_isIdentifier small)).append closing
  unfold summaryRow
  refine List.forall_mem_cons.mpr ⟨(plain_hexAddress _ _).safe, ?_⟩
  refine List.forall_mem_cons.mpr ⟨link.safe, ?_⟩
  refine List.forall_mem_cons.mpr ⟨(plain_hexAddress _ _).safe, ?_⟩
  exact List.forall_mem_singleton.mpr (safe_cell _)

theorem plain_bits (bits : BitRange) : Plain bits.text := by
  have opening : Plain "[" := by decide
  have colon : Plain ":" := by decide
  have closing : Plain "]" := by decide
  unfold BitRange.text
  split
  · exact (opening.append (plain_toString _)).append closing
  · exact (((opening.append (plain_toString _)).append colon).append (plain_toString _)).append
      closing

/-- Modifiers are listed with commas, so that one cell holds them all. -/
theorem plain_modifiers (modifiers : Modifiers) : Plain (", ".intercalate modifiers.words) := by
  have words : ∀ modifier : Modifier, Plain modifier.word := by
    intro modifier
    cases modifier <;> decide
  have separator : Plain ", " := by decide
  refine Text.forall_mem_intercalate separator ?_
  intro word listed
  obtain ⟨modifier, -, rfl⟩ := List.mem_map.mp listed
  exact words modifier

/-- Whatever its description is, a field's row stays on one line. -/
theorem safe_fieldRow {field : Field} (named : Text.isIdentifier field.name = true) :
    ∀ text ∈ fieldRow field, Safe text := by
  have access : Plain field.access.word := by
    cases field.access <;> decide
  have reset : Plain (if field.isHardwareDriven then "-" else Text.hexConstant field.initial) := by
    split
    · decide
    · exact plain_hexConstant _
  unfold fieldRow
  refine List.forall_mem_cons.mpr ⟨(plain_bits _).safe, ?_⟩
  refine List.forall_mem_cons.mpr ⟨(plain_of_isIdentifier named).safe, ?_⟩
  refine List.forall_mem_cons.mpr ⟨access.safe, ?_⟩
  refine List.forall_mem_cons.mpr ⟨reset.safe, ?_⟩
  refine List.forall_mem_cons.mpr ⟨(plain_modifiers _).safe, ?_⟩
  exact List.forall_mem_singleton.mpr (safe_cell _)

/-! ## Tables -/

/-- A table of plain headings and of safe rows, one for each of some entries. -/
theorem isTable_lines {α : Type} {headings : List String} {entries : List α}
    {row : α → List String} (plain : ∀ text ∈ headings, Plain text)
    (safe : ∀ entry ∈ entries, ∀ text ∈ row entry, Safe text)
    (width : ∀ entry, (row entry).length = headings.length) :
    IsTable headings ((entries.map row).map rowText) (Table.lines ⟨headings, entries.map row⟩) where
  shape := ⟨_, _, rfl, isRow_rowText fun text listed => (plain text listed).safe,
    isRow_ruleText headings⟩
  rows := by
    intro line listed
    obtain ⟨texts, member, rfl⟩ := List.mem_map.mp listed
    obtain ⟨entry, inside, rfl⟩ := List.mem_map.mp member
    refine ⟨_, isRow_rowText (safe entry inside), ?_⟩
    rw [List.length_map]
    exact width entry

/-- Rows that are printed one for each entry show the entries in their order. -/
theorem forall₂_rows {α : Type} {shows : α → String → Prop} {entries : List α}
    {row : α → List String} (each : ∀ entry ∈ entries, shows entry (rowText (row entry))) :
    List.Forall₂ shows entries ((entries.map row).map rowText) := by
  rw [List.map_map, List.forall₂_map_right_iff, List.forall₂_same]
  exact each

/-- The row that is written for an option shows it. -/
theorem showsOption_optionRow (entry : Setting × SettingValue) :
    ShowsOption entry (rowText (optionRow entry.1 entry.2)) := by
  have row := isRow_rowText (safe_optionRow entry.1 entry.2)
  constructor
  · intro value same
    rw [same] at row ⊢
    exact row
  · intro other
    have shown : optionRow entry.1 entry.2 = [s!"`{entry.1.key}`", cell entry.2.display] := by
      unfold optionRow
      split
      · rename_i value setting same
        exact absurd (Prod.ext setting same) (other value)
      · rfl
    rw [shown] at row ⊢
    exact row

/-- The configuration has a row for each option that is set, in the order of the
options. -/
theorem exists_optionRows (config : Configuration) : ∃ rows,
    IsTable ["Option", "Value"] rows (optionTable config).lines ∧
      List.Forall₂ ShowsOption config.values rows := by
  have headings : ∀ text ∈ ["Option", "Value"], Plain text := by decide
  have safe : ∀ entry ∈ config.values, ∀ text ∈ optionRow entry.1 entry.2, Safe text :=
    fun entry _ => safe_optionRow entry.1 entry.2
  have width : ∀ entry : Setting × SettingValue, (optionRow entry.1 entry.2).length = 2 :=
    fun _ => rfl
  have table := isTable_lines headings safe width
  have rows : List.Forall₂ ShowsOption config.values _ :=
    forall₂_rows fun entry _ => showsOption_optionRow entry
  exact ⟨_, table, rows⟩

section Registers

variable {map : RegisterMap} {layout : Layout} (valid : map.Valid)
  (resolved : Layout.resolve map = .ok layout)

include valid resolved

/-- Registers of a layout keep the names that their map checked. -/
theorem isIdentifier_placed {placed : PlacedRegister} (listed : placed ∈ layout.registers) :
    Text.isIdentifier placed.name = true :=
  (valid.registers _ ((Layout.stands_of_resolve valid resolved).declared placed listed)).name

/-- A row of the summary reads back to the register's address and reset
value. -/
theorem showsRegister_summaryRow {placed : PlacedRegister} (listed : placed ∈ layout.registers) :
    ShowsRegister placed (rowText (summaryRow layout placed)) := by
  have stands := Layout.stands_of_resolve valid resolved
  have declared := stands.declared placed listed
  have sound := valid.registers placed.register declared
  have small {value width : Nat} (below : value < 2 ^ width) (narrow : width ≤ 64) :
      value < Text.integerLimit :=
    Nat.lt_of_lt_of_le below (Nat.pow_le_pow_right (by decide) narrow)
  have addressWidth := valid.config.addressWidth.2
  have address : placed.address < Text.integerLimit :=
    small (stands.bounded placed listed) (by omega)
  have reset : placed.register.resetValue < Text.integerLimit :=
    small (sound.resetValue_lt (valid.allowed placed.register declared).above_le)
      valid.config.dataWidth_le
  exact ⟨spaced (addressText layout placed), spaced (resetText layout placed),
    isRow_rowText (safe_summaryRow sound.name), (Text.integer?_hexAddress address _).2,
    (Text.integer?_hexAddress reset _).2⟩

/-- A map without registers has a sentence in place of its summary. -/
theorem isSummary_lines : IsSummary layout
    (if layout.registers.isEmpty then Block.paragraph "The register map is empty."
      else .table (summaryTable layout)).lines where
  empty := by
    intro none
    rw [none]
    rfl
  filled := by
    intro some
    have headings : ∀ text ∈ ["Address", "Name", "Reset", "Description"], Plain text := by decide
    have safe : ∀ placed ∈ layout.registers, ∀ text ∈ summaryRow layout placed, Safe text :=
      fun placed listed => safe_summaryRow (isIdentifier_placed valid resolved listed)
    have width : ∀ placed, (summaryRow layout placed).length = 4 := fun _ => rfl
    have table := isTable_lines headings safe width
    have rows := forall₂_rows fun placed listed => showsRegister_summaryRow valid resolved listed
    rw [List.isEmpty_eq_false_iff.mpr some]
    exact ⟨_, table, rows⟩

end Registers

/-! ## Fields -/

/-- Sorting neither drops a field nor repeats one. -/
theorem perm_descendingFields (register : Register) :
    (descendingFields register).Perm register.fields :=
  List.mergeSort_perm _ _

/-- Bits are shown by their ends, the highest first, or by their only bit. -/
theorem showsBits_text (bits : BitRange) : ShowsBits bits bits.text where
  single one := if_pos one
  several more := if_neg more

/-- The row that is written for a valid field shows it. -/
theorem showsField_fieldRow {field : Field} (valid : field.Valid) :
    ShowsField field (rowText (fieldRow field)) := by
  have small : field.initial < Text.integerLimit :=
    Nat.lt_of_lt_of_le valid.initial_lt (Nat.pow_le_pow_right (by decide) valid.width_le)
  have initial : ShowsInitial field
      (if field.isHardwareDriven then "-" else Text.hexConstant field.initial) := by
    constructor
    · exact fun driven => if_pos driven
    · intro stored
      rw [stored, if_neg Bool.false_ne_true]
      exact ⟨rfl, Text.integer?_hexConstant small⟩
  exact ⟨_, _, showsBits_text field.bits, initial, isRow_rowText (safe_fieldRow valid.name)⟩

section Fields

variable {register : Register} (valid : register.Valid)

include valid

/-- Fields that share no bit start at different bits, so their order is
strict. -/
theorem pairwise_descendingFields : (descendingFields register).Pairwise
    fun higher lower => lower.bits.lsb < higher.bits.lsb := by
  have sorted : (descendingFields register).Pairwise
      fun first second => decide (second.bits.lsb ≤ first.bits.lsb) = true := by
    refine List.pairwise_mergeSort ?_ ?_ register.fields
    · intro first second third above below
      exact decide_eq_true (Nat.le_trans (of_decide_eq_true below) (of_decide_eq_true above))
    · intro first second
      rw [Bool.or_eq_true, decide_eq_true_eq, decide_eq_true_eq]
      exact Nat.le_total _ _
  -- Each field covers the bit it starts at.
  have declared : register.fields.Pairwise fun field other => field.bits.lsb ≠ other.bits.lsb := by
    refine valid.apart.imp_of_mem ?_
    intro field other listed otherListed apart
    have width := (valid.fields field listed).width_pos
    have otherWidth := (valid.fields other otherListed).width_pos
    have bits := apart.2
    unfold BitRange.Apart BitRange.above at bits
    omega
  have distinct := (perm_descendingFields register).symm.pairwise declared Ne.symm
  refine (sorted.and distinct).imp ?_
  intro higher lower both
  exact Nat.lt_of_le_of_ne (of_decide_eq_true both.1) both.2.symm

/-- A register without fields has a sentence in place of their table. -/
theorem isFieldTable_lines : IsFieldTable register
    (if register.fields.isEmpty then Block.paragraph "No bit fields."
      else .table (fieldTable register)).lines where
  empty := by
    intro none
    rw [none]
    rfl
  filled := by
    intro some
    have headings : ∀ text ∈ ["Bits", "Name", "Access", "Reset", "Modifiers", "Description"],
        Plain text := by
      decide
    have sound : ∀ field ∈ descendingFields register, field.Valid := fun field listed =>
      valid.fields field ((perm_descendingFields register).mem_iff.mp listed)
    have safe : ∀ field ∈ descendingFields register, ∀ text ∈ fieldRow field, Safe text :=
      fun field listed => safe_fieldRow (sound field listed).name
    have width : ∀ field, (fieldRow field).length = 6 := fun _ => rfl
    have table := isTable_lines headings safe width
    have rows : List.Forall₂ ShowsField (descendingFields register) _ :=
      forall₂_rows fun field listed => showsField_fieldRow (sound field listed)
    rw [List.isEmpty_eq_false_iff.mpr some]
    exact ⟨_, _, table, perm_descendingFields register, pairwise_descendingFields valid, rows⟩

end Fields

/-! ## Pages -/

/-- What is printed for one register says all about it and nothing about
others. -/
theorem isSection_lines (layout : Layout) {placed : PlacedRegister}
    (valid : placed.register.Valid) :
    IsSection layout placed (pageLines (registerBlocks layout placed)) := by
  refine ⟨_, isFieldTable_lines valid, ?_⟩
  unfold registerBlocks
  by_cases none : placed.register.description = ""
  · rw [if_pos none]
    simp only [if_pos none]
    rfl
  · rw [if_neg none]
    simp only [if_neg none]
    rfl

theorem lines_title (mapName : String) :
    (Block.heading 1 s!"Register map `{mapName}`").lines =
      ["# Register map `" ++ mapName ++ "`"] := by
  have marked : ("# " ++ ("Register map `" ++ mapName ++ "`")).toList =
      ("# Register map `" ++ mapName ++ "`").toList := by
    simp
  exact congrArg (fun line => [line]) (String.toList_inj.mp marked)

/-- **The tables of a page are well formed and complete.** -/
theorem exists_pageTables {map : RegisterMap} {layout : Layout} (built : map.Built)
    (resolved : Layout.resolve map = .ok layout) (mapName : String) :
    ∃ options summary sections, PageTables map layout mapName options summary sections := by
  obtain ⟨addresses, resolves⟩ := Layout.exists_resolves built.valid
  have stands := Layout.stands_of_resolve built.valid resolved
  refine ⟨(optionTable layout.config).lines, _,
    layout.registers.map fun placed => pageLines (registerBlocks layout placed), ?_, ?_, ?_,
    isSummary_lines built.valid resolved, ?_⟩
  · exact (resolves.puts layout resolved).registers
  · have sections : (layout.registers.flatMap (registerBlocks layout)).flatMap
        (fun block => "" :: block.lines) =
        (layout.registers.map fun placed => pageLines (registerBlocks layout placed)).flatMap
          fun lines => "" :: lines := by
      rw [List.flatMap_assoc, List.flatMap_map]
      apply List.flatMap_congr
      exact fun placed _ => flatMap_lines (List.cons_ne_nil _ _)
    have same : page layout mapName = linesText (pageLines (pageBlocks layout mapName)) := rfl
    rw [same, pageBlocks, pageLines_append, sections, pageLines_cons, lines_title]
    simp only [List.flatMap_cons, List.flatMap_nil, List.append_assoc, List.cons_append,
      List.nil_append, List.append_nil]
    rfl
  · rw [← stands.config_eq]
    exact exists_optionRows layout.config
  · rw [List.forall₂_map_right_iff, List.forall₂_same]
    intro placed listed
    exact isSection_lines layout (built.valid.registers _ (stands.declared placed listed))

/-- The calls that make a map with bars, backslashes and line breaks in its
descriptions, and with fields from the lowest to the highest. -/
def awkwardCalls : List Workbench.Call :=
  [.newConfiguration, .newField "low" 0 4 .readWrite, .newField "high" 16 8 .readOnly,
    .onField 0 (.withDescription "either | or"), .onField 0 (.withInitial 0xc),
    .onField 1 (.withDescription "over\nand\r\nover"),
    .newRegister "Mode", .onRegister 0 (.withDescription "| ends with a \\"),
    .onRegister 0 (.addFields [0, 1]), .newRegister "spare",
    .newMap 0, .onMap 0 (.addRegisters [0, 1])]

/-- The map that these calls make. -/
def awkwardMap : RegisterMap :=
  (Workbench.empty.run awkwardCalls).maps.headD (.empty .default)

/-- Its layout. -/
def awkwardLayout : Layout :=
  ⟨awkwardMap, 32, 16, List.zipWith PlacedRegister.mk awkwardMap.registers [0, 4]⟩

/-- Its fields, the higher one first. -/
def awkwardFields : List Field :=
  [⟨"high", "over\nand\r\nover", ⟨16, 8⟩, .readOnly, 0, ⟨false, false, false, false⟩⟩,
    ⟨"low", "either | or", ⟨0, 4⟩, .readWrite, 0xc, ⟨false, false, false, false⟩⟩]

/-- Descriptions that hold bars, line breaks and a backslash at their end leave
the rows of the page whole. -/
theorem exists_pageTables_awkward :
    awkwardMap.Built ∧ Layout.resolve awkwardMap = .ok awkwardLayout ∧
      ∃ options summary sections,
        PageTables awkwardMap awkwardLayout "unit" options summary sections ∧
        (∃ header rule mode spare address reset, summary = [header, rule, mode, spare] ∧
          IsRow mode [address, " [Mode](#mode) ", reset, " \\| ends with a \\ "] ∧
          Text.integer? address = some 0 ∧ Text.integer? reset = some 0xc) ∧
        ∃ above header rule high low others,
          sections = (above ++ [header, rule, high, low]) :: others ∧
          IsRow high [" [23:16] ", " high ", " ro ", " - ", "  ", " over and  over "] ∧
          IsRow low [" [3:0] ", " low ", " rw ", " 0xc ", "  ", " either \\| or "] := by
  have built : awkwardMap.Built := Workbench.built_of_mem_run awkwardCalls List.mem_cons_self
  have resolved : Layout.resolve awkwardMap = .ok awkwardLayout := rfl
  obtain ⟨options, summary, sections, tables⟩ := exists_pageTables built resolved "unit"
  refine ⟨built, resolved, options, summary, sections, tables, ?_, ?_⟩
  · obtain ⟨rows, table, shown⟩ := tables.summary.filled (List.cons_ne_nil _ _)
    obtain ⟨header, rule, lines, -⟩ := table.shape
    obtain ⟨mode, _, ⟨address, reset, row, addressRead, resetRead⟩, last, rfl⟩ :=
      List.forall₂_cons_left_iff.mp shown
    obtain ⟨spare, _, -, none, rfl⟩ := List.forall₂_cons_left_iff.mp last
    cases none
    exact ⟨header, rule, mode, spare, address, reset, lines, row, addressRead, resetRead⟩
  · obtain ⟨section₀, others, ⟨table, fieldTable, lines⟩, -, rfl⟩ :=
      List.forall₂_cons_left_iff.mp tables.sections
    obtain ⟨fields, rows, isTable, perm, descending, shown⟩ :=
      fieldTable.filled (List.cons_ne_nil _ _)
    obtain ⟨header, rule, rfl, -⟩ := isTable.shape
    -- Only one order of the two fields descends.
    have same : fields = awkwardFields := by
      refine List.Perm.eq_of_pairwise ?_ descending ?_ (perm.trans (List.Perm.swap _ _ _))
      · intro field other _ _ below above
        omega
      · decide
    rw [same] at shown
    obtain ⟨high, _, ⟨bits, initial, range, reset, row⟩, last, rfl⟩ :=
      List.forall₂_cons_left_iff.mp shown
    obtain ⟨low, _, ⟨bits', initial', range', reset', row'⟩, none, rfl⟩ :=
      List.forall₂_cons_left_iff.mp last
    cases none
    rw [range.several (by decide), reset.driven rfl] at row
    rw [range'.several (by decide), (reset'.stored rfl).1] at row'
    exact ⟨_, header, rule, high, low, others, by rw [lines], row, row'⟩

end RegisterBank.Reference
