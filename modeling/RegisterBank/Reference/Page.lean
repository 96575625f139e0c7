import RegisterBank.Layout
import RegisterBank.Reference.Markdown

/-!
# Reference pages

The reference page of a layout lists the configuration, sums up the registers
in declaration order, and describes each of them with its bit fields, the
highest first.
-/

namespace RegisterBank.Reference

/-! ## Tables -/

/-- The row of an option. -/
def optionRow (setting : Setting) (value : SettingValue) : List String :=
  let shown := match setting, value with
    | .readFiller, .int filler => Text.hexConstant filler
    | _, value => value.display
  [s!"`{setting.key}`", cell shown]

/-- The options that are set. -/
def optionTable (config : Configuration) : Table where
  headings := ["Option", "Value"]
  rows := config.values.map fun (setting, value) => optionRow setting value

/-- The address of a register. -/
def addressText (layout : Layout) (placed : PlacedRegister) : String :=
  Text.hexAddress placed.address layout.addressWidth

/-- The reset value of a register. -/
def resetText (layout : Layout) (placed : PlacedRegister) : String :=
  Text.hexAddress placed.register.resetValue layout.dataWidth

/-- The row of a register in the summary. -/
def summaryRow (layout : Layout) (placed : PlacedRegister) : List String :=
  [addressText layout placed, s!"[{placed.name}](#{Text.lowerCase placed.name})",
    resetText layout placed, cell placed.register.description]

/-- The summary of the registers. -/
def summaryTable (layout : Layout) : Table where
  headings := ["Address", "Name", "Reset", "Description"]
  rows := layout.registers.map (summaryRow layout)

/-- The row of a bit field.  A field that hardware drives has no reset value of
its own. -/
def fieldRow (field : Field) : List String :=
  [field.bits.text, field.name, field.access.word,
    if field.isHardwareDriven then "-" else Text.hexConstant field.initial,
    ", ".intercalate field.modifiers.words, cell field.description]

/-- The fields of a register, the highest first. -/
def descendingFields (register : Register) : List Field :=
  register.fields.mergeSort fun first second => second.bits.lsb ≤ first.bits.lsb

/-- The bit fields of a register. -/
def fieldTable (register : Register) : Table where
  headings := ["Bits", "Name", "Access", "Reset", "Modifiers", "Description"]
  rows := (descendingFields register).map fieldRow

/-! ## The page -/

/-- The part of the page about a register. -/
def registerBlocks (layout : Layout) (placed : PlacedRegister) : List Block :=
  let address := addressText layout placed
  let reset := resetText layout placed
  let description := placed.register.description
  [.heading 3 placed.name, .paragraph s!"Address: `{address}`, reset value: `{reset}`"]
    ++ (if description = "" then [] else [.paragraph description])
    ++ [if placed.register.fields.isEmpty then .paragraph "No bit fields."
      else .table (fieldTable placed.register)]

/-- The blocks of the page of a layout for a map with a name. -/
def pageBlocks (layout : Layout) (mapName : String) : List Block :=
  [.heading 1 s!"Register map `{mapName}`",
    .paragraph "Generated by regmap-compiler, do not edit.",
    .heading 2 "Configuration", .table (optionTable layout.config),
    .heading 2 "Registers",
    if layout.registers.isEmpty then .paragraph "The register map is empty."
    else .table (summaryTable layout)]
    ++ layout.registers.flatMap (registerBlocks layout)

/-- The page of a layout for a map with a name. -/
def page (layout : Layout) (mapName : String) : String := pageText (pageBlocks layout mapName)

end RegisterBank.Reference
