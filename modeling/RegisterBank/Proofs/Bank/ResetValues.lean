import RegisterBank.Proofs.Bank.FieldRuns
import RegisterBank.Proofs.Bank.ResetBranches
import RegisterBank.Proofs.Construction.ResetValue
import RegisterBank.Proofs.Reference.Pages

/-!
# Reset values of a bank

What a field is on reset is decided in three places: a register joins initial
values and leaves out what hardware drives, a cell and an emitted block each go
by the field's template.  The templates for which a cell starts at zero are
those of hardware-driven fields and of fields that go back to zero by
themselves, whose initial value is zero by the rules of fields
(`Cell.Implements.resetValue_eq`).  So all three agree, and the reference page
prints what they agree on.
-/

namespace RegisterBank.Bank

open RegisterBank.Reference (pageLines pageBlocks rowText)
open RegisterBank.Verilog

/-! ## Cells -/

/-- A field that reverts has the initial value zero, so that both reset values
agree. -/
theorem Cell.Implements.resetValue_eq {config : Configuration} {register : Register}
    {field : Field} {cell : Cell} (implements : cell.Implements (planField config register field))
    (valid : field.Valid) : cell.resetValue = field.resetValue := by
  have template : cell.template = Template.ofField field := implements.template
  have initial : cell.initial = field.initial := implements.initial
  unfold Cell.resetValue Field.resetValue
  rw [template, initial]
  cases reverts : field.reverts with
  | true =>
    rw [valid.reverts reverts, ite_self]
    cases Template.ofField field <;> rfl
  | false =>
    obtain ⟨keeps, silent⟩ := Bool.or_eq_false_iff.mp reverts
    unfold Template.ofField
    rw [silent, keeps]
    cases field.isHardwareDriven with
    | true => rfl
    | false => cases field.access.isWritable <;> rfl

theorem resetValue_planField (config : Configuration) (register : Register) {field : Field}
    (valid : field.Valid) :
    (Cell.ofPlan (planField config register field)).resetValue = field.resetValue := by
  have stands : (Cell.ofPlan (planField config register field)).Implements _ :=
    Cell.Implements.ofPlan valid
  exact stands.resetValue_eq valid

/-- A machine that has just been built or reset. -/
inductive Machine.Fresh (layout : Layout) : Machine → Prop
  | built {machine : Machine} {protocol : Bus.Protocol} :
    layout.buildMachine = .ok (some (machine, protocol)) → Fresh layout machine
  | reset {machine : Machine} : machine.Reachable layout → Fresh layout machine.reset

section Accepted

variable {map : RegisterMap} {layout : Layout} {protocol : Bus.Protocol} {plan : Plan}
  (accepted : Accepted map layout protocol plan) {placed : PlacedRegister}
  (listed : placed ∈ layout.registers) {field : Field} (declared : field ∈ placed.register.fields)

include accepted listed declared

/-- A machine whose cells stand for the fields of the plan, in whatever sense, has
one for the field. -/
theorem exists_holds {machine : Machine} {Stands : FieldPlan → Cell → Prop}
    (named : ∀ plan cell, Stands plan cell → cell.name = plan.field.name)
    (registers : List.Forall₂ (fun (register : RegisterPlan) (found : RegisterCell) =>
        found.name = register.name ∧ found.address = register.placed.address ∧
          List.Forall₂ Stands register.fields found.cells) plan.registers machine.registers) :
    ∃ cell, machine.Holds (Seat.of placed field) cell ∧
      Stands (planField layout.config placed.register field) cell := by
  have planned := accepted.planRegister_mem listed
  obtain ⟨found, byName, -, address, cells⟩ :=
    find?_of_forall₂ (fun _ _ kept => kept.1) registers accepted.names_nodup planned
  obtain ⟨cell, here, stands⟩ := find?_of_forall₂ named cells
    (accepted.sound _ planned).names_nodup (planField_mem layout.config declared)
  exact ⟨cell, ⟨found, byName, address, here⟩, stands⟩

/-- Fresh from reset the machine shows each field at its reset value. -/
theorem Machine.Fresh.output?_eq {machine : Machine} (fresh : machine.Fresh layout) :
    machine.output? placed.name field.name = some field.resetValue := by
  have valid := accepted.field_valid listed declared
  cases fresh with
  | built built =>
    rw [accepted.buildMachine] at built
    cases built
    rw [← resetValue_planField layout.config placed.register valid]
    exact (holds_make accepted listed declared).output?
  | reset reachable =>
    have implements := reachable.implements accepted
    obtain ⟨cell, holds, stands⟩ := exists_holds accepted listed declared
      (fun _ _ (kept : Cell.Implements _ _) => kept.name)
      (implements.registers.imp fun _ _ kept => ⟨kept.name, kept.address, kept.cells⟩)
    rw [← stands.resetValue_eq valid]
    exact holds.reset.output?

/-- The flip-flops of the emitted bank hold the reset value as well. -/
theorem circuit_make_get (stored : (Template.ofField field).isStored = true) :
    (Circuit.make plan layout.geometry layout.config.readFiller).values.get
      (planField layout.config placed.register field).valueNet = field.resetValue := by
  obtain ⟨values, made, held⟩ := exists_held_make accepted
  obtain ⟨cell, holds, stands⟩ := exists_holds accepted listed declared
    (fun _ _ (kept : Cell.HeldBy values _ _) => kept.implements.name)
    (held.registers.imp fun _ _ kept => ⟨kept.name, kept.address, kept.cells⟩)
  have shown := Machine.Fresh.output?_eq accepted listed declared (.built accepted.buildMachine)
  rw [made]
  exact (stands.value stored).trans (Option.some.inj (holds.output?.symm.trans shown))

end Accepted

/-! ## All places -/

theorem valueNet_planField (config : Configuration) (register : Register) (field : Field) :
    (planField config register field).valueNet = s!"{register.name}_{field.name}_ff" := by
  rfl

/-- A field has one reset value, on a bridge and on a page with certain lines. -/
structure FieldResets (layout : Layout) (bridge page : List String) (placed : PlacedRegister)
    (field : Field) (value : Nat) : Prop where
  driven : field.isHardwareDriven = true → value = 0
  /-- The cycle model shows it. -/
  model : ∀ machine : Machine, machine.Fresh layout →
    machine.output? placed.name field.name = some value
  /-- The text of the bridge loads it into the flip-flops, if there are any. -/
  text : (Template.ofField field).isStored = true →
    LoadsOnReset layout.config.registerReset bridge s!"{placed.name}_{field.name}_ff"
      (sizedHex field.bits.width value)
  /-- The emitted circuit holds it there. -/
  circuit : (Template.ofField field).isStored = true →
    (Circuit.make (Plan.draft layout) layout.geometry layout.config.readFiller).values.get
      s!"{placed.name}_{field.name}_ff" = value
  /-- The page has it in the table of the register, unless hardware drives the field. -/
  printed : rowText [field.bits.text, field.name, field.access.word,
      if field.isHardwareDriven then "-" else Text.hexConstant value,
      ", ".intercalate field.modifiers.words, Reference.cell field.description] ∈ page

/-- A register has one reset value, of which each field takes its bits. -/
structure RegisterResets (layout : Layout) (bridge page : List String)
    (placed : PlacedRegister) : Prop where
  bounded : placed.register.resetValue < 2 ^ layout.dataWidth
  uncovered : ∀ i, (∀ field ∈ placed.register.fields, ¬ field.bits.Covers i) →
    placed.register.resetValue.testBit i = false
  fields : ∀ field ∈ placed.register.fields, FieldResets layout bridge page placed field
    (Bits.extract placed.register.resetValue field.bits.lsb field.bits.width)
  /-- The page has it in the summary. -/
  summarized : rowText [Text.hexAddress placed.address layout.addressWidth,
      s!"[{placed.name}](#{Text.lowerCase placed.name})",
      Text.hexAddress placed.register.resetValue layout.dataWidth,
      Reference.cell placed.register.description] ∈ page
  /-- The page has it above the table of the register. -/
  described : "Address: `" ++ Text.hexAddress placed.address layout.addressWidth
    ++ "`, reset value: `" ++ Text.hexAddress placed.register.resetValue layout.dataWidth ++ "`"
      ∈ page

/-- For one field: machine, circuit, reset branch and page agree. -/
theorem fieldResets_of_accepted {map : RegisterMap} {layout : Layout} {protocol : Bus.Protocol}
    {plan : Plan} (accepted : Accepted map layout protocol plan) {placed : PlacedRegister}
    (listed : placed ∈ layout.registers) {field : Field}
    (declared : field ∈ placed.register.fields) (mapName : String) :
    FieldResets layout (layout.bridge protocol plan mapName).toModule.lines
      (pageLines (pageBlocks layout mapName)) placed field field.resetValue where
  driven := by
    intro driven
    unfold Field.resetValue
    rw [driven]
    rfl
  model := fun machine fresh => fresh.output?_eq accepted listed declared
  text := by
    intro stored
    have valid := accepted.field_valid listed declared
    have loads : LoadsOnReset layout.config.registerReset
        (layout.bridge protocol plan mapName).toModule.lines
        (planField layout.config placed.register field).valueNet
        (sizedHex field.bits.width
          (Cell.ofPlan (planField layout.config placed.register field)).resetValue) :=
      loads_bridge (accepted.planRegister_mem listed) (planField_mem _ declared) stored
    rw [resetValue_planField _ _ valid, valueNet_planField] at loads
    exact loads
  circuit := by
    intro stored
    rw [← accepted.plan_eq.1]
    exact circuit_make_get accepted listed declared stored
  printed := by
    have row := Reference.fieldRow_mem_pageLines listed mapName declared
    unfold Reference.fieldRow at row
    unfold Field.resetValue
    cases driven : field.isHardwareDriven with
    | true =>
      rw [driven] at row
      exact row
    | false =>
      rw [driven] at row
      exact row

/-- The reset value of a register is put together from those of its fields. -/
theorem registerResets_of_accepted {map : RegisterMap} {layout : Layout} {protocol : Bus.Protocol}
    {plan : Plan} (accepted : Accepted map layout protocol plan) {placed : PlacedRegister}
    (listed : placed ∈ layout.registers) (mapName : String) :
    RegisterResets layout (layout.bridge protocol plan mapName).toModule.lines
      (pageLines (pageBlocks layout mapName)) placed := by
  have member := accepted.register_mem listed
  have valid := accepted.built.valid.registers placed.register member
  refine ⟨?_, fun i => valid.testBit_resetValue_of_uncovered, ?_, ?_, ?_⟩
  · rw [accepted.dataWidth_eq]
    exact valid.resetValue_lt (accepted.built.valid.allowed placed.register member).above_le
  · intro field declared
    rw [valid.extract_resetValue declared]
    exact fieldResets_of_accepted accepted listed declared mapName
  · exact Reference.summaryRow_mem_pageLines listed mapName
  · exact Reference.resetParagraph_mem_pageLines listed mapName

theorem exists_prepare_of_buildMachine {layout : Layout} {machine : Machine}
    {protocol : Bus.Protocol} (built : layout.buildMachine = .ok (some (machine, protocol))) :
    ∃ plan, layout.prepare = .ok (some (protocol, plan)) := by
  unfold Layout.buildMachine at built
  split at built
  · cases built
  · cases built
  · rename_i prepared
    cases built
    exact ⟨_, prepared⟩

/-- An accepted layout has a bridge for every identifier. -/
theorem Accepted.exists_renderBridge {map : RegisterMap} {layout : Layout}
    {protocol : Bus.Protocol} {plan : Plan} (accepted : Accepted map layout protocol plan)
    {mapName : String} (named : Text.isIdentifier mapName = true) :
    ∃ source, layout.renderBridge mapName = .ok (some source) ∧
      source.text = (layout.bridge protocol plan mapName).text := by
  unfold Layout.renderBridge
  rw [accepted.prepared]
  simp only [named, Bool.not_true, Bool.false_eq_true, if_false]
  refine ⟨_, rfl, ?_⟩
  dsimp only [Layout.bridge]

/-- **The reset value is the same everywhere.**  The bits of a register's reset
value are those that the cycle model shows after reset, that the emitted text
loads into the flip-flops, and that the reference page prints. -/
theorem reset_agrees {map : RegisterMap} {layout : Layout} {machine : Machine}
    {protocol : Bus.Protocol} (built : map.Built) (resolved : Layout.resolve map = .ok layout)
    (modelled : layout.buildMachine = .ok (some (machine, protocol))) (mapName : String)
    (named : Text.isIdentifier mapName = true) :
    ∃ source bridge page, layout.renderBridge mapName = .ok (some source) ∧
      source.text = linesText bridge ∧ Reference.page layout mapName = linesText page ∧
      ∀ placed ∈ layout.registers, RegisterResets layout bridge page placed := by
  obtain ⟨plan, prepared⟩ := exists_prepare_of_buildMachine modelled
  have accepted : Accepted map layout protocol plan := ⟨built, resolved, prepared⟩
  obtain ⟨source, rendered, text⟩ := accepted.exists_renderBridge named
  refine ⟨source, (layout.bridge protocol plan mapName).toModule.lines,
    pageLines (pageBlocks layout mapName), rendered, text, rfl, ?_⟩
  exact fun placed listed => registerResets_of_accepted accepted listed mapName

/-- The calls that make a map with a level that hardware drives, which has an
initial value all the same, with events that reading clears, with a mode, and
with a command that clears itself. -/
def statusCalls : List Workbench.Call :=
  [.newConfiguration, .setOption 0 "lb_bridge.type" (.text "apb"),
    .newField "level" 0 8 .readOnly, .onField 0 (.withInitial 0x5a),
    .newField "events" 8 4 .readOnly, .onField 1 (.withModifier .readClear),
    .onField 1 (.withInitial 1),
    .newField "mode" 16 4 .readWrite, .onField 2 (.withInitial 3),
    .newField "go" 24 1 .writeOnly, .onField 3 (.withModifier .selfClear),
    .newRegister "status", .onRegister 0 (.addFields [0, 1, 2, 3]),
    .newMap 0, .onMap 0 (.addRegister 0)]

/-- The map that these calls make. -/
def statusMap : RegisterMap :=
  (Workbench.empty.run statusCalls).maps.headD (.empty .default)

/-- Its layout, with one register. -/
def statusLayout : Layout :=
  ⟨statusMap, 32, 16, List.zipWith PlacedRegister.mk statusMap.registers [0]⟩

/-- A register with a field that hardware drives, which the page and the bridge
count as zero. -/
theorem reset_agrees_status :
    statusMap.Built ∧ Layout.resolve statusMap = .ok statusLayout ∧
      ∃ machine source bridge page,
        statusLayout.buildMachine = .ok (some (machine, .apb)) ∧
        statusLayout.renderBridge "unit" = .ok (some source) ∧
        source.text = linesText bridge ∧ Reference.page statusLayout "unit" = linesText page ∧
        machine.output? "status" "level" = some 0 ∧
        machine.output? "status" "mode" = some 3 ∧
        LoadsOnReset .syncPositive bridge "status_mode_ff" "4'h3" ∧
        LoadsOnReset .syncPositive bridge "status_go_ff" "1'h0" ∧
        "Address: `0x0000`, reset value: `0x0003_0100`" ∈ page := by
  have built : statusMap.Built := Workbench.built_of_mem_run statusCalls List.mem_cons_self
  have resolved : Layout.resolve statusMap = .ok statusLayout := rfl
  have accepted : Accepted statusMap statusLayout .apb (Plan.draft statusLayout) :=
    ⟨built, resolved, rfl⟩
  have modelled := accepted.buildMachine
  obtain ⟨source, bridge, page, rendered, text, printed, agree⟩ :=
    reset_agrees built resolved modelled "unit" rfl
  have status := agree _ List.mem_cons_self
  have level := status.fields _ List.mem_cons_self
  have mode := status.fields _ (List.mem_cons_of_mem _ (List.mem_cons_of_mem _ List.mem_cons_self))
  have go := status.fields _ (List.mem_cons_of_mem _ (List.mem_cons_of_mem _
    (List.mem_cons_of_mem _ List.mem_cons_self)))
  exact ⟨built, resolved, _, source, bridge, page, modelled, rendered, text, printed,
    level.model _ (.built modelled), mode.model _ (.built modelled), mode.text rfl, go.text rfl,
    status.described⟩

end RegisterBank.Bank
