import RegisterBank.Proofs.Bank.Invariant
import RegisterBank.Proofs.Bank.Settled
import RegisterBank.Proofs.Verilog.Edges

/-!
# Fields at a clock edge

A field's block and a cell of a machine do the same at a clock edge.
`Cell.HeldBy` relates a cell to the nets that stand for it: the flip-flops of
the value and of the state, and the input port.  The cell's invariant is part
of the relation, since the block and the cell differ outside of it: an idle
field that clears itself keeps its flip-flops where the cell takes zero, and a
merge with an inverted mask is one with the mask only while the value stays
inside its field.
-/

namespace RegisterBank.Bank

open RegisterBank.Verilog
open RegisterBank.Bus (Geometry)

/-- A cell whose value, states and input are those of a field's nets. -/
structure Cell.HeldBy (values : Nets) (field : FieldPlan) (cell : Cell) : Prop where
  implements : cell.Implements field
  value : field.template.isStored = true → values.get field.valueNet = cell.value
  selfClear : field.template = .selfClearing →
    values.get field.stateNet = cell.selfClear.encoding
  writeOnce : field.template.isWriteOnce = true →
    values.get field.stateNet = cell.writeOnce.encoding
  input : field.template.direction = .input → values.get field.port = cell.input

/-- A register whose cells are held by the nets of its fields. -/
structure RegisterCell.HeldBy (values : Nets) (plan : RegisterPlan) (register : RegisterCell) :
    Prop where
  name : register.name = plan.name
  address : register.address = plan.placed.address
  cells : List.Forall₂ (Cell.HeldBy values) plan.fields register.cells

/-- A machine whose state is that of a bank's nets. -/
structure Machine.HeldBy (layout : Layout) (plan : Plan) (values : Nets) (machine : Machine) :
    Prop where
  dataWidth : machine.dataWidth = layout.dataWidth
  readFiller : machine.readFiller = layout.config.readFiller
  registers : List.Forall₂ (RegisterCell.HeldBy values) plan.registers machine.registers
  readData : values.get "lb_rdata" = machine.readData
  readValid : values.get "lb_rvalid" = truth machine.readValid

/-- A machine held by nets implements their plan. -/
theorem Machine.HeldBy.implements {layout : Layout} {plan : Plan} {values : Nets}
    {machine : Machine} (held : machine.HeldBy layout plan values) :
    machine.Implements plan layout.dataWidth layout.config.readFiller where
  dataWidth := held.dataWidth
  readFiller := held.readFiller
  registers := held.registers.imp fun _ _ kept =>
    ⟨kept.name, kept.address, kept.cells.imp fun _ _ kept => kept.implements⟩

/-- A cell is held by all nets that agree on those of its field. -/
theorem Cell.HeldBy.congr {values others : Nets} {field : FieldPlan} {cell : Cell}
    (held : cell.HeldBy values field)
    (value : field.template.isStored = true →
      others.get field.valueNet = values.get field.valueNet)
    (state : field.template.hasState = true →
      others.get field.stateNet = values.get field.stateNet)
    (port : field.template.direction = .input → others.get field.port = values.get field.port) :
    cell.HeldBy others field where
  implements := held.implements
  value := fun stored => (value stored).trans (held.value stored)
  selfClear := fun template =>
    (state (by rw [template]; rfl)).trans (held.selfClear template)
  writeOnce := fun once =>
    (state (by unfold Template.hasState; rw [once, Bool.or_true])).trans (held.writeOnce once)
  input := fun direction => (port direction).trans (held.input direction)

/-! ## The nets that a field's block writes -/

theorem valueNet_ne_stateNet (field : FieldPlan) : field.valueNet ≠ field.stateNet := by
  intro same
  have chars := congrArg String.toList same
  unfold FieldPlan.valueNet FieldPlan.stateNet at chars
  rw [String.toList_append, String.toList_append, List.append_cancel_left_eq] at chars
  revert chars
  decide

/-- What some items write to at an edge. -/
def writtenNets (items : List Item) : List String := items.flatMap Item.writes

/-- A sticky field has no state. -/
theorem writtenNets_stickyItems (style : ResetStyle) (readSelect : String) (field : FieldPlan) :
    ∀ net ∈ writtenNets (stickyItems style readSelect field), net = field.valueNet := by
  intro net listed
  change net ∈ [field.valueNet, field.valueNet] at listed
  simpa using listed

/-- Only a field that is written once has a state to write to. -/
theorem writtenNets_storedItems (style : ResetStyle) (readSelect : String) (field : FieldPlan)
    (readClear writeOnce : Bool) :
    ∀ net ∈ writtenNets (storedItems style readSelect field readClear writeOnce),
      net = field.valueNet ∨ (net = field.stateNet ∧ writeOnce = true) := by
  intro net listed
  cases writeOnce <;> cases readClear <;>
    simp [writtenNets, storedItems, clocked, declareValue, Bus.flipFlop, Item.writes,
      Stmt.targets] at listed ⊢
  all_goals tauto

theorem writtenNets_selfClearingItems (style : ResetStyle) (field : FieldPlan) :
    ∀ net ∈ writtenNets (selfClearingItems style field),
      net = field.valueNet ∨ net = field.stateNet := by
  intro net listed
  change net ∈ [field.stateNet, field.valueNet, field.stateNet, field.valueNet, field.stateNet,
    field.valueNet] at listed
  simp only [List.mem_cons, List.not_mem_nil, or_false] at listed
  tauto

/-- A field's block writes to its flip-flops only. -/
theorem writes_fieldItems {style : ResetStyle} {register : RegisterPlan} {field : FieldPlan}
    {item : Item} (own : item ∈ fieldItems style register field) {net : String}
    (written : net ∈ item.writes) :
    (net = field.valueNet ∧ field.template.isStored = true) ∨
      (net = field.stateNet ∧ field.template.hasState = true) := by
  have listed : net ∈ writtenNets (fieldItems style register field) :=
    List.mem_flatMap.mpr ⟨item, own, written⟩
  unfold fieldItems at listed
  cases template : field.template with
  | hardwareDriven =>
    rw [template] at listed
    cases listed
  | pulse =>
    rw [template] at listed
    cases listed
  | sticky =>
    rw [template] at listed
    exact .inl ⟨writtenNets_stickyItems style register.readSelect field net listed, rfl⟩
  | selfClearing =>
    rw [template] at listed
    rcases writtenNets_selfClearingItems style field net listed with value | state
    · exact .inl ⟨value, rfl⟩
    · exact .inr ⟨state, rfl⟩
  | stored readClear writeOnce =>
    rw [template] at listed
    rcases writtenNets_storedItems style register.readSelect field readClear writeOnce net listed
      with value | ⟨state, once⟩
    · exact .inl ⟨value, rfl⟩
    · exact .inr ⟨state, once⟩

/-! ## What a field's block sees -/

/-- The nets that a field's block reads, in terms of a cell, of the write that
goes on at the register and of whether the register is read. -/
structure Sees (style : ResetStyle) (register : RegisterPlan) (field : FieldPlan) (cell : Cell)
    (write : Option BusWrite) (isRead isReset : Bool) (widths nets : Nets) : Prop where
  held : cell.HeldBy nets field
  narrow : field.field.bits.width ≤ Bits.wordWidth
  valueWidth : field.template.isStored = true →
    widths.get field.valueNet = field.field.bits.width
  stateWidth : field.template.hasState = true → widths.get field.stateNet = 1
  reset : ((Bus.resetCondition style).value widths nets != 0) = isReset
  readSelect : nets.get register.readSelect = truth isRead
  enable : field.template.direction = .output →
    nets.get field.enableNet = truth (cell.isStrobed write)
  data : ∀ given, write = some given →
    Bits.extract (nets.get "lb_wdata") field.field.bits.lsb field.field.bits.width =
      cell.extract given.data
  mask : ∀ given, write = some given →
    Bits.extract (nets.get "lb_wmask") field.field.bits.lsb field.field.bits.width =
      cell.extract given.mask
  selfClear : field.template = .selfClearing → ∀ state : SelfClearState,
    nets.get state.constant = state.encoding
  writeOnce : field.template.isWriteOnce = true → ∀ state : WriteOnceState,
    nets.get state.constant = state.encoding

namespace Sees

variable {style : ResetStyle} {register : RegisterPlan} {field : FieldPlan} {cell : Cell}
  {write : Option BusWrite} {isRead isReset : Bool} {widths nets : Nets}
  (sees : Sees style register field cell write isRead isReset widths nets)

include sees

/-! ### Expressions -/

/-- The emitted expression for the written bits has the cell's value for
them. -/
theorem writtenBits_value {given : BusWrite} (going : write = some given) :
    (writtenBits field).value widths nets = cell.writtenBits write := by
  rw [going]
  unfold writtenBits Cell.writtenBits
  simp only [Expr.value]
  rw [sees.data given going, sees.mask given going]

/-- Clearing the masked bits by inversion is merging, as long as the value stays
in its field. -/
theorem mergedBits_value (stored : field.template.isStored = true) {given : BusWrite}
    (going : write = some given) :
    (mergedBits field).value widths nets = cell.loaded write := by
  have bound := sees.held.implements.value_lt
  rw [sees.held.implements.bits] at bound
  rw [going]
  unfold mergedBits writtenBits Cell.loaded
  simp only [Expr.value, Expr.width]
  rw [sees.held.value stored, sees.data given going, sees.mask given going]
  exact Bits.and_invert_or_eq_merge bound sees.narrow _ _

theorem initialOf_value : (initialOf field).value widths nets = cell.initial :=
  sees.held.implements.initial.symm

/-! ### Statements -/

/-- A clocked block does what one of its branches does. -/
theorem write?_clocked (onReset otherwise : Stmt) (net : String) :
    (clocked style onReset otherwise).write? widths nets net =
      if isReset then onReset.write? widths nets net else otherwise.write? widths nets net := by
  show (if ((Bus.resetCondition style).value widths nets != 0) = true then _ else _) = _
  rw [sees.reset]

/-- What fits the field is written uncut. -/
theorem write?_value (stored : field.template.isStored = true) {expr : Expr} (column : Nat)
    (small : expr.value widths nets < 2 ^ field.field.bits.width) :
    (Stmt.set field.valueNet column expr).write? widths nets field.valueNet =
      some (expr.value widths nets) := by
  unfold Stmt.write?
  rw [if_pos rfl, sees.valueWidth stored, Bits.and_ones_of_lt small sees.narrow]

theorem write?_state (state : field.template.hasState = true) {constant : String} {encoding : Nat}
    (column : Nat) (value : nets.get constant = encoding) (small : encoding < 2) :
    (Stmt.set field.stateNet column (.net constant)).write? widths nets field.stateNet =
      some encoding := by
  unfold Stmt.write? Expr.value
  rw [if_pos rfl, sees.stateWidth state, value,
    @Bits.and_ones_of_lt encoding 1 small (by decide)]

/-! ### Blocks -/

/-- On reset the flip-flops of a field's value take the cell's reset value. -/
theorem write?_start (stored : field.template.isStored = true) (column : Nat) :
    (Stmt.set field.valueNet column (initialOf field)).write? widths nets field.valueNet =
      some cell.initial := by
  have bound := sees.held.implements.initial_lt
  rw [sees.held.implements.bits, ← sees.initialOf_value] at bound
  rw [sees.write?_value stored column bound, sees.initialOf_value]

theorem write?_zero (stored : field.template.isStored = true) (column : Nat) :
    (Stmt.set field.valueNet column (zeroOf field)).write? widths nets field.valueNet = some 0 :=
  sees.write?_value stored column (Nat.two_pow_pos _)

/-- A sticky field: reset, then cleared by a read, then joined by its input. -/
theorem value_sticky (template : field.template = .sticky) :
    (itemsWrite? widths nets field.valueNet (fieldItems style register field)).getD
        (nets.get field.valueNet) =
      (if isReset then cell.reset else cell.step write isRead).value := by
  have stored : field.template.isStored = true := by rw [template]; rfl
  have same : cell.template = .sticky := sees.held.implements.template.trans template
  have block : itemsWrite? widths nets field.valueNet (fieldItems style register field) =
      (clocked style (.set field.valueNet 0 (initialOf field))
        (.seq
          (.set field.valueNet 0
            (.bitOr
              (.paren (.choose (.net register.readSelect) (zeroOf field) (.net field.valueNet)))
              (.net field.port)))
          .skip)).write? widths nets field.valueNet := by
    rw [itemsWrite?_filter]
    unfold fieldItems
    rw [template]
    rfl
  rw [block, sees.write?_clocked]
  cases isReset with
  | true =>
    rw [if_pos rfl, if_pos rfl, sees.write?_start stored]
    show cell.initial = cell.resetValue
    unfold Cell.resetValue
    rw [same]
  | false =>
    have input : nets.get field.port = cell.input := sees.held.input (by rw [template]; rfl)
    have value : (Expr.bitOr
        (.paren (.choose (.net register.readSelect) (zeroOf field) (.net field.valueNet)))
        (.net field.port)).value widths nets =
          (if isRead then 0 else cell.value) ||| cell.input := by
      simp only [Expr.value, zeroOf]
      rw [sees.readSelect, truth_ne_zero, sees.held.value stored, input]
    have bound := (sees.held.implements.step write isRead).value_lt
    rw [Cell.step_sticky write isRead same] at bound
    dsimp only at bound
    rw [sees.held.implements.bits, ← value] at bound
    rw [if_neg Bool.false_ne_true, if_neg Bool.false_ne_true, Stmt.write?,
      sees.write?_value stored 0 bound, value, Cell.step_sticky write isRead same]
    rfl

/-- Without a written bit there is no write. -/
theorem exists_write (strobed : cell.isStrobed write = true) : ∃ given, write = some given := by
  cases write with
  | none => cases strobed
  | some given => exact ⟨given, rfl⟩

/-- An enabled field loads the merge of its value and the write. -/
theorem write?_load (stored : field.template.isStored = true)
    (strobed : cell.isStrobed write = true) (column : Nat) :
    (Stmt.set field.valueNet column (mergedBits field)).write? widths nets field.valueNet =
      some (cell.loaded write) := by
  rcases sees.exists_write strobed with ⟨given, going⟩
  have bound := Cell.loaded_lt sees.held.implements.value_lt write
  rw [sees.held.implements.bits, ← sees.mergedBits_value stored going] at bound
  rw [sees.write?_value stored column bound, sees.mergedBits_value stored going]

theorem write?_clear (stored : field.template.isStored = true) :
    (Stmt.branch (.net register.readSelect) (.set field.valueNet 0 (zeroOf field)) .skip).write?
        widths nets field.valueNet = if isRead then some 0 else none := by
  rw [Stmt.write?, Expr.value, sees.readSelect, truth_ne_zero, sees.write?_zero stored]
  rfl

/-- A field that is written once takes a write while it is unlocked. -/
theorem unlocked_value {readClear : Bool} (template : field.template = .stored readClear true) :
    (Expr.both (.net field.enableNet)
        (.equals (.net field.stateNet) (.net WriteOnceState.unlocked.constant))).value widths nets =
      truth (cell.isStrobed write && cell.writeOnce.acceptsWrite) := by
  have once : field.template.isWriteOnce = true := by rw [template]; rfl
  have accepts : (nets.get field.stateNet == nets.get WriteOnceState.unlocked.constant) =
      cell.writeOnce.acceptsWrite := by
    rw [sees.held.writeOnce once, sees.writeOnce once]
    cases cell.writeOnce <;> rfl
  simp only [Expr.value]
  rw [sees.enable (by rw [template]; rfl), accepts, truth_ne_zero, truth_ne_zero]

/-- What the block of a stored field writes to its value. -/
theorem write?_stored_value {readClear writeOnce : Bool}
    (template : field.template = .stored readClear writeOnce) :
    itemsWrite? widths nets field.valueNet (fieldItems style register field) =
      if isReset then some cell.initial
      else if cell.isStrobed write && (!writeOnce || cell.writeOnce.acceptsWrite) then
        some (cell.loaded write)
      else if readClear && isRead then some 0
      else none := by
  have stored : field.template.isStored = true := by rw [template]; rfl
  have enable := sees.enable (by rw [template]; rfl)
  have clear : (if readClear then
      Stmt.branch (.net register.readSelect) (.set field.valueNet 0 (zeroOf field)) .skip
      else .skip).write? widths nets field.valueNet =
        if readClear && isRead then some 0 else none := by
    cases readClear with
    | false => rfl
    | true => exact sees.write?_clear stored
  rw [itemsWrite?_filter]
  unfold fieldItems
  rw [template]
  cases writeOnce with
  | false =>
    show (clocked style (.set field.valueNet 0 (initialOf field))
      (.branch (.net field.enableNet) (.set field.valueNet 0 (mergedBits field)) _)).write?
        widths nets field.valueNet = _
    rw [sees.write?_clocked, sees.write?_start stored, Stmt.write?_branch, clear, Expr.value,
      enable, truth_ne_zero, Bool.not_false, Bool.true_or, Bool.and_true]
    cases strobed : cell.isStrobed write with
    | false => rfl
    | true => rw [sees.write?_load stored strobed]
  | true =>
    have apart := (valueNet_ne_stateNet field).symm
    show (clocked style
      (.seq (.set field.valueNet 0 (initialOf field))
        (.set field.stateNet 0 (.net WriteOnceState.unlocked.constant)))
      (.branch
        (.both (.net field.enableNet)
          (.equals (.net field.stateNet) (.net WriteOnceState.unlocked.constant)))
        (.seq (.set field.valueNet 0 (mergedBits field))
          (.set field.stateNet 0 (.net WriteOnceState.locked.constant))) _)).write?
        widths nets field.valueNet = _
    rw [sees.write?_clocked, Stmt.write?_seq, Stmt.write?_branch, Stmt.write?_seq,
      Stmt.write?_set_of_ne apart, Stmt.write?_set_of_ne apart, clear, Option.none_or,
      Option.none_or, sees.write?_start stored, sees.unlocked_value template, truth_ne_zero,
      Bool.not_true, Bool.false_or]
    cases strobed : cell.isStrobed write with
    | false => rfl
    | true => rw [sees.write?_load stored strobed]

/-- A stored field: reset, then an accepted write, then a clearing read. -/
theorem value_stored {readClear writeOnce : Bool}
    (template : field.template = .stored readClear writeOnce) :
    (itemsWrite? widths nets field.valueNet (fieldItems style register field)).getD
        (nets.get field.valueNet) =
      (if isReset then cell.reset else cell.step write isRead).value := by
  have same : cell.template = .stored readClear writeOnce :=
    sees.held.implements.template.trans template
  rw [sees.write?_stored_value template, sees.held.value (by rw [template]; rfl)]
  cases isReset with
  | true =>
    show cell.initial = cell.resetValue
    unfold Cell.resetValue
    rw [same]
  | false =>
    rw [if_neg Bool.false_ne_true, if_neg Bool.false_ne_true, Cell.step_stored write isRead same]
    split
    · rfl
    · split
      · rfl
      · rfl

/-- The lock closes with the first accepted write and opens on reset. -/
theorem state_stored {readClear : Bool} (template : field.template = .stored readClear true) :
    (itemsWrite? widths nets field.stateNet (fieldItems style register field)).getD
        (nets.get field.stateNet) =
      (if isReset then cell.reset else cell.step write isRead).writeOnce.encoding := by
  have same : cell.template = .stored readClear true :=
    sees.held.implements.template.trans template
  have once : field.template.isWriteOnce = true := by rw [template]; rfl
  have state : field.template.hasState = true := by rw [template]; rfl
  have apart := valueNet_ne_stateNet field
  have clear : (if readClear then
      Stmt.branch (.net register.readSelect) (.set field.valueNet 0 (zeroOf field)) .skip
      else .skip).write? widths nets field.stateNet = none := by
    cases readClear with
    | false => rfl
    | true =>
      rw [if_pos rfl, Stmt.write?_branch, Stmt.write?_set_of_ne apart]
      exact ite_self _
  have block : itemsWrite? widths nets field.stateNet (fieldItems style register field) =
      if isReset then some 0
      else if cell.isStrobed write && cell.writeOnce.acceptsWrite then some 1
      else none := by
    rw [itemsWrite?_filter]
    unfold fieldItems
    rw [template]
    show (clocked style
      (.seq (.set field.valueNet 0 (initialOf field))
        (.set field.stateNet 0 (.net WriteOnceState.unlocked.constant)))
      (.branch
        (.both (.net field.enableNet)
          (.equals (.net field.stateNet) (.net WriteOnceState.unlocked.constant)))
        (.seq (.set field.valueNet 0 (mergedBits field))
          (.set field.stateNet 0 (.net WriteOnceState.locked.constant))) _)).write?
        widths nets field.stateNet = _
    rw [sees.write?_clocked, Stmt.write?_seq, Stmt.write?_branch, Stmt.write?_seq,
      Stmt.write?_set_of_ne apart, Stmt.write?_set_of_ne apart, clear, Option.or_none,
      Option.or_none, sees.unlocked_value template, truth_ne_zero,
      sees.write?_state state 0 (sees.writeOnce once .unlocked) (by decide),
      sees.write?_state state 0 (sees.writeOnce once .locked) (by decide)]
    rfl
  rw [block, sees.held.writeOnce once]
  cases isReset with
  | true => rfl
  | false =>
    rw [if_neg Bool.false_ne_true, if_neg Bool.false_ne_true, Cell.step_stored write isRead same,
      Bool.not_true, Bool.false_or]
    by_cases taken : (cell.isStrobed write && cell.writeOnce.acceptsWrite) = true
    · rw [if_pos taken, if_pos taken]
      show 1 = (cell.writeOnce.next true).encoding
      cases cell.writeOnce <;> rfl
    · rw [if_neg taken, if_neg taken]
      split
      · rfl
      · rfl

/-- The block of a field that clears itself goes by its state. -/
theorem write?_selfClearing (template : field.template = .selfClearing) (net : String) :
    itemsWrite? widths nets net (fieldItems style register field) =
      if isReset || cell.selfClear == .asserted then
        (Stmt.seq (.set field.stateNet 0 (.net SelfClearState.idle.constant))
          (.set field.valueNet 0 (zeroOf field))).write? widths nets net
      else if cell.isStrobed write then
        (Stmt.seq (.set field.stateNet 0 (.net SelfClearState.asserted.constant))
          (.set field.valueNet 0 (writtenBits field))).write? widths nets net
      else none := by
  rw [itemsWrite?_filter]
  unfold fieldItems
  rw [template]
  show (clocked style
    (.seq (.set field.stateNet 0 (.net SelfClearState.idle.constant))
      (.set field.valueNet 0 (zeroOf field)))
    (.seq
      (.select (.net field.stateNet)
        (.arm (.net SelfClearState.idle.constant)
          (.branch (.net field.enableNet)
            (.seq (.set field.stateNet 0 (.net SelfClearState.asserted.constant))
              (.set field.valueNet 0 (writtenBits field))) .skip)
          (.otherwise
            (.seq (.set field.stateNet 0 (.net SelfClearState.idle.constant))
              (.set field.valueNet 0 (zeroOf field))))))
      .skip)).write? widths nets net = _
  rw [sees.write?_clocked]
  cases isReset with
  | true => rfl
  | false =>
    rw [if_neg Bool.false_ne_true, Bool.false_or, Stmt.write?_seq]
    show (if nets.get SelfClearState.idle.constant = nets.get field.stateNet then
      (if nets.get field.enableNet != 0 then _ else none) else _) = _
    rw [sees.selfClear template, sees.held.selfClear template,
      sees.enable (by rw [template]; rfl), truth_ne_zero]
    cases cell.selfClear <;> rfl

/-- A field that clears itself: set for one cycle by a write while idle. -/
theorem value_selfClearing (template : field.template = .selfClearing) :
    (itemsWrite? widths nets field.valueNet (fieldItems style register field)).getD
        (nets.get field.valueNet) =
      (if isReset then cell.reset else cell.step write isRead).value := by
  have same : cell.template = .selfClearing := sees.held.implements.template.trans template
  have stored : field.template.isStored = true := by rw [template]; rfl
  have apart := (valueNet_ne_stateNet field).symm
  rw [sees.write?_selfClearing template, sees.held.value stored, Stmt.write?_seq,
    Stmt.write?_seq, Stmt.write?_set_of_ne apart, Stmt.write?_set_of_ne apart, Option.or_none,
    Option.or_none, sees.write?_zero stored]
  cases isReset with
  | true =>
    show 0 = cell.resetValue
    unfold Cell.resetValue
    rw [same]
  | false =>
    rw [if_neg Bool.false_ne_true, Cell.step_selfClearing write isRead same, Bool.false_or]
    cases state : cell.selfClear with
    | asserted => rfl
    | idle =>
      cases strobed : cell.isStrobed write with
      | true =>
        rcases sees.exists_write strobed with ⟨given, going⟩
        have bound := Cell.Implements.writtenBits_lt cell write
        rw [sees.held.implements.bits, ← sees.writtenBits_value going] at bound
        rw [sees.write?_value stored 0 bound, sees.writtenBits_value going]
        rfl
      | false =>
        -- The flip-flops are left alone, and what they hold is zero.
        exact sees.held.implements.idle same state

/-- Its state steps as the cell's does, reset included. -/
theorem state_selfClearing (template : field.template = .selfClearing) :
    (itemsWrite? widths nets field.stateNet (fieldItems style register field)).getD
        (nets.get field.stateNet) =
      (if isReset then cell.reset else cell.step write isRead).selfClear.encoding := by
  have same : cell.template = .selfClearing := sees.held.implements.template.trans template
  have state : field.template.hasState = true := by rw [template]; rfl
  have apart := valueNet_ne_stateNet field
  rw [sees.write?_selfClearing template, sees.held.selfClear template, Stmt.write?_seq,
    Stmt.write?_seq, Stmt.write?_set_of_ne apart, Stmt.write?_set_of_ne apart, Option.none_or,
    Option.none_or, sees.write?_state state 0 (sees.selfClear template .idle) (by decide),
    sees.write?_state state 0 (sees.selfClear template .asserted) (by decide)]
  cases isReset with
  | true => rfl
  | false =>
    rw [if_neg Bool.false_ne_true, Cell.step_selfClearing write isRead same, Bool.false_or]
    show _ = (cell.selfClear.next (cell.isStrobed write)).encoding
    cases cell.selfClear <;> cases cell.isStrobed write <;> rfl

/-! ### The edge -/

/-- After an edge at which a field's block alone writes to its nets, these hold
the cell after the edge. -/
theorem heldBy_edge {after : Nets}
    (value : field.template.isStored = true → after.get field.valueNet =
      (itemsWrite? widths nets field.valueNet (fieldItems style register field)).getD
        (nets.get field.valueNet))
    (state : field.template.hasState = true → after.get field.stateNet =
      (itemsWrite? widths nets field.stateNet (fieldItems style register field)).getD
        (nets.get field.stateNet))
    (input : field.template.direction = .input → after.get field.port = nets.get field.port) :
    (if isReset then cell.reset else cell.step write isRead).HeldBy after field where
  implements := by
    cases isReset with
    | true => exact sees.held.implements.reset
    | false => exact sees.held.implements.step write isRead
  value := by
    intro stored
    rw [value stored]
    cases template : field.template with
    | sticky => exact sees.value_sticky template
    | stored readClear writeOnce => exact sees.value_stored template
    | selfClearing => exact sees.value_selfClearing template
    | hardwareDriven => rw [template] at stored; cases stored
    | pulse => rw [template] at stored; cases stored
  selfClear := by
    intro template
    rw [state (by rw [template]; rfl)]
    exact sees.state_selfClearing template
  writeOnce := by
    intro once
    rw [state (by unfold Template.hasState; rw [once, Bool.or_true])]
    cases template : field.template with
    | stored readClear writeOnce =>
      rw [template] at once
      change writeOnce = true at once
      rw [once] at template
      exact sees.state_stored template
    | sticky => rw [template] at once; cases once
    | selfClearing => rw [template] at once; cases once
    | hardwareDriven => rw [template] at once; cases once
    | pulse => rw [template] at once; cases once
  input := by
    intro direction
    rw [input direction, sees.held.input direction]
    cases isReset with
    | true => rfl
    | false => exact (Cell.step_input write isRead).symm

end Sees

end RegisterBank.Bank
