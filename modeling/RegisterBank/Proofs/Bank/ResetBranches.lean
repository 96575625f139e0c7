import RegisterBank.Bank.Machine
import RegisterBank.Proofs.Bank.Declarations

/-!
# Reset branches

`LoadsOnReset` reads the text of a bridge: among its lines is a clocked block
whose branch for a held reset assigns a constant to a net, and assigns nothing
else to it.  The block of a field with flip-flops is one, and the constant is
what the field's cell takes on reset (`exists_clocked`).
-/

namespace RegisterBank.Bank

open RegisterBank.Verilog

/-! ## Lines of a clocked block -/

/-- Whether a line assigns to a net at a clock edge. -/
def assigns (net line : String) : Bool := (net ++ " <= ").toList.isPrefixOf line.toList

/-- Some lines make up a clocked block.  While reset is held it loads a constant
into a net, and nothing else into this net. -/
def LoadsOnReset (style : ResetStyle) (lines : List String) (net constant : String) : Prop :=
  ∃ before branch closing after rest,
    lines = before
      ++ s!"always {style.sensitivity} begin"
        :: indent (s!"if ({style.active}) begin" :: indent branch ++ ("end" ++ closing) :: after)
      ++ rest ∧
    branch.filter (assigns net) = [net ++ " <= " ++ constant ++ ";"]

section Lines

variable {style : ResetStyle} {net constant : String}

theorem LoadsOnReset.within {inner lines : List String}
    (loads : LoadsOnReset style inner net constant) (inside : inner <:+: lines) :
    LoadsOnReset style lines net constant := by
  obtain ⟨before, branch, closing, after, rest, split, only⟩ := loads
  obtain ⟨first, last, around⟩ := inside
  refine ⟨first ++ before, branch, closing, after, rest ++ last, ?_, only⟩
  rw [← around, split]
  simp only [List.append_assoc]

/-- The reset condition is printed as the style has it. -/
theorem text_resetCondition (style : ResetStyle) :
    (Bus.resetCondition style).text = style.active := by
  cases style <;> rfl

theorem lines_set (net : String) (value : Expr) :
    (Stmt.set net 0 value).lines = [net ++ " <= " ++ value.text ++ ";"] := by
  rw [Stmt.lines, padRight, Nat.zero_sub, List.replicate_zero, String.ofList_nil,
    String.append_empty]

/-- A branch is closed by a line of its own. -/
theorem exists_elseLines (stmt : Stmt) :
    ∃ closing after, stmt.elseLines = ("end" ++ closing) :: after := by
  cases stmt with
  | skip => exact ⟨"", _, rfl⟩
  | set target column value => exact ⟨" else begin", _, rfl⟩
  | seq first second => exact ⟨" else begin", _, rfl⟩
  | branch condition yes no => exact ⟨s!" else if ({condition.text}) begin", _, rfl⟩
  | branchLine condition yes no => exact ⟨" else begin", _, rfl⟩
  | select subject arms => exact ⟨" else begin", _, rfl⟩

/-- A clocked block loads on reset what its first branch writes. -/
theorem loads_clocked {onReset : Stmt} (otherwise : Stmt)
    (only : onReset.lines.filter (assigns net) = [net ++ " <= " ++ constant ++ ";"]) :
    LoadsOnReset style (clocked style onReset otherwise).lines net constant := by
  obtain ⟨closing, after, closed⟩ := exists_elseLines otherwise
  refine ⟨[], onReset.lines, closing, after, ["end"], ?_, only⟩
  unfold clocked
  rw [Item.lines, Stmt.lines, closed, text_resetCondition]
  rfl

end Lines

/-! ## Blocks of fields -/

section Fields

variable {style : ResetStyle} {plan : FieldPlan}

theorem assigns_self (net constant : String) :
    assigns net (net ++ " <= " ++ constant ++ ";") = true := by
  unfold assigns
  rw [List.isPrefixOf_iff_prefix, String.append_assoc]
  exact ⟨(constant ++ ";").toList, String.toList_append.symm⟩

/-- An assignment to the state is none to the value. -/
theorem assigns_state (constant : String) :
    assigns plan.valueNet (plan.stateNet ++ " <= " ++ constant ++ ";") = false := by
  unfold assigns FieldPlan.valueNet FieldPlan.stateNet
  rw [← Bool.not_eq_true, List.isPrefixOf_iff_prefix]
  simp only [String.toList_append, List.append_assoc, List.prefix_append_right_inj]
  simp

/-- A field with flip-flops has a clocked block, in which it takes on reset what
its cell takes. -/
theorem exists_clocked (register : RegisterPlan) (stored : plan.template.isStored = true) :
    ∃ onReset otherwise, clocked style onReset otherwise ∈ fieldItems style register plan ∧
      onReset.lines.filter (assigns plan.valueNet) =
        [plan.valueNet ++ " <= " ++
          sizedHex plan.field.bits.width (Cell.ofPlan plan).resetValue ++ ";"] := by
  have zero : (Stmt.set plan.valueNet 0 (zeroOf plan)).lines =
      [plan.valueNet ++ " <= " ++ sizedHex plan.field.bits.width 0 ++ ";"] := lines_set _ _
  have initial : (Stmt.set plan.valueNet 0 (initialOf plan)).lines =
      [plan.valueNet ++ " <= " ++ sizedHex plan.field.bits.width plan.field.initial ++ ";"] :=
    lines_set _ _
  unfold fieldItems Cell.resetValue Cell.ofPlan
  dsimp only
  cases template : plan.template with
  | hardwareDriven =>
    rw [template] at stored
    cases stored
  | pulse =>
    rw [template] at stored
    cases stored
  | sticky =>
    refine ⟨_, _, List.mem_append_right _ (List.mem_cons_of_mem _ List.mem_cons_self), ?_⟩
    rw [initial, List.filter_cons_of_pos (assigns_self _ _), List.filter_nil]
  | stored readClear writeOnce =>
    cases writeOnce with
    | false =>
      refine ⟨_, _, List.mem_append_right _ (List.mem_cons_of_mem _ List.mem_cons_self), ?_⟩
      rw [initial, List.filter_cons_of_pos (assigns_self _ _), List.filter_nil]
    | true =>
      refine ⟨_, _, List.mem_append_right _
        (List.mem_cons_of_mem _ (List.mem_cons_of_mem _ List.mem_cons_self)), ?_⟩
      rw [Stmt.lines, initial, lines_set, List.singleton_append,
        List.filter_cons_of_pos (assigns_self _ _),
        List.filter_cons_of_neg (Bool.eq_false_iff.mp (assigns_state _)), List.filter_nil]
  | selfClearing =>
    refine ⟨_, _, List.mem_append_right _
      (List.mem_cons_of_mem _ (List.mem_cons_of_mem _ List.mem_cons_self)), ?_⟩
    rw [Stmt.lines, zero, lines_set, List.singleton_append,
      List.filter_cons_of_neg (Bool.eq_false_iff.mp (assigns_state _)),
      List.filter_cons_of_pos (assigns_self _ _), List.filter_nil]

end Fields

/-! ## Texts of bridges -/

theorem lines_infix_of_mem {items : List Item} {item : Item} (listed : item ∈ items) :
    item.lines <:+: items.flatMap Item.lines := by
  rw [List.flatMap_def]
  exact List.infix_of_mem_flatten (List.mem_map_of_mem listed)

/-- Items of a field stand in the module. -/
theorem fieldItem_mem_toModule {bridge : Bridge} {register : RegisterPlan}
    (planned : register ∈ bridge.plan.registers) {plan : FieldPlan}
    (declared : plan ∈ register.fields) {item : Item}
    (inside : item ∈ fieldItems bridge.bus.reset register plan) :
    item ∈ bridge.toModule.items := by
  have bank : item ∈ bankItems bridge.bus bridge.readFiller bridge.plan := by
    unfold bankItems
    apply List.mem_append_left
    apply List.mem_append_right
    exact List.mem_flatMap.mpr
      ⟨register, planned, List.mem_flatMap.mpr ⟨plan, declared, inside⟩⟩
  exact List.mem_append_right _ bank

/-- In the text of a bridge, every field with flip-flops loads on reset what its
cell takes. -/
theorem loads_bridge {bridge : Bridge} {register : RegisterPlan}
    (planned : register ∈ bridge.plan.registers) {plan : FieldPlan}
    (declared : plan ∈ register.fields) (stored : plan.template.isStored = true) :
    LoadsOnReset bridge.bus.reset bridge.toModule.lines plan.valueNet
      (sizedHex plan.field.bits.width (Cell.ofPlan plan).resetValue) := by
  obtain ⟨onReset, otherwise, inside, only⟩ :=
    exists_clocked register stored
  have block := lines_infix_of_mem (fieldItem_mem_toModule planned declared inside)
  refine (loads_clocked otherwise only).within (block.trans ?_)
  exact ⟨_, ["", "endmodule"], rfl⟩

end RegisterBank.Bank
