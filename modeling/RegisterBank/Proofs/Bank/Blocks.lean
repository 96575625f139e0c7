import RegisterBank.Proofs.Bank.Held

/-!
# Clocked blocks of a bank

Which block of a bank writes to which flip-flops.  A field's block is the only
one that writes to the value and the state of the field
(`itemsWrite?_items_field`), and the read multiplexer is the only one that
writes to the two registered nets of the Local Bus
(`itemsWrite?_items_multiplexer`).  Everything else is left alone.
-/

namespace RegisterBank.Bank

open RegisterBank.Verilog
open RegisterBank.Bus (Geometry)

/-! ## The blocks in order -/

/-- The clocked block of the read multiplexer. -/
def readBlock (bus : Geometry) (readFiller : Nat) (plan : Plan) : Item :=
  clocked bus.reset
    (.seq (.set "lb_rvalid" 0 (.binary 1 0))
      (.set "lb_rdata" 9 (.hex bus.dataWidth readFiller)))
    (.seq (.set "lb_rvalid" 0 (.net "lb_ren"))
      (.branch (.net "lb_ren")
        (.select (.net "lb_raddr") (readArms bus readFiller plan.registers)) .skip))

theorem isClocked_stateConstants (plan : Plan) :
    (stateConstants plan).filter Item.isClocked = [] := by
  rw [List.filter_eq_nil_iff]
  intro item listed
  obtain ⟨_, -, _, -, rfl⟩ := exists_parameter_of_mem listed
  exact Bool.false_ne_true

theorem isClocked_decoder (addressWidth : Nat) (plan : Plan) :
    (decoder addressWidth plan).filter Item.isClocked = [] := by
  unfold decoder
  rw [List.filter_cons_of_neg Bool.false_ne_true, List.filter_flatMap]
  exact List.flatMap_eq_nil_iff.mpr fun register _ => rfl

/-- What the items of a bank write is what the fields' blocks and the read
multiplexer write. -/
theorem itemsWrite?_items (circuit : Circuit) (widths before : Nets) (net : String) :
    itemsWrite? widths before net circuit.items =
      ((readBlock circuit.bus circuit.readFiller circuit.plan).write? widths before net).or
        (itemsWrite? widths before net (circuit.plan.registers.flatMap fun register =>
          register.fields.flatMap (fieldItems circuit.bus.reset register))) := by
  have localBus : (localBus circuit.bus).filter Item.isClocked = [] := rfl
  have multiplexer :
      (.blank :: readMultiplexer circuit.bus circuit.readFiller circuit.plan).filter
        Item.isClocked = [readBlock circuit.bus circuit.readFiller circuit.plan] := rfl
  rw [itemsWrite?_filter]
  unfold Circuit.items bankItems
  rw [List.filter_append, List.filter_append, List.filter_append, List.filter_append,
    isClocked_stateConstants, localBus, isClocked_decoder, multiplexer, List.nil_append,
    List.nil_append, List.nil_append, itemsWrite?_append, ← itemsWrite?_filter]
  rfl

/-! ## The nets of a field -/

/-- The flip-flops of a field. -/
def Signal.IsFlipFlop (field : FieldPlan) (signal : Signal) : Prop :=
  signal = .value field ∨ signal = .state field

theorem readArms_targets (bus : Geometry) (readFiller : Nat) (registers : List RegisterPlan) :
    ∀ net ∈ (readArms bus readFiller registers).targets, net = "lb_rdata" := by
  induction registers with
  | nil =>
    intro net listed
    exact List.mem_singleton.mp listed
  | cons register rest ih =>
    intro net listed
    rcases List.mem_cons.mp listed with same | behind
    · exact same
    · exact ih net behind

/-- The read multiplexer writes to the Local Bus only. -/
theorem readBlock_write?_eq_none {bus : Geometry} {readFiller : Nat} {plan : Plan}
    {widths before : Nets} {net : String} (notData : net ≠ "lb_rdata")
    (notValid : net ≠ "lb_rvalid") :
    (readBlock bus readFiller plan).write? widths before net = none := by
  refine Item.write?_eq_none ?_
  intro listed
  change net ∈ ["lb_rvalid", "lb_rdata"] ++ (["lb_rvalid"] ++
    ((readArms bus readFiller plan.registers).targets ++ [])) at listed
  rw [List.append_nil] at listed
  rcases List.mem_append.mp listed with reset | listed
  · rcases List.mem_cons.mp reset with same | reset
    · exact notValid same
    · exact notData (List.mem_singleton.mp reset)
  rcases List.mem_append.mp listed with valid | data
  · exact notValid (List.mem_singleton.mp valid)
  · exact notData (readArms_targets bus readFiller _ net data)

section Blocks

variable {map : RegisterMap} {layout : Layout} {protocol : Bus.Protocol} {plan : Plan}
  (accepted : Accepted map layout protocol plan)

/-- What a field's block writes to is a flip-flop of the field. -/
theorem exists_flipFlop_of_mem_writes {register : RegisterPlan}
    (planned : register ∈ plan.registers) {field : FieldPlan} (declared : field ∈ register.fields)
    {item : Item} (own : item ∈ fieldItems layout.config.registerReset register field)
    {net : String} (written : net ∈ item.writes) :
    ∃ signal ∈ plan.signals, signal.IsFlipFlop field ∧
      signal.name layout.config.registerReset = net := by
  rcases writes_fieldItems own written with ⟨rfl, stored⟩ | ⟨rfl, state⟩
  · exact ⟨.value field, Plan.value_mem planned declared stored, Or.inl rfl, rfl⟩
  · exact ⟨.state field, Plan.state_mem planned declared state, Or.inr rfl, rfl⟩

include accepted

/-- A field belongs to one register. -/
theorem owner_unique {register other : RegisterPlan} (planned : register ∈ plan.registers)
    (otherPlanned : other ∈ plan.registers) {field : FieldPlan}
    (declared : field ∈ register.fields) (otherDeclared : field ∈ other.fields) :
    other = register := by
  have port (owner : RegisterPlan) (inside : field ∈ owner.fields) :
      .port field ∈ registerSignals owner :=
    List.mem_cons_of_mem _ (List.mem_cons_of_mem _
      (List.mem_flatMap.mpr ⟨field, inside, List.mem_cons_self⟩))
  have apart : plan.registers.Pairwise fun first second =>
      ¬ (field ∈ first.fields ∧ field ∈ second.fields) :=
    accepted.registers_apart.imp fun apart both =>
      apart (.port field) (port _ both.1) (port _ both.2)
  exact List.Pairwise.forall_of_forall_of_flip
    (R := fun first second => field ∈ first.fields → field ∈ second.fields → first = second)
    (fun _ _ _ _ => rfl)
    (apart.imp fun never first second => absurd ⟨first, second⟩ never)
    (apart.imp fun never second first => absurd ⟨first, second⟩ never)
    otherPlanned planned otherDeclared declared

/-- No field's block writes to a net that is not a flip-flop of the field. -/
theorem not_mem_writes {register : RegisterPlan} (planned : register ∈ plan.registers)
    {field : FieldPlan} (declared : field ∈ register.fields) {signal : Signal}
    (known : signal ∈ plan.signals) (foreign : ¬ signal.IsFlipFlop field) :
    ∀ item ∈ fieldItems layout.config.registerReset register field,
      signal.name layout.config.registerReset ∉ item.writes := by
  intro item own written
  obtain ⟨other, otherKnown, flipFlop, same⟩ :=
    exists_flipFlop_of_mem_writes planned declared own written
  rw [accepted.signal_unique otherKnown known same] at flipFlop
  exact foreign flipFlop

/-- A net that is no field's flip-flop is not written by any field's block. -/
theorem fields_write?_eq_none (widths before : Nets) {signal : Signal}
    (known : signal ∈ plan.signals) (foreign : ∀ field, ¬ signal.IsFlipFlop field) :
    itemsWrite? widths before (signal.name layout.config.registerReset)
      (plan.registers.flatMap fun register =>
        register.fields.flatMap (fieldItems layout.config.registerReset register)) = none := by
  refine itemsWrite?_eq_none ?_
  intro item listed
  obtain ⟨register, planned, inner⟩ := List.mem_flatMap.mp listed
  obtain ⟨field, declared, own⟩ := List.mem_flatMap.mp inner
  exact not_mem_writes accepted planned declared known (foreign field) item own

variable (values : Nets)

/-- What is written to any net that is not a field's flip-flop is what the read
multiplexer writes. -/
theorem itemsWrite?_items_multiplexer (widths before : Nets) {signal : Signal}
    (known : signal ∈ plan.signals) (foreign : ∀ field, ¬ signal.IsFlipFlop field) :
    itemsWrite? widths before (signal.name layout.config.registerReset)
        (Circuit.of layout plan values).items =
      (readBlock layout.geometry layout.config.readFiller plan).write? widths before
        (signal.name layout.config.registerReset) := by
  have fields := fields_write?_eq_none accepted widths before known foreign
  rw [itemsWrite?_items]
  exact (congrArg _ fields).trans Option.or_none

/-- What is written to a field's flip-flops is what its block writes. -/
theorem itemsWrite?_items_field (widths before : Nets) {register : RegisterPlan}
    (planned : register ∈ plan.registers) {field : FieldPlan} (declared : field ∈ register.fields)
    {signal : Signal} (known : signal ∈ plan.signals) (flipFlop : signal.IsFlipFlop field) :
    itemsWrite? widths before (signal.name layout.config.registerReset)
        (Circuit.of layout plan values).items =
      itemsWrite? widths before (signal.name layout.config.registerReset)
        (fieldItems layout.config.registerReset register field) := by
  have notBus : ∀ name ∈ localBusNets, signal.name layout.config.registerReset ≠ name := by
    intro name listed same
    have equal := accepted.signal_unique known (Plan.bus_mem listed) same
    rcases flipFlop with rfl | rfl
    · cases equal
    · cases equal
  have other : ∀ foreign, foreign ≠ field → ¬ signal.IsFlipFlop foreign := by
    intro foreign different own
    rcases flipFlop with rfl | rfl
    · rcases own with own | own
      · exact different (Signal.value.inj own).symm
      · cases own
    · rcases own with own | own
      · cases own
      · exact different (Signal.state.inj own).symm
  rw [itemsWrite?_items, readBlock_write?_eq_none (notBus _ (by decide)) (notBus _ (by decide)),
    Option.none_or]
  refine (itemsWrite?_flatMap_of_mem planned ?_).trans (itemsWrite?_flatMap_of_mem declared ?_)
  · intro foreign foreignPlanned different item listed
    obtain ⟨inner, inside, own⟩ := List.mem_flatMap.mp listed
    refine not_mem_writes accepted foreignPlanned inside known (other inner ?_) item own
    intro same
    rw [same] at inside
    exact different (owner_unique accepted planned foreignPlanned declared inside)
  · intro foreign inside different item own
    exact not_mem_writes accepted planned inside known (other foreign different) item own

end Blocks

end RegisterBank.Bank
