import RegisterBank.Bank.Circuit
import RegisterBank.Proofs.Bank.Names

/-!
# Signals of a bank

A net of a bank is known by its name only.  `Signal` says what it is: a net of
the Local Bus, a select of a register, the value of a field.  In an accepted
plan a name stands for one signal (`Accepted.signal_unique`), so two nets are
told apart by what they are, and the width of a net is that of its signal
(`Accepted.get_widths`).
-/

namespace RegisterBank.Bank

open RegisterBank.Bus (Geometry)
open RegisterBank.Verilog (Nets)

/-- A net of a bank. -/
inductive Signal where
  | constant (name : String)
  | reset
  | bus (name : String)
  | writeSelect (register : RegisterPlan)
  | readSelect (register : RegisterPlan)
  | port (field : FieldPlan)
  | enable (field : FieldPlan)
  | value (field : FieldPlan)
  | state (field : FieldPlan)

/-- The widths of the nets of the Local Bus. -/
def localBusWidths (bus : Geometry) : Nets :=
  [("lb_waddr", bus.addressWidth), ("lb_wdata", bus.dataWidth), ("lb_wstrb", bus.strobeWidth),
    ("lb_wmask", bus.dataWidth), ("lb_wen", 1), ("lb_wready", 1), ("lb_raddr", bus.addressWidth),
    ("lb_ren", 1), ("lb_rdata", bus.dataWidth), ("lb_rvalid", 1)]

namespace Signal

/-- The name of a signal in a bank with a reset style. -/
def name (style : ResetStyle) : Signal → String
  | .constant name => name
  | .reset => style.port
  | .bus name => name
  | .writeSelect register => register.writeSelect
  | .readSelect register => register.readSelect
  | .port field => field.port
  | .enable field => field.enableNet
  | .value field => field.valueNet
  | .state field => field.stateNet

/-- The width of a signal. -/
def width (bus : Geometry) : Signal → Nat
  | .bus name => (localBusWidths bus).get name
  | .port field | .value field => field.field.bits.width
  | .constant _ | .reset | .writeSelect _ | .readSelect _ | .enable _ | .state _ => 1

end Signal

/-! ## All signals -/

/-- The signals of a field. -/
def fieldSignals (field : FieldPlan) : List Signal :=
  .port field ::
    ((if field.template.direction = .output then [.enable field] else [])
      ++ (if field.template.isStored then [.value field] else [])
      ++ (if field.template.hasState then [.state field] else []))

/-- The signals of a register and its fields. -/
def registerSignals (register : RegisterPlan) : List Signal :=
  .writeSelect register :: .readSelect register :: register.fields.flatMap fieldSignals

namespace Plan

/-- The signals that a plan claims names for. -/
def claimedSignals (plan : Plan) : List Signal :=
  .reset :: (localBusNets.map .bus ++ plan.registers.flatMap registerSignals)

/-- The signals of a bank. -/
def signals (plan : Plan) : List Signal :=
  stateConstantNames.map .constant ++ plan.claimedSignals

section Members

variable {plan : Plan} {register : RegisterPlan} {field : FieldPlan}

theorem constant_mem {name : String} (listed : name ∈ stateConstantNames) :
    .constant name ∈ plan.signals :=
  List.mem_append_left _ (List.mem_map_of_mem listed)

theorem reset_mem : .reset ∈ plan.signals :=
  List.mem_append_right _ List.mem_cons_self

theorem bus_mem {name : String} (listed : name ∈ localBusNets) : .bus name ∈ plan.signals :=
  List.mem_append_right _
    (List.mem_cons_of_mem _ (List.mem_append_left _ (List.mem_map_of_mem listed)))

theorem register_mem (listed : register ∈ plan.registers) {signal : Signal}
    (own : signal ∈ registerSignals register) : signal ∈ plan.signals :=
  List.mem_append_right _ (List.mem_cons_of_mem _
    (List.mem_append_right _ (List.mem_flatMap.mpr ⟨register, listed, own⟩)))

theorem writeSelect_mem (listed : register ∈ plan.registers) :
    .writeSelect register ∈ plan.signals :=
  register_mem listed List.mem_cons_self

theorem readSelect_mem (listed : register ∈ plan.registers) :
    .readSelect register ∈ plan.signals :=
  register_mem listed (List.mem_cons_of_mem _ List.mem_cons_self)

/-- Signals of a field are signals of the plan. -/
theorem field_mem (listed : register ∈ plan.registers) (declared : field ∈ register.fields)
    {signal : Signal} (own : signal ∈ fieldSignals field) : signal ∈ plan.signals :=
  register_mem listed (List.mem_cons_of_mem _ (List.mem_cons_of_mem _
    (List.mem_flatMap.mpr ⟨field, declared, own⟩)))

theorem port_mem (listed : register ∈ plan.registers) (declared : field ∈ register.fields) :
    .port field ∈ plan.signals :=
  field_mem listed declared List.mem_cons_self

/-- Only fields with an output port have an enable. -/
theorem enable_mem (listed : register ∈ plan.registers) (declared : field ∈ register.fields)
    (output : field.template.direction = .output) : .enable field ∈ plan.signals :=
  field_mem listed declared (by simp [fieldSignals, output])

/-- Only stored fields have a value net. -/
theorem value_mem (listed : register ∈ plan.registers) (declared : field ∈ register.fields)
    (stored : field.template.isStored = true) : .value field ∈ plan.signals :=
  field_mem listed declared (by simp [fieldSignals, stored])

/-- Only fields that clear themselves or lock have a state net. -/
theorem state_mem (listed : register ∈ plan.registers) (declared : field ∈ register.fields)
    (state : field.template.hasState = true) : .state field ∈ plan.signals :=
  field_mem listed declared (by simp [fieldSignals, state])

end Members

end Plan

/-! ## Names -/

/-- A field's signals are named by its port and its internal nets. -/
theorem map_name_fieldSignals (style : ResetStyle) (field : FieldPlan) :
    (fieldSignals field).map (Signal.name style) = field.port :: field.internalNets := by
  unfold fieldSignals FieldPlan.internalNets
  rw [List.map_cons, List.map_append, List.map_append]
  congr 1
  split <;> split <;> split <;> rfl

/-- The signals of a register are exactly the names that are claimed for it. -/
theorem map_name_registerSignals (style : ResetStyle) (register : RegisterPlan) :
    (registerSignals register).map (Signal.name style) =
      (Plan.registerClaims register).map Plan.Claim.name := by
  unfold registerSignals Plan.registerClaims
  rw [List.map_cons, List.map_cons, List.map_append, List.map_flatMap, List.map_flatMap]
  simp only [map_name_fieldSignals, List.map_map, List.map_cons, List.map_nil]
  simp only [Function.comp_def, List.map_id']
  rfl

namespace Accepted

variable {map : RegisterMap} {layout : Layout} {protocol : Bus.Protocol} {plan : Plan}

/-- The names of the claimed signals stand among the claims, in the same
order. -/
theorem map_name_sublist (layout : Layout) (protocol : Bus.Protocol) (plan : Plan) :
    (plan.claimedSignals.map (Signal.name layout.config.registerReset)).Sublist
      ((Plan.claims layout.config protocol plan).map Plan.Claim.name) := by
  have registers : (plan.registers.flatMap registerSignals).map
      (Signal.name layout.config.registerReset) =
        (plan.registers.flatMap Plan.registerClaims).map Plan.Claim.name := by
    rw [List.map_flatMap, List.map_flatMap]
    simp only [map_name_registerSignals]
  have claimed : plan.claimedSignals.map (Signal.name layout.config.registerReset) =
      layout.config.registerReset.port ::
        (localBusNets ++ (plan.registers.flatMap Plan.registerClaims).map Plan.Claim.name) := by
    unfold Plan.claimedSignals
    rw [List.map_cons, List.map_append, registers]
    rfl
  have claims : (Plan.claims layout.config protocol plan).map Plan.Claim.name =
      "clk" :: layout.config.registerReset.port ::
        (protocol.ports.map Bus.Port.name ++ ((localBusNets ++ protocol.internals) ++
          (plan.registers.flatMap Plan.registerClaims).map Plan.Claim.name)) := by
    simp [Plan.claims, Function.comp_def]
  rw [claimed, claims]
  refine List.Sublist.cons _ (List.Sublist.cons_cons _ ?_)
  refine List.Sublist.trans ?_ (List.sublist_append_right _ _)
  exact List.Sublist.append (List.sublist_append_left _ _) (List.Sublist.refl _)

/-- No claimed signal is named like a state constant. -/
theorem constants_apart (accepted : Accepted map layout protocol plan) :
    ∀ signal ∈ plan.claimedSignals,
      signal.name layout.config.registerReset ∉ stateConstantNames := by
  intro signal listed
  rcases List.mem_cons.mp listed with rfl | listed
  · unfold Signal.name
    cases layout.config.registerReset <;> decide
  rcases List.mem_append.mp listed with net | listed
  · have apart : ∀ name ∈ localBusNets, name ∉ stateConstantNames := by decide
    obtain ⟨name, member, rfl⟩ := List.mem_map.mp net
    exact apart name member
  obtain ⟨register, planned, own⟩ := List.mem_flatMap.mp listed
  rcases accepted.exists_placed planned with ⟨placed, -, rfl⟩
  rcases List.mem_cons.mp own with rfl | own
  · exact not_mem_constants_append (by decide)
  rcases List.mem_cons.mp own with rfl | own
  · exact not_mem_constants_append (by decide)
  obtain ⟨field, declared, own⟩ := List.mem_flatMap.mp own
  -- The rest belongs to a field; all but its port end in a suffix that no constant has.
  obtain ⟨inner, -, rfl⟩ := List.mem_map.mp declared
  rcases List.mem_cons.mp own with rfl | own
  · exact port_not_mem_constants _ _ _
  rcases List.mem_append.mp own with own | own
  · rcases List.mem_append.mp own with own | own
    · split at own
      · rw [List.mem_singleton.mp own]
        exact not_mem_constants_append (by decide)
      · cases own
    · split at own
      · rw [List.mem_singleton.mp own]
        exact not_mem_constants_append (by decide)
      · cases own
  · split at own
    · rw [List.mem_singleton.mp own]
      exact not_mem_constants_append (by decide)
    · cases own

/-- An accepted plan names no two signals alike, the state constants
included. -/
theorem signal_names_nodup (accepted : Accepted map layout protocol plan) :
    (plan.signals.map (Signal.name layout.config.registerReset)).Nodup := by
  unfold Plan.signals
  rw [List.map_append, List.nodup_append]
  refine ⟨?_, ?_, ?_⟩
  · rw [List.map_map]
    show (stateConstantNames.map id).Nodup
    decide
  · exact accepted.claims_nodup.sublist (map_name_sublist layout protocol plan)
  · intro constant listed other otherListed same
    obtain ⟨signal, member, rfl⟩ := List.mem_map.mp otherListed
    rw [List.map_map] at listed
    obtain ⟨name, named, rfl⟩ := List.mem_map.mp listed
    refine accepted.constants_apart signal member ?_
    rw [← same]
    exact named

/-- A name stands for one signal. -/
theorem signal_unique (accepted : Accepted map layout protocol plan) {signal other : Signal}
    (listed : signal ∈ plan.signals) (otherListed : other ∈ plan.signals)
    (same : signal.name layout.config.registerReset = other.name layout.config.registerReset) :
    signal = other :=
  List.inj_on_of_nodup_map accepted.signal_names_nodup listed otherListed same

/-- Signals with different names are different. -/
theorem signals_nodup (accepted : Accepted map layout protocol plan) : plan.signals.Nodup :=
  accepted.signal_names_nodup.of_map

/-- Registers have no signal in common. -/
theorem registers_apart (accepted : Accepted map layout protocol plan) :
    plan.registers.Pairwise fun register other =>
      ∀ signal ∈ registerSignals register, signal ∉ registerSignals other := by
  have nodup := accepted.signals_nodup
  unfold Plan.signals Plan.claimedSignals at nodup
  rw [List.nodup_append, List.nodup_cons, List.nodup_append, List.nodup_flatMap] at nodup
  refine nodup.2.1.2.2.1.2.imp ?_
  intro register other disjoint signal own foreign
  exact disjoint own foreign

/-- Nor have the fields of a register. -/
theorem fields_apart (accepted : Accepted map layout protocol plan) {register : RegisterPlan}
    (listed : register ∈ plan.registers) :
    register.fields.Pairwise fun field other =>
      ∀ signal ∈ fieldSignals field, signal ∉ fieldSignals other := by
  have nodup := accepted.signals_nodup
  unfold Plan.signals Plan.claimedSignals at nodup
  rw [List.nodup_append, List.nodup_cons, List.nodup_append, List.nodup_flatMap] at nodup
  have inner := nodup.2.1.2.2.1.1 register listed
  unfold registerSignals at inner
  rw [List.nodup_cons, List.nodup_cons, List.nodup_flatMap] at inner
  refine inner.2.2.2.imp ?_
  intro field other disjoint signal own foreign
  exact disjoint own foreign

end Accepted

end RegisterBank.Bank
