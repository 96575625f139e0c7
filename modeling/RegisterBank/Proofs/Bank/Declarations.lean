import Mathlib.Data.List.Perm.Basic
import RegisterBank.Proofs.Bank.Collisions
import RegisterBank.Proofs.Bank.Widths
import RegisterBank.Proofs.Verilog.Modules

/-!
# What a bridge declares

The ports and the items of a bridge declare, in an order of their own, the
constants of the states that some field has and the names that the plan has
claimed (`names_perm`).  All claims are granted, so these names may be declared
one after the other (`declarables_bridge`).
-/

namespace RegisterBank

/-- The bridge that is generated for an accepted plan. -/
def Layout.bridge (layout : Layout) (protocol : Bus.Protocol) (plan : Bank.Plan)
    (mapName : String) : Bank.Bridge where
  plan := plan
  protocol := protocol
  bus := layout.geometry
  readFiller := layout.config.readFiller
  moduleName := protocol.moduleName mapName
  mapName := mapName

end RegisterBank

namespace RegisterBank.Bank

open RegisterBank.Verilog
open RegisterBank.Bus (Geometry)

/-! ## The names of each part -/

theorem flatMap_names (items : List Item) :
    items.flatMap Item.names = (items.filterMap Item.declared?).map Prod.fst := by
  induction items with
  | nil => rfl
  | cons item rest ih =>
    rw [List.flatMap_cons, ih, Item.names]
    cases declared : item.declared? with
    | none => rw [List.filterMap_cons_none declared]; rfl
    | some entry => rw [List.filterMap_cons_some declared]; rfl

/-- The constants that a plan needs. -/
def constantNames (plan : Plan) : List String :=
  (if plan.uses (· == .selfClearing) then SelfClearState.all.map SelfClearState.constant else [])
    ++ (if plan.uses Template.isWriteOnce then WriteOnceState.all.map WriteOnceState.constant
      else [])

theorem constantNames_sublist (plan : Plan) :
    (constantNames plan).Sublist stateConstantNames := by
  unfold constantNames stateConstantNames
  refine List.Sublist.append ?_ ?_
  · split
    · exact .refl _
    · exact List.nil_sublist _
  · split
    · exact .refl _
    · exact List.nil_sublist _

/-- Only the constants of templates in use are declared. -/
theorem names_stateConstants (plan : Plan) :
    (stateConstants plan).flatMap Item.names = constantNames plan := by
  unfold stateConstants constantNames
  rw [List.flatMap_append]
  congr 1
  · split <;> rfl
  · split <;> rfl

theorem names_localBus (bus : Geometry) : (localBus bus).flatMap Item.names = localBusNets := rfl

theorem names_frontEnd (protocol : Bus.Protocol) (bus : Geometry) :
    (protocol.frontEnd bus).flatMap Item.names = protocol.internals := by
  cases protocol <;> rfl

/-- The decoder declares the two selects of each register. -/
theorem names_decoder (addressWidth : Nat) (plan : Plan) :
    (decoder addressWidth plan).flatMap Item.names =
      plan.registers.flatMap fun register => [register.writeSelect, register.readSelect] := by
  unfold decoder
  rw [List.flatMap_cons, List.flatMap_assoc]
  rfl

/-- A field's block declares the nets of the field. -/
theorem names_fieldItems (bus : Geometry) (register : RegisterPlan) (field : FieldPlan) :
    ((fieldItems bus.reset register field).flatMap Item.names).Perm field.internalNets := by
  have nets : (fieldSignals field).tail.map (Signal.name bus.reset) = field.internalNets :=
    congrArg List.tail (map_name_fieldSignals bus.reset field)
  rw [flatMap_names, ← nets]
  have perm := (declared_fieldItems bus register field).map Prod.fst
  rw [List.map_map] at perm
  exact perm

/-- The bank declares the selects, then the nets of each field. -/
theorem names_bankItems (bus : Geometry) (readFiller : Nat) (plan : Plan) :
    (bankItems bus readFiller plan).flatMap Item.names =
      (plan.registers.flatMap fun register => [register.writeSelect, register.readSelect])
        ++ plan.registers.flatMap fun register =>
          register.fields.flatMap fun field =>
            (fieldItems bus.reset register field).flatMap Item.names := by
  have multiplexer : (.blank :: readMultiplexer bus readFiller plan).flatMap Item.names = [] := rfl
  unfold bankItems
  rw [List.flatMap_append, List.flatMap_append, multiplexer, names_decoder, List.append_nil,
    List.flatMap_assoc]
  simp only [List.flatMap_assoc]

theorem map_name_portGroup (comment : String) (ports : List ModulePort) :
    (portGroup comment ports).map ModulePort.name = ports.map ModulePort.name := by
  cases ports <;> rfl

/-- Clock, reset, the bus and the fields have their ports in this order. -/
theorem map_name_ports (bridge : Bridge) :
    bridge.ports.map ModulePort.name =
      ["clk", bridge.bus.reset.port] ++ bridge.protocol.ports.map Bus.Port.name
        ++ bridge.plan.registers.flatMap fun register => register.fields.map FieldPlan.port := by
  unfold Bridge.ports registerPorts
  simp only [List.map_append, List.map_flatMap, map_name_portGroup, List.map_map]
  rfl

/-! ## All names -/

/-- The names that a bridge declares, the ports before the items. -/
def Bridge.names (bridge : Bridge) : List String :=
  bridge.ports.map ModulePort.name ++ bridge.toModule.items.flatMap Item.names

/-- The module's items declare the constants, the local bus, the front end and
the bank. -/
theorem names_items (bridge : Bridge) :
    bridge.toModule.items.flatMap Item.names =
      constantNames bridge.plan ++ localBusNets ++ bridge.protocol.internals
        ++ (bankItems bridge.bus bridge.readFiller bridge.plan).flatMap Item.names := by
  unfold Bridge.toModule
  simp only [List.flatMap_append, names_stateConstants, names_localBus, names_frontEnd,
    List.append_assoc]
  rfl

/-- The names of the registers, claimed one after the other, are the ports, the
selects and the nets. -/
theorem registerClaims_perm (bus : Geometry) (registers : List RegisterPlan) :
    ((registers.flatMap fun register => register.fields.map FieldPlan.port)
        ++ ((registers.flatMap fun register => [register.writeSelect, register.readSelect])
          ++ registers.flatMap fun register => register.fields.flatMap fun field =>
            (fieldItems bus.reset register field).flatMap Item.names)).Perm
      ((registers.flatMap Plan.registerClaims).map Plan.Claim.name) := by
  rw [List.map_flatMap]
  refine ((List.flatMap_append_perm _ _ _).append_left _).trans
    ((List.flatMap_append_perm _ _ _).trans (List.Perm.flatMap_left _ fun register _ => ?_))
  rw [← map_name_registerSignals bus.reset]
  unfold registerSignals
  rw [List.map_cons, List.map_cons, List.map_flatMap]
  refine List.perm_middle.trans (.cons _ (List.perm_middle.trans (.cons _ ?_)))
  rw [← List.flatMap_pure_eq_map]
  refine (List.flatMap_append_perm _ _ _).trans (List.Perm.flatMap_left _ fun field _ => ?_)
  rw [map_name_fieldSignals]
  exact .cons _ (names_fieldItems bus register field)

/-- What a bridge declares are the constants that it needs and all claims. -/
theorem names_perm (config : Configuration) (bridge : Bridge)
    (style : bridge.bus.reset = config.registerReset) :
    bridge.names.Perm (constantNames bridge.plan
      ++ (Plan.claims config bridge.protocol bridge.plan).map Plan.Claim.name) := by
  have registers := registerClaims_perm bridge.bus bridge.plan.registers
  have claims : (Plan.claims config bridge.protocol bridge.plan).map Plan.Claim.name =
      ["clk", bridge.bus.reset.port] ++ bridge.protocol.ports.map Bus.Port.name ++ localBusNets
        ++ bridge.protocol.internals
        ++ (bridge.plan.registers.flatMap Plan.registerClaims).map Plan.Claim.name := by
    simp [Plan.claims, Function.comp_def, style]
  unfold Bridge.names
  rw [map_name_ports, names_items, names_bankItems, claims]
  rw [List.perm_iff_count] at registers ⊢
  intro name
  have counted := registers name
  simp only [List.count_append] at counted ⊢
  omega

section Accepted

variable {map : RegisterMap} {layout : Layout} {protocol : Bus.Protocol} {plan : Plan}

/-- A granted name is no word of the language. -/
theorem Grantable.template {name : String} (grantable : Grantable name) :
    name ∉ templateWords := by
  have reserved : ∀ word ∈ templateWords, isKeyword word = true := by decide
  intro listed
  have keyword := reserved name listed
  rw [grantable.notReserved] at keyword
  cases keyword

/-- All names that an accepted plan claims are identifiers and no keywords. -/
theorem Accepted.grantable (accepted : Accepted map layout protocol plan) :
    ∀ name ∈ (Plan.claims layout.config protocol plan).map Plan.Claim.name, Grantable name := by
  rw [accepted.plan_eq.1, map_name_claims]
  exact grantable_signalNames accepted.built accepted.resolved protocol

/-- The names of a bridge may be declared one after the other. -/
theorem declarables_bridge (accepted : Accepted map layout protocol plan) (mapName : String) :
    Declarables [] (layout.bridge protocol plan mapName).names := by
  have perm := names_perm layout.config (layout.bridge protocol plan mapName) rfl
  have constants := constantNames_sublist plan
  have fine : ∀ name ∈ stateConstantNames,
      Text.isIdentifier name = true ∧ name ∉ templateWords := by decide
  constructor
  · intro name listed
    rcases List.mem_append.mp (perm.mem_iff.mp listed) with constant | claimed
    · exact fine name (constants.subset constant)
    · have grantable := accepted.grantable name claimed
      exact ⟨grantable.identifier, grantable.template⟩
  · rw [List.nil_append, perm.nodup_iff, List.nodup_append]
    refine ⟨List.Nodup.sublist constants (by decide), accepted.claims_nodup, ?_⟩
    intro constant listed name claimed same
    rw [← same] at claimed
    exact (accepted.grantable constant claimed).notConstant (constants.subset listed)

end Accepted

end RegisterBank.Bank
