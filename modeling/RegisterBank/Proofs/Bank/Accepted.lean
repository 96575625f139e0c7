import RegisterBank.Bank.Bridge
import RegisterBank.Proofs.Construction.Workbench
import RegisterBank.Proofs.Layout.Placement

/-!
# Accepted layouts

`Accepted map layout protocol plan` is what a bank starts from: a built map, its
layout, and the plan with which `prepare` takes it for a bus family.  The rest
of the module says once what that means for the plan, so that nothing later
goes back to how maps are built: every register of the plan is `Sound` for the
data width, no two registers share a name or an address, and all names of the
plan are granted.
-/

namespace RegisterBank.Bank

/-! ## Sound plans -/

/-- A field of a plan: it obeys the rules of fields, has the template that
follows from them, and lies on the data bus. -/
structure FieldPlan.Sound (dataWidth : Nat) (plan : FieldPlan) : Prop where
  valid : plan.field.Valid
  template_eq : plan.template = Template.ofField plan.field
  above_le : plan.field.bits.above ≤ dataWidth

/-- A register of a plan: its fields are sound and share neither a name nor a
bit. -/
structure RegisterPlan.Sound (dataWidth : Nat) (plan : RegisterPlan) : Prop where
  fields : ∀ field ∈ plan.fields, field.Sound dataWidth
  apart : plan.fields.Pairwise fun field other => field.field.Apart other.field

/-- A sound field ends inside the data bus. -/
theorem FieldPlan.Sound.lsb_add_width_le {dataWidth : Nat} {plan : FieldPlan}
    (sound : plan.Sound dataWidth) :
    plan.field.bits.lsb + plan.field.bits.width ≤ dataWidth :=
  sound.above_le

theorem RegisterPlan.Sound.names_nodup {dataWidth : Nat} {plan : RegisterPlan}
    (sound : plan.Sound dataWidth) :
    (plan.fields.map fun field => field.field.name).Nodup := by
  unfold List.Nodup
  rw [List.pairwise_map]
  exact sound.apart.imp fun apart => apart.1

/-- The plan of a field is in that of its register. -/
theorem planField_mem (config : Configuration) {placed : PlacedRegister} {field : Field}
    (declared : field ∈ placed.register.fields) :
    planField config placed.register field ∈ (planRegister config placed).fields :=
  List.mem_map_of_mem declared

/-! ## Accepted layouts -/

/-- A layout of a built map that is taken for a bus family with a plan. -/
structure Accepted (map : RegisterMap) (layout : Layout) (protocol : Bus.Protocol) (plan : Plan) :
    Prop where
  built : map.Built
  resolved : Layout.resolve map = .ok layout
  prepared : layout.prepare = .ok (some (protocol, plan))

namespace Accepted

variable {map : RegisterMap} {layout : Layout} {protocol : Bus.Protocol} {plan : Plan}

/-- An accepted layout has a machine, which is made of its plan. -/
theorem buildMachine (accepted : Accepted map layout protocol plan) :
    layout.buildMachine =
      .ok (some (Machine.make plan layout.dataWidth layout.config.readFiller, protocol)) := by
  unfold Layout.buildMachine
  rw [accepted.prepared]

/-- Each register of an accepted map has an address of its own inside the
address space. -/
theorem puts (accepted : Accepted map layout protocol plan) :
    ∃ addresses, layout.Puts map addresses ∧ addresses.Nodup ∧
      ∀ address ∈ addresses, address < 2 ^ map.config.addressWidth := by
  rcases Layout.exists_resolves accepted.built.valid with ⟨addresses, resolves⟩
  obtain ⟨distinct, bounded⟩ := resolves.succeeds.mp ⟨layout, accepted.resolved⟩
  exact ⟨addresses, resolves.puts layout accepted.resolved, distinct, bounded⟩

/-- A layout remembers the map that it was made from. -/
theorem layout_map (accepted : Accepted map layout protocol plan) : layout.map = map := by
  obtain ⟨addresses, puts, -⟩ := accepted.puts
  exact puts.map_eq

/-- The plan is made for the layout, and the bus can carry the layout. -/
theorem make_eq (accepted : Accepted map layout protocol plan) :
    layout.bridgeProblem? protocol = none ∧ Plan.make layout protocol = .ok plan := by
  have prepared := accepted.prepared
  unfold Layout.prepare at prepared
  split at prepared
  · cases prepared
  · rename_i chosen _
    split at prepared
    · cases prepared
    · rename_i fine
      cases made : Plan.make layout chosen with
      | error error =>
        rw [made] at prepared
        cases prepared
      | ok drafted =>
        rw [made] at prepared
        cases prepared
        exact ⟨fine, made⟩

/-- Addresses of the plan are at least a bus word apart. -/
theorem dataBytes_le (accepted : Accepted map layout protocol plan) :
    layout.config.dataBytes ≤ layout.config.addressIncrement := by
  by_contra narrow
  have fine := accepted.make_eq.1
  unfold Layout.bridgeProblem? at fine
  dsimp only at fine
  split at fine
  · cases fine
  · split at fine
    · cases fine
    · rw [if_pos (Nat.lt_of_not_le narrow)] at fine
      cases fine

/-- A plan is accepted as it was drafted: names are checked and never
changed. -/
theorem plan_eq (accepted : Accepted map layout protocol plan) :
    plan = Plan.draft layout ∧
      Plan.refusedClaim? [] (Plan.claims layout.config protocol plan) = none := by
  have made := accepted.make_eq.2
  unfold Plan.make at made
  cases refused : Plan.refusedClaim? []
      (Plan.claims layout.config protocol (Plan.draft layout)) with
  | some problem =>
    simp only [refused] at made
    cases made
  | none =>
    simp only [refused] at made
    cases made
    exact ⟨rfl, refused⟩

theorem dataWidth_eq (accepted : Accepted map layout protocol plan) :
    layout.dataWidth = map.config.dataWidth := by
  obtain ⟨addresses, puts, -⟩ := accepted.puts
  exact puts.dataWidth

/-- Only four widths are accepted for the data bus. -/
theorem dataWidth_mem (accepted : Accepted map layout protocol plan) :
    layout.dataWidth ∈ [8, 16, 32, 64] := by
  rw [accepted.dataWidth_eq]
  exact accepted.built.valid.config.dataWidth

theorem dataWidth_le (accepted : Accepted map layout protocol plan) :
    layout.dataWidth ≤ Bits.wordWidth := by
  rw [accepted.dataWidth_eq]
  exact accepted.built.valid.config.dataWidth_le

/-- Every register of the plan is one of the layout's, with the plans of its
fields. -/
theorem exists_placed (accepted : Accepted map layout protocol plan) {register : RegisterPlan}
    (listed : register ∈ plan.registers) :
    ∃ placed ∈ layout.registers, register = planRegister layout.config placed := by
  rw [accepted.plan_eq.1] at listed
  obtain ⟨placed, declared, rfl⟩ := List.mem_map.mp listed
  exact ⟨placed, declared, rfl⟩

/-- Placing registers leaves them as they are in the map. -/
theorem register_mem (accepted : Accepted map layout protocol plan) {placed : PlacedRegister}
    (listed : placed ∈ layout.registers) : placed.register ∈ map.registers := by
  obtain ⟨addresses, puts, -⟩ := accepted.puts
  rw [← puts.registers]
  exact List.mem_map_of_mem listed

/-- The fields of an accepted plan fit the data bus, and no two share a bit or a
name. -/
theorem sound (accepted : Accepted map layout protocol plan) :
    ∀ register ∈ plan.registers, register.Sound layout.dataWidth := by
  intro register listed
  rcases accepted.exists_placed listed with ⟨placed, declared, rfl⟩
  have member := accepted.register_mem declared
  have valid := accepted.built.valid.registers placed.register member
  have allowed := accepted.built.valid.allowed placed.register member
  constructor
  · intro plan planned
    obtain ⟨field, has, rfl⟩ := List.mem_map.mp planned
    refine ⟨valid.fields field has, rfl, ?_⟩
    rw [accepted.dataWidth_eq]
    exact allowed.above_le field has
  · unfold planRegister
    rw [List.pairwise_map]
    exact valid.apart

/-- No two registers of an accepted plan share an address. -/
theorem addresses_nodup (accepted : Accepted map layout protocol plan) :
    (plan.registers.map fun register => register.placed.address).Nodup := by
  obtain ⟨addresses, puts, distinct, -⟩ := accepted.puts
  rw [accepted.plan_eq.1, Plan.draft, List.map_map]
  have same : layout.registers.map
      ((fun register => register.placed.address) ∘ planRegister layout.config) = addresses :=
    puts.addresses
  rw [same]
  exact distinct

theorem names_nodup (accepted : Accepted map layout protocol plan) :
    (plan.registers.map RegisterPlan.name).Nodup := by
  obtain ⟨addresses, puts, -⟩ := accepted.puts
  have apart := accepted.built.valid.apart
  rw [accepted.plan_eq.1, Plan.draft, List.map_map]
  have same : layout.registers.map (RegisterPlan.name ∘ planRegister layout.config) =
      map.registers.map Register.name := by
    rw [← puts.registers, List.map_map]
    rfl
  rw [same]
  unfold List.Nodup
  rw [List.pairwise_map]
  exact apart.imp fun apart => apart.1

/-- The filler fits the data bus, since a wider one is refused. -/
theorem readFiller_lt (accepted : Accepted map layout protocol plan) :
    layout.config.readFiller < 2 ^ layout.dataWidth := by
  rw [accepted.dataWidth_eq, ← accepted.layout_map]
  exact Bits.and_ones_lt _ _

end Accepted

/-! ## The starter map behind a bus -/

/-- The defaults with a bridge. -/
def starterConfig : Configuration := { Configuration.default with protocol := some .apb }

/-- The starter map with these options. -/
def starterMap : RegisterMap :=
  (RegisterMap.template starterConfig).toOption.getD (.empty starterConfig)

/-- Its layout, which keeps the explicit addresses. -/
def starterLayout : Layout :=
  ⟨starterMap, 32, 16, List.zipWith PlacedRegister.mk starterMap.registers [0, 4]⟩

theorem accepted_starter :
    Accepted starterMap starterLayout .apb (Plan.draft starterLayout) where
  built := by
    have chosen : Configuration.default.set "lb_bridge.type" (.text "apb") = .ok starterConfig :=
      rfl
    have made : RegisterMap.template starterConfig = .ok starterMap := rfl
    exact RegisterMap.built_of_template (.set .default chosen) made
  resolved := rfl
  prepared := rfl

/-! ## Interrupts behind a bus -/

/-- The calls that make a map with pending interrupts, which reading clears,
with a mask of interrupts across two bytes, and with a key that is written
once. -/
def interruptCalls : List Workbench.Call :=
  [.newConfiguration, .setOption 0 "lb_bridge.type" (.text "apb"),
    .newField "pending" 0 8 .readOnly, .onField 0 (.withModifier .readClear),
    .onField 0 (.withInitial 1),
    .newField "mask" 12 8 .readWrite, .onField 1 (.withInitial 0xf0),
    .newField "key" 0 16 .readWrite, .onField 2 (.withModifier .writeOnce),
    .newRegister "irq", .onRegister 0 (.addFields [0, 1]),
    .newRegister "lock", .onRegister 1 (.addField 2),
    .newMap 0, .onMap 0 (.addRegisters [0, 1])]

/-- The map that these calls make. -/
def interruptMap : RegisterMap :=
  (Workbench.empty.run interruptCalls).maps.headD (.empty .default)

/-- Its layout, in which the registers follow each other. -/
def interruptLayout : Layout :=
  ⟨interruptMap, 32, 16, List.zipWith PlacedRegister.mk interruptMap.registers [0, 4]⟩

theorem accepted_interrupts :
    Accepted interruptMap interruptLayout .apb (Plan.draft interruptLayout) where
  built := Workbench.built_of_mem_run interruptCalls List.mem_cons_self
  resolved := rfl
  prepared := rfl

/-! ## Commands and events behind a bus -/

/-- The calls that make a map with a command that clears itself, across two
bytes, with events that reading clears, and with a token that is written once
and that reading clears as well. -/
def commandCalls : List Workbench.Call :=
  [.newConfiguration, .setOption 0 "lb_bridge.type" (.text "axil"),
    .newField "go" 4 8 .writeOnly, .onField 0 (.withModifier .selfClear),
    .newField "count" 4 8 .readWrite, .onField 1 (.withModifier .readClear),
    .onField 1 (.withInitial 0x15),
    .newField "token" 16 12 .readWrite, .onField 2 (.withModifiers [.writeOnce, .readClear]),
    .onField 2 (.withInitial 0x7c7),
    .newRegister "cmd", .onRegister 0 (.addField 0),
    .newRegister "evt", .onRegister 1 (.addFields [1, 2]),
    .newMap 0, .onMap 0 (.addRegisters [0, 1])]

/-- The map that these calls make. -/
def commandMap : RegisterMap :=
  (Workbench.empty.run commandCalls).maps.headD (.empty .default)

/-- Its layout, in which the registers follow each other. -/
def commandLayout : Layout :=
  ⟨commandMap, 32, 16, List.zipWith PlacedRegister.mk commandMap.registers [0, 4]⟩

theorem accepted_commands :
    Accepted commandMap commandLayout .axil (Plan.draft commandLayout) where
  built := Workbench.built_of_mem_run commandCalls List.mem_cons_self
  resolved := rfl
  prepared := rfl

end RegisterBank.Bank
