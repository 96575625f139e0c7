import RegisterBank.Proofs.Bank.Signals
import RegisterBank.Proofs.Verilog.Settling

/-!
# Continuous assignments of a bank

The continuous assignments of a bank settle in the order of its items: the
constants and the Local Bus first, then the selects of all registers, then for
each field its write enable and its port.  `Group` goes through this order
part by part.  It carries along which signals the items of a part assign and
read, so that of two parts only these have to be told apart.
-/

namespace RegisterBank.Bank

open RegisterBank.Verilog
open RegisterBank.Bus (Geometry)

/-! ## Groups of items -/

/-- Items in order that assign and read certain signals only. -/
structure Group (plan : Plan) (style : ResetStyle) (targets reads : Signal → Prop)
    (items : List Item) : Prop where
  ordered : Ordered items
  targets : ∀ item ∈ items, ∀ target, item.target? = some target →
    ∃ signal ∈ plan.signals, targets signal ∧ signal.name style = target
  reads : ∀ item ∈ items, ∀ net ∈ item.reads,
    ∃ signal ∈ plan.signals, reads signal ∧ signal.name style = net

namespace Group

variable {plan : Plan} {style : ResetStyle}
  {targets reads targets' reads' : Signal → Prop} {items items' : List Item}

/-- Signals that are apart have items in order. -/
theorem before
    (unique : ∀ signal ∈ plan.signals, ∀ other ∈ plan.signals,
      signal.name style = other.name style → signal = other)
    (group : Group plan style targets reads items)
    (group' : Group plan style targets' reads' items')
    (apart : ∀ signal, targets signal ∨ reads signal → ¬ targets' signal) :
    ∀ item ∈ items, ∀ later ∈ items', item.Before later := by
  intro item listed later laterListed target own
  rcases group'.targets later laterListed target own with ⟨signal, known, assigned, rfl⟩
  constructor
  · intro same
    rcases group.targets item listed _ same with ⟨other, otherKnown, otherAssigned, equal⟩
    cases unique other otherKnown signal known equal
    exact apart signal (Or.inl otherAssigned) assigned
  · intro read
    rcases group.reads item listed _ read with ⟨other, otherKnown, otherRead, equal⟩
    cases unique other otherKnown signal known equal
    exact apart signal (Or.inr otherRead) assigned

theorem nil : Group plan style (fun _ => False) (fun _ => False) [] where
  ordered := ⟨List.Pairwise.nil, by intro item listed; cases listed⟩
  targets := by intro item listed; cases listed
  reads := by intro item listed; cases listed

/-- One item, with the signals that it reads. -/
theorem single
    (unique : ∀ signal ∈ plan.signals, ∀ other ∈ plan.signals,
      signal.name style = other.name style → signal = other)
    {item : Item} {target : Signal} (sources : List Signal) (known : target ∈ plan.signals)
    (assigns : item.target? = some (target.name style))
    (named : ∀ net ∈ item.reads, net ∈ sources.map (Signal.name style))
    (each : ∀ signal ∈ sources, signal ∈ plan.signals ∧ signal ≠ target ∧ reads signal) :
    Group plan style (fun signal => signal = target) reads [item] where
  ordered :=
    { before := List.pairwise_singleton _ _
      apart := by
        intro other listed name own read
        rw [List.mem_singleton] at listed
        subst listed
        rw [assigns] at own
        cases own
        obtain ⟨source, member, same⟩ := List.mem_map.mp (named _ read)
        obtain ⟨sourceKnown, apart, -⟩ := each source member
        exact apart (unique source sourceKnown target known same) }
  targets := by
    intro other listed name own
    rw [List.mem_singleton] at listed
    subst listed
    rw [assigns] at own
    cases own
    exact ⟨target, known, rfl, rfl⟩
  reads := by
    intro other listed net read
    rw [List.mem_singleton] at listed
    subst listed
    obtain ⟨source, member, same⟩ := List.mem_map.mp (named net read)
    obtain ⟨sourceKnown, -, own⟩ := each source member
    exact ⟨source, sourceKnown, own, same⟩

theorem mono (group : Group plan style targets reads items)
    (wider : ∀ signal, targets signal → targets' signal)
    (readsWider : ∀ signal, reads signal → reads' signal) :
    Group plan style targets' reads' items where
  ordered := group.ordered
  targets := by
    intro item listed target own
    rcases group.targets item listed target own with ⟨signal, known, assigned, same⟩
    exact ⟨signal, known, wider signal assigned, same⟩
  reads := by
    intro item listed net read
    rcases group.reads item listed net read with ⟨signal, known, own, same⟩
    exact ⟨signal, known, readsWider signal own, same⟩

/-- Two groups make one where the second drives nothing that the first drives or
reads. -/
theorem append
    (unique : ∀ signal ∈ plan.signals, ∀ other ∈ plan.signals,
      signal.name style = other.name style → signal = other)
    (group : Group plan style targets reads items)
    (group' : Group plan style targets' reads' items')
    (apart : ∀ signal, targets signal ∨ reads signal → ¬ targets' signal) :
    Group plan style (fun signal => targets signal ∨ targets' signal)
      (fun signal => reads signal ∨ reads' signal) (items ++ items') where
  ordered :=
    { before := List.pairwise_append.mpr
        ⟨group.ordered.before, group'.ordered.before, group.before unique group' apart⟩
      apart := by
        intro item listed
        rcases List.mem_append.mp listed with listed | listed
        · exact group.ordered.apart item listed
        · exact group'.ordered.apart item listed }
  targets := by
    intro item listed target own
    rcases List.mem_append.mp listed with listed | listed
    · rcases group.targets item listed target own with ⟨signal, known, assigned, same⟩
      exact ⟨signal, known, Or.inl assigned, same⟩
    · rcases group'.targets item listed target own with ⟨signal, known, assigned, same⟩
      exact ⟨signal, known, Or.inr assigned, same⟩
  reads := by
    intro item listed net read
    rcases List.mem_append.mp listed with listed | listed
    · rcases group.reads item listed net read with ⟨signal, known, own, same⟩
      exact ⟨signal, known, Or.inl own, same⟩
    · rcases group'.reads item listed net read with ⟨signal, known, own, same⟩
      exact ⟨signal, known, Or.inr own, same⟩

/-- Groups one after the other make one, where none drives what an earlier one
drives or reads. -/
theorem flatMap {α : Type} {elements : List α} {items : α → List Item}
    {targets reads : α → Signal → Prop}
    (unique : ∀ signal ∈ plan.signals, ∀ other ∈ plan.signals,
      signal.name style = other.name style → signal = other)
    (groups : ∀ element ∈ elements,
      Group plan style (targets element) (reads element) (items element))
    (apart : elements.Pairwise fun element later =>
      ∀ signal, targets element signal ∨ reads element signal → ¬ targets later signal) :
    Group plan style (fun signal => ∃ element ∈ elements, targets element signal)
      (fun signal => ∃ element ∈ elements, reads element signal) (elements.flatMap items) where
  ordered :=
    { before := by
        rw [List.pairwise_flatMap]
        refine ⟨fun element listed => (groups element listed).ordered.before, ?_⟩
        refine apart.imp_of_mem ?_
        intro element later listed laterListed apart
        exact (groups element listed).before unique (groups later laterListed) apart
      apart := by
        intro item listed
        obtain ⟨element, member, own⟩ := List.mem_flatMap.mp listed
        exact (groups element member).ordered.apart item own }
  targets := by
    intro item listed target own
    obtain ⟨element, member, inside⟩ := List.mem_flatMap.mp listed
    obtain ⟨signal, known, assigned, same⟩ := (groups element member).targets item inside target own
    exact ⟨signal, known, ⟨element, member, assigned⟩, same⟩
  reads := by
    intro item listed net read
    obtain ⟨element, member, inside⟩ := List.mem_flatMap.mp listed
    rcases (groups element member).reads item inside net read with ⟨signal, known, own, same⟩
    exact ⟨signal, known, ⟨element, member, own⟩, same⟩

end Group

/-! ## The continuous assignments -/

/-- Whether an item assigns a net continuously. -/
def isContinuous (item : Item) : Bool := item.target?.isSome

/-- The bits that byte strobes spread to. -/
def maskExpr (bus : Geometry) : Expr :=
  .concat ((List.range bus.strobeWidth).reverse.map fun byte =>
    .replicate 8 (.select "lb_wstrb" ⟨byte, 1⟩))

/-- A request on a channel that is meant for a register. -/
def selectExpr (addressWidth : Nat) (enable address : String) (register : RegisterPlan) : Expr :=
  .bitAnd (.net enable)
    (.paren (.equals (.net address) (.hex addressWidth register.placed.address)))

/-- A write that strobes a bit of a field. -/
def enableExpr (register : RegisterPlan) (field : FieldPlan) : Expr :=
  .bitAnd (.net register.writeSelect) (.paren (.anyBit (.select "lb_wmask" field.field.bits)))

/-- What the port of an output field shows. -/
def portExpr (field : FieldPlan) : Expr :=
  match field.template with
  | .pulse => .choose (.net field.enableNet) (.paren (writtenBits field)) (zeroOf field)
  | _ => .net field.valueNet

/-- The continuous assignments of the Local Bus. -/
def busDrivers (bus : Geometry) : List Item :=
  [.assign "lb_wready" 9 (.binary 1 1), .assign "lb_wmask" 9 (maskExpr bus)]

/-- The selects of a register. -/
def selectDrivers (addressWidth : Nat) (register : RegisterPlan) : List Item :=
  [Bus.follow register.writeSelect (selectExpr addressWidth "lb_wen" "lb_waddr" register),
    Bus.follow register.readSelect (selectExpr addressWidth "lb_ren" "lb_raddr" register)]

/-- The continuous assignments of a field. -/
def fieldDrivers (register : RegisterPlan) (field : FieldPlan) : List Item :=
  if field.template.direction = .output then
    [Bus.follow field.enableNet (enableExpr register field),
      .assign field.port 0 (portExpr field)]
  else []

/-- The continuous assignments of a bank. -/
def drivers (bus : Geometry) (plan : Plan) : List Item :=
  stateConstants plan ++ busDrivers bus
    ++ plan.registers.flatMap (selectDrivers bus.addressWidth)
    ++ plan.registers.flatMap fun register => register.fields.flatMap (fieldDrivers register)

/-- Of the local bus, only the ready signal and the mask are driven
continuously. -/
theorem filter_localBus (bus : Geometry) :
    (localBus bus).filter isContinuous = busDrivers bus := by
  rfl

theorem filter_decoder (addressWidth : Nat) (plan : Plan) :
    (decoder addressWidth plan).filter isContinuous =
      plan.registers.flatMap (selectDrivers addressWidth) := by
  unfold decoder
  rw [List.filter_cons_of_neg (by decide), List.filter_flatMap]
  rfl

theorem filter_stateConstants (plan : Plan) :
    (stateConstants plan).filter isContinuous = stateConstants plan := by
  rw [List.filter_eq_self]
  intro item listed
  obtain ⟨_, -, _, -, rfl⟩ := exists_parameter_of_mem listed
  rfl

/-- Of a field's block, the enable and the port are driven continuously. -/
theorem filter_fieldItems (style : ResetStyle) (register : RegisterPlan) (field : FieldPlan) :
    (fieldItems style register field).filter isContinuous = fieldDrivers register field := by
  unfold fieldItems fieldDrivers portExpr
  cases field.template with
  | hardwareDriven => rfl
  | sticky => rfl
  | pulse => rfl
  | selfClearing => rfl
  | stored readClear writeOnce => cases writeOnce <;> rfl

/-- Nothing else in a bank is assigned continuously. -/
theorem filter_items (circuit : Circuit) :
    circuit.items.filter isContinuous = drivers circuit.bus circuit.plan := by
  have multiplexer : (readMultiplexer circuit.bus circuit.readFiller circuit.plan).filter
      isContinuous = [] := rfl
  unfold Circuit.items bankItems drivers
  rw [List.filter_append, List.filter_append, List.filter_append, List.filter_append,
    filter_stateConstants, filter_localBus, filter_decoder,
    List.filter_cons_of_neg (by decide), multiplexer, List.append_nil, List.filter_flatMap]
  simp only [List.filter_flatMap, filter_fieldItems, List.append_assoc]

/-! ## Their order -/

section Order

variable {map : RegisterMap} {layout : Layout} {protocol : Bus.Protocol} {plan : Plan}
  (accepted : Accepted map layout protocol plan)

include accepted

theorem unique_names : ∀ signal ∈ plan.signals, ∀ other ∈ plan.signals,
    signal.name layout.config.registerReset = other.name layout.config.registerReset →
      signal = other :=
  fun _ listed _ otherListed same => accepted.signal_unique listed otherListed same

theorem group_parameters {α : Type} (states : List α) (name : α → String) (value : α → Nat)
    (named : ∀ state ∈ states, name state ∈ stateConstantNames)
    (distinct : (states.map name).Nodup) :
    Group plan layout.config.registerReset
      (fun signal => ∃ state ∈ states, signal = .constant (name state)) (fun _ => False)
      (states.map fun state => .parameter (name state) (value state)) := by
  have unique := unique_names accepted
  have each : ∀ state ∈ states, Group plan layout.config.registerReset
      (fun signal => signal = .constant (name state)) (fun _ => False)
      [.parameter (name state) (value state)] := fun state listed =>
    .single unique [] (Plan.constant_mem (named state listed)) rfl (List.forall_mem_nil _)
      (List.forall_mem_nil _)
  have apart : states.Pairwise fun state later => ∀ signal : Signal,
      signal = .constant (name state) ∨ False → ¬ signal = .constant (name later) := by
    unfold List.Nodup at distinct
    rw [List.pairwise_map] at distinct
    refine distinct.imp ?_
    rintro state later different signal (rfl | impossible)
    · intro same
      exact different (Signal.constant.inj same)
    · exact impossible.elim
  rw [List.map_eq_flatMap]
  refine (Group.flatMap unique each apart).mono (fun _ own => own) ?_
  rintro signal ⟨state, -, impossible⟩
  exact impossible

/-- The constants read nothing. -/
theorem group_stateConstants :
    Group plan layout.config.registerReset (fun signal => ∃ name, signal = .constant name)
      (fun _ => False) (stateConstants plan) := by
  have selfClear := group_parameters accepted SelfClearState.all SelfClearState.constant
    SelfClearState.encoding (by decide) (by decide)
  have writeOnce := group_parameters accepted WriteOnceState.all WriteOnceState.constant
    WriteOnceState.encoding (by decide) (by decide)
  have none : Group plan layout.config.registerReset
      (fun signal => ∃ name, signal = .constant name) (fun _ => False) [] :=
    Group.nil.mono (fun _ own => own.elim) (fun _ own => own)
  have apart : ∀ state ∈ SelfClearState.all, ∀ other ∈ WriteOnceState.all,
      state.constant ≠ other.constant := by decide
  unfold stateConstants
  split
  · split
    · refine (selfClear.append (unique_names accepted) writeOnce ?_).mono ?_ ?_
      · rintro signal (⟨state, listed, rfl⟩ | impossible)
        · rintro ⟨other, otherListed, same⟩
          exact apart state listed other otherListed (Signal.constant.inj same)
        · exact impossible.elim
      · rintro signal (⟨state, -, rfl⟩ | ⟨state, -, rfl⟩)
        · exact ⟨_, rfl⟩
        · exact ⟨_, rfl⟩
      · rintro signal (impossible | impossible)
        · exact impossible
        · exact impossible
    · rw [List.append_nil]
      refine selfClear.mono ?_ (fun _ own => own)
      rintro signal ⟨state, -, rfl⟩
      exact ⟨_, rfl⟩
  · split
    · rw [List.nil_append]
      refine writeOnce.mono ?_ (fun _ own => own)
      rintro signal ⟨state, -, rfl⟩
      exact ⟨_, rfl⟩
    · exact none

/-- The Local Bus is always ready, and its mask follows the strobes. -/
theorem group_busDrivers (bus : Geometry) :
    Group plan layout.config.registerReset
      (fun signal => signal = .bus "lb_wready" ∨ signal = .bus "lb_wmask")
      (fun signal => signal = .bus "lb_wstrb") (busDrivers bus) := by
  have unique := unique_names accepted
  have ready : Group plan layout.config.registerReset (fun signal => signal = .bus "lb_wready")
      (fun _ => False) [.assign "lb_wready" 9 (.binary 1 1)] :=
    .single unique [] (Plan.bus_mem (by decide)) rfl (List.forall_mem_nil _) (List.forall_mem_nil _)
  have mask : Group plan layout.config.registerReset (fun signal => signal = .bus "lb_wmask")
      (fun signal => signal = .bus "lb_wstrb") [.assign "lb_wmask" 9 (maskExpr bus)] := by
    refine .single unique [.bus "lb_wstrb"] (Plan.bus_mem (by decide)) rfl ?_ ?_
    · intro net read
      rcases exists_of_mem_partsNets read with ⟨part, member, own⟩
      obtain ⟨byte, -, rfl⟩ := List.mem_map.mp member
      exact own
    · exact List.forall_mem_singleton.mpr ⟨Plan.bus_mem (by decide), by simp, rfl⟩
  refine (ready.append unique mask ?_).mono (fun _ own => own) ?_
  · rintro signal (rfl | impossible)
    · simp
    · exact impossible.elim
  · rintro signal (impossible | own)
    · exact impossible.elim
    · exact own

/-- A select follows a request on its channel. -/
theorem group_select {target : Signal} (known : target ∈ plan.signals)
    (inside : ∀ name, Signal.bus name ≠ target) (addressWidth : Nat) (register : RegisterPlan)
    {enable address : String} (enableKnown : Signal.bus enable ∈ plan.signals)
    (addressKnown : Signal.bus address ∈ plan.signals) :
    Group plan layout.config.registerReset (fun signal => signal = target)
      (fun signal => ∃ name, signal = .bus name)
      [Bus.follow (target.name layout.config.registerReset)
        (selectExpr addressWidth enable address register)] := by
  refine .single (unique_names accepted) [.bus enable, .bus address] known rfl (fun _ read => read) ?_
  refine List.forall_mem_cons.mpr ⟨⟨enableKnown, inside enable, enable, rfl⟩, ?_⟩
  exact List.forall_mem_singleton.mpr ⟨addressKnown, inside address, address, rfl⟩

/-- Selects are driven by nets of the local bus. -/
theorem group_selectDrivers (addressWidth : Nat) {register : RegisterPlan}
    (listed : register ∈ plan.registers) :
    Group plan layout.config.registerReset
      (fun signal => signal = .writeSelect register ∨ signal = .readSelect register)
      (fun signal => ∃ name, signal = .bus name) (selectDrivers addressWidth register) := by
  have write := group_select accepted (Plan.writeSelect_mem listed) (fun _ => nofun) addressWidth
    register (Plan.bus_mem (by decide : "lb_wen" ∈ _)) (Plan.bus_mem (by decide : "lb_waddr" ∈ _))
  have read := group_select accepted (Plan.readSelect_mem listed) (fun _ => nofun) addressWidth
    register (Plan.bus_mem (by decide : "lb_ren" ∈ _)) (Plan.bus_mem (by decide : "lb_raddr" ∈ _))
  refine (write.append (unique_names accepted) read ?_).mono (fun _ own => own) ?_
  · rintro signal (rfl | ⟨name, rfl⟩)
    · nofun
    · nofun
  · rintro signal (own | own)
    · exact own
    · exact own

/-- What a field's continuous assignments read. -/
def FieldSource (register : RegisterPlan) (field : FieldPlan) (signal : Signal) : Prop :=
  signal = .writeSelect register ∨ (∃ name, signal = .bus name) ∨ signal = .value field ∨
    signal = .enable field

section Field

variable {register : RegisterPlan} (listed : register ∈ plan.registers) {field : FieldPlan}
  (declared : field ∈ register.fields)

include listed declared

/-- The write enable of a field. -/
theorem group_enable (output : field.template.direction = .output) :
    Group plan layout.config.registerReset (fun signal => signal = .enable field)
      (FieldSource register field)
      [Bus.follow field.enableNet (enableExpr register field)] := by
  refine .single (unique_names accepted) [.writeSelect register, .bus "lb_wmask"]
    (Plan.enable_mem listed declared output) rfl (fun _ read => read) ?_
  refine List.forall_mem_cons.mpr ⟨⟨Plan.writeSelect_mem listed, nofun, Or.inl rfl⟩, ?_⟩
  exact List.forall_mem_singleton.mpr
    ⟨Plan.bus_mem (by decide), nofun, Or.inr (Or.inl ⟨_, rfl⟩)⟩

/-- The port of a field without flip-flops shows what is being written. -/
theorem group_pulsePort (pulse : field.template = .pulse) :
    Group plan layout.config.registerReset (fun signal => signal = .port field)
      (FieldSource register field) [.assign field.port 0 (portExpr field)] := by
  have output : field.template.direction = .output := by
    rw [pulse]
    rfl
  have reads : (portExpr field).nets = [field.enableNet, "lb_wdata", "lb_wmask"] := by
    unfold portExpr
    rw [pulse]
    rfl
  have bus {name : String} (known : Signal.bus name ∈ plan.signals) :
      Signal.bus name ∈ plan.signals ∧ Signal.bus name ≠ .port field ∧
        FieldSource register field (.bus name) :=
    ⟨known, nofun, Or.inr (Or.inl ⟨name, rfl⟩)⟩
  refine .single (unique_names accepted) [.enable field, .bus "lb_wdata", .bus "lb_wmask"]
    (Plan.port_mem listed declared) rfl ?_ ?_
  · intro net read
    change net ∈ (portExpr field).nets at read
    rw [reads] at read
    exact read
  · refine List.forall_mem_cons.mpr
      ⟨⟨Plan.enable_mem listed declared output, nofun, Or.inr (Or.inr (Or.inr rfl))⟩, ?_⟩
    refine List.forall_mem_cons.mpr ⟨bus (Plan.bus_mem (by decide)), ?_⟩
    exact List.forall_mem_singleton.mpr (bus (Plan.bus_mem (by decide)))

/-- The port of every other output field shows its flip-flops. -/
theorem group_storedPort (pulse : field.template ≠ .pulse)
    (stored : field.template.isStored = true) :
    Group plan layout.config.registerReset (fun signal => signal = .port field)
      (FieldSource register field) [.assign field.port 0 (portExpr field)] := by
  have reads : (portExpr field).nets = [field.valueNet] := by
    unfold portExpr
    split
    · exact absurd ‹_› pulse
    · rfl
  refine .single (unique_names accepted) [.value field] (Plan.port_mem listed declared) rfl ?_ ?_
  · intro net read
    change net ∈ (portExpr field).nets at read
    rw [reads] at read
    exact read
  · exact List.forall_mem_singleton.mpr
      ⟨Plan.value_mem listed declared stored, nofun, Or.inr (Or.inr (Or.inl rfl))⟩

theorem group_port (output : field.template.direction = .output) :
    Group plan layout.config.registerReset (fun signal => signal = .port field)
      (FieldSource register field) [.assign field.port 0 (portExpr field)] := by
  by_cases pulse : field.template = .pulse
  · exact group_pulsePort accepted listed declared pulse
  · refine group_storedPort accepted listed declared pulse ?_
    cases template : field.template with
    | pulse => exact absurd template pulse
    | hardwareDriven =>
      rw [template] at output
      cases output
    | sticky => rfl
    | selfClearing => rfl
    | stored readClear writeOnce => rfl

/-- An output field has a write enable and a port, any other field neither. -/
theorem group_fieldDrivers :
    Group plan layout.config.registerReset
      (fun signal => field.template.direction = .output ∧
        (signal = .enable field ∨ signal = .port field))
      (FieldSource register field) (fieldDrivers register field) := by
  unfold fieldDrivers
  by_cases output : field.template.direction = .output
  · have enable := group_enable accepted listed declared output
    have port := group_port accepted listed declared output
    rw [if_pos output]
    refine (enable.append (unique_names accepted) port ?_).mono (fun signal own => ⟨output, own⟩)
      (fun signal either => either.elim id id)
    rintro signal (rfl | rfl | ⟨name, rfl⟩ | rfl | rfl)
    all_goals nofun
  · rw [if_neg output]
    exact Group.nil.mono (fun _ own => own.elim) (fun _ own => own.elim)

end Field

/-- Fields of a register drive their own nets only. -/
theorem group_registerDrivers {register : RegisterPlan} (listed : register ∈ plan.registers) :
    Group plan layout.config.registerReset
      (fun signal => ∃ field ∈ register.fields, field.template.direction = .output ∧
        (signal = .enable field ∨ signal = .port field))
      (fun signal => ∃ field ∈ register.fields, FieldSource register field signal)
      (register.fields.flatMap (fieldDrivers register)) := by
  refine Group.flatMap (unique_names accepted)
    (fun field declared => group_fieldDrivers accepted listed declared) ?_
  refine (accepted.fields_apart listed).imp ?_
  intro field later apart signal either own
  have different : field ≠ later := by
    intro same
    rw [same] at apart
    exact apart (.port later) List.mem_cons_self List.mem_cons_self
  rcases either with ⟨-, rfl | rfl⟩ | rfl | ⟨name, rfl⟩ | rfl | rfl <;>
    rcases own with ⟨-, own | own⟩ <;> cases own <;> exact different rfl

theorem group_allSelectDrivers (addressWidth : Nat) :
    Group plan layout.config.registerReset
      (fun signal => ∃ register ∈ plan.registers,
        signal = .writeSelect register ∨ signal = .readSelect register)
      (fun signal => ∃ register ∈ plan.registers, ∃ name, signal = .bus name)
      (plan.registers.flatMap (selectDrivers addressWidth)) := by
  refine Group.flatMap (unique_names accepted)
    (fun register listed => group_selectDrivers accepted addressWidth listed) ?_
  refine accepted.registers_apart.imp ?_
  intro register later apart signal either own
  have different : register ≠ later := by
    intro same
    rw [same] at apart
    exact apart (.writeSelect later) List.mem_cons_self List.mem_cons_self
  rcases either with (rfl | rfl) | ⟨name, rfl⟩ <;> rcases own with own | own <;> cases own <;>
    exact different rfl

theorem group_allFieldDrivers :
    Group plan layout.config.registerReset
      (fun signal => ∃ register ∈ plan.registers, ∃ field ∈ register.fields,
        field.template.direction = .output ∧ (signal = .enable field ∨ signal = .port field))
      (fun signal => ∃ register ∈ plan.registers, ∃ field ∈ register.fields,
        FieldSource register field signal)
      (plan.registers.flatMap fun register => register.fields.flatMap (fieldDrivers register)) := by
  refine Group.flatMap (unique_names accepted)
    (fun register listed => group_registerDrivers accepted listed) ?_
  refine accepted.registers_apart.imp ?_
  rintro register later apart signal either ⟨foreign, otherDeclared, -, own⟩
  -- A field of both registers would be a signal of both.
  have different : ∀ field ∈ register.fields, field ≠ foreign := by
    intro field declared same
    have port (owner : RegisterPlan) (inside : foreign ∈ owner.fields) :
        .port foreign ∈ registerSignals owner :=
      List.mem_cons_of_mem _ (List.mem_cons_of_mem _
        (List.mem_flatMap.mpr ⟨foreign, inside, List.mem_cons_self⟩))
    exact apart (.port foreign) (port register (same ▸ declared)) (port later otherDeclared)
  rcases either with ⟨field, declared, -, rfl | rfl⟩ |
      ⟨field, declared, rfl | ⟨name, rfl⟩ | rfl | rfl⟩ <;>
    rcases own with own | own <;> cases own <;> exact different _ declared rfl

end Order

/-- A signal that is assigned continuously. -/
def Signal.IsDriven : Signal → Prop
  | .constant _ | .writeSelect _ | .readSelect _ | .enable _ => True
  | .bus name => name = "lb_wready" ∨ name = "lb_wmask"
  | .port field => field.template.direction = .output
  | .reset | .value _ | .state _ => False

/-- The continuous assignments of a bank are in order. -/
theorem group_drivers {map : RegisterMap} {layout : Layout} {protocol : Bus.Protocol} {plan : Plan}
    (accepted : Accepted map layout protocol plan) (bus : Geometry) :
    Group plan layout.config.registerReset Signal.IsDriven (fun _ => True) (drivers bus plan) := by
  have unique := unique_names accepted
  have first := (group_stateConstants accepted).append unique (group_busDrivers accepted bus) (by
    rintro signal (⟨name, rfl⟩ | impossible)
    · simp
    · exact impossible.elim)
  have second := first.append unique (group_allSelectDrivers accepted bus.addressWidth) (by
    rintro signal ((⟨name, rfl⟩ | rfl | rfl) | (impossible | rfl))
    · simp
    · simp
    · simp
    · exact impossible.elim
    · simp)
  have third := second.append unique (group_allFieldDrivers accepted) (by
    rintro signal (((⟨name, rfl⟩ | rfl | rfl) | ⟨register, -, rfl | rfl⟩) |
      ((impossible | rfl) | ⟨register, -, name, rfl⟩))
    all_goals first
      | exact impossible.elim
      | simp)
  refine third.mono ?_ (fun _ _ => trivial)
  rintro signal (((⟨name, rfl⟩ | rfl | rfl) | ⟨register, -, rfl | rfl⟩) |
    ⟨register, -, field, -, output, rfl | rfl⟩)
  · trivial
  · exact Or.inl rfl
  · exact Or.inr rfl
  · trivial
  · trivial
  · trivial
  · exact output

/-- Only continuous items take part in settling. -/
theorem settle_filter (widths : Nets) (items : List Item) (values : Nets) :
    settle widths items values = settle widths (items.filter isContinuous) values := by
  induction items generalizing values with
  | nil => rfl
  | cons item rest ih =>
    cases continuous : isContinuous item with
    | true =>
      rw [List.filter_cons_of_pos continuous]
      exact ih (item.settle widths values)
    | false =>
      have silent : item.settle widths values = values := by
        rw [isContinuous, item.target?_eq widths values, Option.isSome_map] at continuous
        rw [item.settle_eq]
        cases assigned : item.settled? widths values with
        | none => rfl
        | some entry =>
          rw [assigned] at continuous
          cases continuous
      rw [List.filter_cons_of_neg (by rw [continuous]; decide)]
      show settle widths rest (item.settle widths values) = _
      rw [silent]
      exact ih values

end RegisterBank.Bank
