import RegisterBank.Proofs.Bank.ReadMultiplexer

/-!
# Circuit and machine in lockstep

The circuit of a bank and the machine of its plan are the same: whatever
requests, driven inputs and resets they are given, they answer alike in every
cycle (`Circuit.run_eq`).  The relation between them is `Machine.HeldBy`, the
machine's state in the nets of the flip-flops and of the input ports.  It
holds after construction, a clock edge, a reset and a driven input keep it,
and it decides what is seen during a cycle.
-/

namespace RegisterBank.Bank

open RegisterBank.Verilog
open RegisterBank.Bus (Geometry)

section Lockstep

variable {map : RegisterMap} {layout : Layout} {protocol : Bus.Protocol} {plan : Plan}
  (accepted : Accepted map layout protocol plan) {values nets : Nets} {isReset : Bool}
  {request : Request} {machine : Machine}

/-! ## Held by settled nets -/

/-- Nets that agree on all signals that hold something hold the same machine. -/
theorem Machine.HeldBy.congr (held : machine.HeldBy layout plan values) {others : Nets}
    (agree : ∀ signal ∈ plan.signals, signal.IsHeld →
      others.get (signal.name layout.config.registerReset) =
        values.get (signal.name layout.config.registerReset)) :
    machine.HeldBy layout plan others where
  dataWidth := held.dataWidth
  readFiller := held.readFiller
  registers := by
    refine forall₂_imp_of_mem ?_ held.registers
    intro register planned found kept
    refine ⟨kept.name, kept.address, forall₂_imp_of_mem ?_ kept.cells⟩
    intro field declared cell holds
    refine holds.congr ?_ ?_ ?_
    · intro stored
      exact agree (.value field) (Plan.value_mem planned declared stored) trivial
    · intro state
      exact agree (.state field) (Plan.state_mem planned declared state) trivial
    · intro direction
      exact agree (.port field) (Plan.port_mem planned declared) direction
  readData :=
    (agree (.bus "lb_rdata") (Plan.bus_mem (by decide)) (Or.inl rfl)).trans held.readData
  readValid :=
    (agree (.bus "lb_rvalid") (Plan.bus_mem (by decide)) (Or.inr rfl)).trans held.readValid

section Views

variable {register : RegisterPlan} {field : FieldPlan} {cell : Cell}

/-- The bits of a field in the bus word lie below the data width. -/
theorem extract_congr (sound : field.Sound layout.dataWidth) {word other : Nat}
    (agree : ∀ i < layout.dataWidth, word.testBit i = other.testBit i) :
    Bits.extract word field.field.bits.lsb field.field.bits.width =
      Bits.extract other field.field.bits.lsb field.field.bits.width := by
  have above := sound.lsb_add_width_le
  apply Nat.eq_of_testBit_eq
  intro i
  rw [Bits.testBit_extract, Bits.testBit_extract]
  by_cases inside : i < min field.field.bits.width Bits.wordWidth
  · rw [agree (field.field.bits.lsb + i) (by omega)]
  · rw [decide_eq_false inside, Bool.and_false, Bool.and_false]

/-- What the Local Bus carries for a write to a register. -/
theorem Shows.written (shows : Shows layout plan values isReset request nets)
    (sound : field.Sound layout.dataWidth) (stands : cell.Implements field) {address : Nat}
    {given : BusWrite} (going : request.writeAt? address = some given) :
    Bits.extract (nets.get "lb_wdata") field.field.bits.lsb field.field.bits.width =
        cell.extract given.data ∧
      Bits.extract (nets.get "lb_wmask") field.field.bits.lsb field.field.bits.width =
        cell.extract given.mask := by
  obtain ⟨-, data, mask⟩ := shows.carries.write given (Option.filter_eq_some_iff.mp going).1
  unfold Cell.extract
  rw [stands.bits, data, ← mask]
  exact ⟨rfl, extract_congr sound shows.mask⟩

include accepted

/-- In settled nets a field's block sees the cell that the nets hold. -/
theorem Shows.sees (shows : Shows layout plan values isReset request nets)
    (planned : register ∈ plan.registers) (declared : field ∈ register.fields)
    (held : cell.HeldBy nets field) :
    Sees layout.config.registerReset register field cell
      (request.writeAt? register.placed.address)
      (request.readAddress? == some register.placed.address) isReset
      (Circuit.of layout plan values).widths nets where
  held := held
  narrow := by
    have above := ((accepted.sound register planned).fields field declared).lsb_add_width_le
    have narrow := accepted.dataWidth_le
    omega
  valueWidth := fun stored =>
    width_field accepted planned declared (.value field) (by simp [fieldSignals, stored])
  stateWidth := fun state =>
    width_field accepted planned declared (.state field) (by simp [fieldSignals, state])
  reset := resetCondition_value shows.reset
  readSelect := shows.readSelect register planned
  enable := by
    intro output
    have sound := (accepted.sound register planned).fields field declared
    rw [shows.enable register planned field declared output]
    cases going : request.writeAt? register.placed.address with
    | none => rfl
    | some given =>
      rw [(shows.written sound held.implements going).2]
      rfl
  data := fun given going =>
    (shows.written ((accepted.sound register planned).fields field declared) held.implements
      going).1
  mask := fun given going =>
    (shows.written ((accepted.sound register planned).fields field declared) held.implements
      going).2
  selfClear := by
    intro template
    refine shows.selfClear ?_
    refine List.any_eq_true.mpr ⟨field, ?_, by rw [template]; rfl⟩
    exact List.mem_flatMap.mpr ⟨register, planned, declared⟩
  writeOnce := by
    intro once
    refine shows.writeOnce ?_
    refine List.any_eq_true.mpr ⟨field, ?_, once⟩
    exact List.mem_flatMap.mpr ⟨register, planned, declared⟩

/-! ## Clock edges -/

/-- After an edge the nets of a field hold the cell after the edge. -/
theorem cell_edge (shows : Shows layout plan values isReset request nets)
    (planned : register ∈ plan.registers) (declared : field ∈ register.fields)
    (held : cell.HeldBy nets field) :
    (if isReset then cell.reset
      else cell.step (request.writeAt? register.placed.address)
        (request.readAddress? == some register.placed.address)).HeldBy
      (edge (Circuit.of layout plan values).widths (Circuit.of layout plan values).items nets)
      field := by
  refine (shows.sees accepted planned declared held).heldBy_edge ?_ ?_ ?_
  · intro stored
    have written := itemsWrite?_items_field accepted values (Circuit.of layout plan values).widths
      nets planned declared (Plan.value_mem planned declared stored) (Or.inl rfl)
    rw [get_edge]
    exact congrArg (fun write => Option.getD write _) written
  · intro state
    have written := itemsWrite?_items_field accepted values (Circuit.of layout plan values).widths
      nets planned declared (Plan.state_mem planned declared state) (Or.inr rfl)
    rw [get_edge]
    exact congrArg (fun write => Option.getD write _) written
  · intro _
    have known : .port field ∈ plan.signals := Plan.port_mem planned declared
    have notBus : ∀ name ∈ localBusNets, field.port ≠ name := by
      intro name listed same
      cases accepted.signal_unique known (Plan.bus_mem listed) same
    have written := itemsWrite?_items_multiplexer accepted values
      (Circuit.of layout plan values).widths nets known (by
        rintro other (same | same)
        · cases same
        · cases same)
    have none := written.trans
      (readBlock_write?_eq_none (notBus _ (by decide)) (notBus _ (by decide)))
    rw [get_edge]
    exact congrArg (fun write => Option.getD write (nets.get field.port)) none

end Views

/-! ## Traces -/

section Observe

variable {register : RegisterPlan} {field : FieldPlan} {cell : Cell}

/-- The port of an output field shows the output of its cell. -/
theorem Sees.output {write : Option BusWrite} {isRead : Bool} {widths : Nets}
    {style : ResetStyle} (sees : Sees style register field cell write isRead isReset widths nets)
    (output : field.template.direction = .output)
    (port : nets.get field.port =
      (portExpr field).value widths nets &&& Bits.ones field.field.bits.width) :
    nets.get field.port = cell.output write := by
  have same := sees.held.implements.template
  have valueCase (stored : field.template.isStored = true)
      (shown : portExpr field = .net field.valueNet) :
      nets.get field.port = cell.value := by
    have bound := sees.held.implements.value_lt
    rw [sees.held.implements.bits] at bound
    rw [port, shown, Expr.value, sees.held.value stored]
    exact Bits.and_ones_of_lt bound sees.narrow
  unfold Cell.output
  rw [same]
  cases template : field.template with
  | hardwareDriven => rw [template] at output; cases output
  | sticky => rw [template] at output; cases output
  | stored readClear writeOnce =>
    exact valueCase (by rw [template]; rfl) (by unfold portExpr; rw [template])
  | selfClearing =>
    exact valueCase (by rw [template]; rfl) (by unfold portExpr; rw [template])
  | pulse =>
    have shown : portExpr field =
        .choose (.net field.enableNet) (.paren (writtenBits field)) (zeroOf field) := by
      unfold portExpr
      rw [template]
    have value : (portExpr field).value widths nets =
        if cell.isStrobed write then (writtenBits field).value widths nets else 0 := by
      rw [shown]
      simp only [Expr.value, zeroOf]
      rw [sees.enable output, truth_ne_zero]
    rw [port, value]
    cases write with
    | none => exact Nat.zero_and _
    | some given =>
      have written := sees.writtenBits_value rfl
      have bound := Cell.Implements.writtenBits_lt cell (some given)
      rw [sees.held.implements.bits] at bound
      cases strobed : cell.isStrobed (some given) with
      | true =>
        rw [if_pos rfl, written, Bits.and_ones_of_lt bound sees.narrow]
        rfl
      | false =>
        -- Nothing of the field is strobed, so nothing is written either.
        have clear : cell.extract given.mask = 0 := by simpa [Cell.isStrobed] using strobed
        rw [if_neg Bool.false_ne_true, Nat.zero_and]
        show 0 = cell.extract given.data &&& cell.extract given.mask
        rw [clear, Nat.and_zero]

end Observe

include accepted

/-- A clock edge, with or without reset, keeps circuit and machine together. -/
theorem Machine.HeldBy.edge (held : machine.HeldBy layout plan values) (isReset : Bool)
    (request : Request) :
    (if isReset then machine.reset else machine.step request).HeldBy layout plan
      (edge (Circuit.of layout plan values).widths (Circuit.of layout plan values).items
        ((Circuit.of layout plan values).settled isReset request)) := by
  have shows := shows_settled accepted values isReset request
  have settled := held.congr shows.held
  -- The answer of the bus is written by the block of the read multiplexer alone.
  have bus : ∀ name ∈ localBusNets,
      (Verilog.edge (Circuit.of layout plan values).widths (Circuit.of layout plan values).items
        ((Circuit.of layout plan values).settled isReset request)).get name =
      ((readBlock layout.geometry layout.config.readFiller plan).write?
        (Circuit.of layout plan values).widths
        ((Circuit.of layout plan values).settled isReset request) name).getD
          (((Circuit.of layout plan values).settled isReset request).get name) := by
    intro name listed
    have written := itemsWrite?_items_multiplexer accepted values
      (Circuit.of layout plan values).widths
      ((Circuit.of layout plan values).settled isReset request) (Plan.bus_mem listed) (by
        rintro other (same | same)
        · cases same
        · cases same)
    rw [get_edge]
    exact congrArg (fun write => Option.getD write _) written
  constructor
  · cases isReset with
    | true => exact held.dataWidth
    | false => exact held.dataWidth
  · cases isReset with
    | true => exact held.readFiller
    | false => exact held.readFiller
  · cases isReset with
    | true =>
      refine forall₂_map_right ?_ settled.registers
      intro register planned found kept
      refine ⟨kept.name, kept.address, forall₂_map_right ?_ kept.cells⟩
      intro field declared cell holds
      exact cell_edge accepted shows planned declared holds
    | false =>
      refine forall₂_map_right ?_ settled.registers
      intro register planned found kept
      refine ⟨kept.name, kept.address, forall₂_map_right ?_ kept.cells⟩
      intro field declared cell holds
      show (cell.step (request.writeAt? found.address)
        (request.readAddress? == some found.address)).HeldBy _ field
      rw [kept.address]
      exact cell_edge accepted shows planned declared holds
  · rw [bus "lb_rdata" (by decide), readBlock_data accepted shows settled]
    cases isReset with
    | true => rfl
    | false => rfl
  · rw [bus "lb_rvalid" (by decide), readBlock_valid accepted shows]
    cases isReset with
    | true => rfl
    | false => rfl

/-! ## What is seen -/

theorem outputs_eq (held : machine.HeldBy layout plan values) (request : Request) :
    Circuit.outputs plan ((Circuit.of layout plan values).settled false request) =
      machine.registers.flatMap fun register => register.outputs request := by
  have shows := shows_settled accepted values false request
  have settled := held.congr shows.held
  unfold Circuit.outputs
  refine flatMap_eq_of_forall₂ ?_ settled.registers
  intro register planned found kept
  unfold RegisterCell.outputs
  refine filter_map_eq_of_forall₂ ?_ ?_ kept.cells
  · intro field _ cell holds
    rw [holds.implements.template]
  · intro field declared cell holds output
    have sees := shows.sees accepted planned declared holds
    have shown := sees.output (beq_iff_eq.mp output)
      (shows.port register planned field declared (beq_iff_eq.mp output))
    rw [shown, kept.name, holds.implements.name]
    show _ = ((_, _), cell.output (request.writeAt? found.address))
    rw [kept.address]

/-- Circuit and machine show the same in every cycle. -/
theorem Machine.HeldBy.observe (held : machine.HeldBy layout plan values) (request : Request) :
    (Circuit.of layout plan values).observe request = machine.observe request := by
  have shows := shows_settled accepted values false request
  have settled := held.congr shows.held
  have outputs := outputs_eq accepted held request
  unfold Circuit.observe Machine.observe
  dsimp only
  rw [settled.readData, settled.readValid, truth_ne_zero, ← outputs]
  rfl

/-! ## Driven inputs -/

section Drive

variable {register : RegisterPlan} {field : FieldPlan}

/-- Driving a port changes nothing that another signal holds. -/
theorem get_set_port (values : Nets) (planned : register ∈ plan.registers)
    (declared : field ∈ register.fields)
    (driven : Nat) {signal : Signal} (known : signal ∈ plan.signals)
    (other : signal ≠ .port field) :
    (values.set field.port driven).get (signal.name layout.config.registerReset) =
      values.get (signal.name layout.config.registerReset) := by
  refine Nets.get_set_of_ne _ _ ?_
  intro same
  exact other (accepted.signal_unique known (Plan.port_mem planned declared) same.symm)

theorem Cell.HeldBy.drive (planned : register ∈ plan.registers)
    (declared : field ∈ register.fields) {cell : Cell} (held : cell.HeldBy values field)
    (value : Nat) :
    (cell.drive value).HeldBy
      (values.set field.port (value &&& Bits.ones field.field.bits.width)) field where
  implements := held.implements.drive value
  value := by
    intro stored
    have kept := get_set_port accepted values planned declared
      (value &&& Bits.ones field.field.bits.width)
      (Plan.value_mem planned declared stored) (by simp)
    exact kept.trans (held.value stored)
  selfClear := by
    intro template
    have kept := get_set_port accepted values planned declared
      (value &&& Bits.ones field.field.bits.width)
      (Plan.state_mem planned declared (by rw [template]; rfl)) (by simp)
    exact kept.trans (held.selfClear template)
  writeOnce := by
    intro once
    have kept := get_set_port accepted values planned declared
      (value &&& Bits.ones field.field.bits.width)
      (Plan.state_mem planned declared (by unfold Template.hasState; rw [once, Bool.or_true]))
      (by simp)
    exact kept.trans (held.writeOnce once)
  input := by
    intro _
    rw [Nets.get_set_self]
    show value &&& Bits.ones field.field.bits.width = value &&& Bits.ones cell.bits.width
    rw [held.implements.bits]

/-- A cell of another field does not notice a driven port. -/
theorem Cell.HeldBy.ignore (planned : register ∈ plan.registers)
    (declared : field ∈ register.fields) (driven : Nat) {owner : RegisterPlan}
    (ownerPlanned : owner ∈ plan.registers) {other : FieldPlan}
    (otherDeclared : other ∈ owner.fields) (different : other ≠ field) {cell : Cell}
    (held : cell.HeldBy values other) :
    cell.HeldBy (values.set field.port driven) other := by
  refine held.congr ?_ ?_ ?_
  · intro stored
    exact get_set_port accepted values planned declared driven
      (Plan.value_mem ownerPlanned otherDeclared stored) (by simp)
  · intro state
    exact get_set_port accepted values planned declared driven
      (Plan.state_mem ownerPlanned otherDeclared state) (by simp)
  · intro _
    refine get_set_port accepted values planned declared driven
      (Plan.port_mem ownerPlanned otherDeclared) ?_
    intro same
    exact different (Signal.port.inj same)

/-- The machine with a field's input driven is held by the nets with its port
driven. -/
theorem Machine.HeldBy.drive (held : machine.HeldBy layout plan values)
    (planned : register ∈ plan.registers) (declared : field ∈ register.fields) (value : Nat) :
    { machine with
      registers := Machine.changeFirst (fun other => other.name == register.name)
        (fun found =>
          { found with
            cells := Machine.changeFirst (fun cell => cell.name == field.field.name)
              (fun cell => cell.drive value) found.cells })
        machine.registers }.HeldBy layout plan
      (values.set field.port (value &&& Bits.ones field.field.bits.width)) where
  dataWidth := held.dataWidth
  readFiller := held.readFiller
  registers := by
    refine forall₂_changeFirst_key (fun _ _ kept => kept.name) accepted.names_nodup ?_ ?_
      held.registers
    · intro owner ownerPlanned found kept same
      have own := List.inj_on_of_nodup_map accepted.names_nodup ownerPlanned planned same
      subst own
      have names := (accepted.sound owner ownerPlanned).names_nodup
      refine ⟨kept.name, kept.address, ?_⟩
      refine forall₂_changeFirst_key (fun _ _ holds => holds.implements.name) names ?_ ?_
        kept.cells
      · intro other otherDeclared cell holds equal
        have itself := List.inj_on_of_nodup_map names otherDeclared declared equal
        subst itself
        exact holds.drive accepted planned declared value
      · intro other otherDeclared cell holds apart
        refine holds.ignore accepted planned declared _ ownerPlanned otherDeclared ?_
        intro itself
        rw [itself] at apart
        exact apart rfl
    · intro owner ownerPlanned found kept apart
      refine ⟨kept.name, kept.address, forall₂_imp_of_mem ?_ kept.cells⟩
      intro other otherDeclared cell holds
      refine holds.ignore accepted planned declared _ ownerPlanned otherDeclared ?_
      intro itself
      rw [itself] at otherDeclared
      rw [owner_unique accepted planned ownerPlanned declared otherDeclared] at apart
      exact apart rfl
  readData :=
    (get_set_port accepted values planned declared _ (Plan.bus_mem (by decide)) (by simp)).trans
      held.readData
  readValid :=
    (get_set_port accepted values planned declared _ (Plan.bus_mem (by decide)) (by simp)).trans
      held.readValid

end Drive

/-- Circuit and machine find the same fields. -/
theorem Machine.HeldBy.find (held : machine.HeldBy layout plan values) (register field : String) :
    ((Circuit.of layout plan values).field? register field = none ∧
      machine.cell? register field = none) ∨
    ∃ owner ∈ plan.registers, ∃ found ∈ owner.fields, ∃ cell : Cell,
      owner.name = register ∧ found.field.name = field ∧
      (Circuit.of layout plan values).field? register field = some found ∧
      machine.cell? register field = some cell ∧ cell.HeldBy values found := by
  unfold Circuit.field? Machine.cell?
  -- Both searches go by name, through lists that agree entry by entry.
  by_cases named : ∃ owner ∈ plan.registers, owner.name = register
  · obtain ⟨owner, planned, rfl⟩ := named
    obtain ⟨cells, byName, kept⟩ :=
      find?_of_forall₂ (fun _ _ kept => kept.name) held.registers accepted.names_nodup planned
    have owned : (Circuit.of layout plan values).plan.registers.find?
        (fun other => other.name == owner.name) = some owner :=
      find?_of_nodup accepted.names_nodup planned
    have names := (accepted.sound owner planned).names_nodup
    rw [byName, owned]
    by_cases declared : ∃ found ∈ owner.fields, found.field.name = field
    · obtain ⟨found, declared, rfl⟩ := declared
      obtain ⟨cell, here, holds⟩ :=
        find?_of_forall₂ (fun _ _ holds => holds.implements.name) kept.cells names declared
      exact Or.inr ⟨owner, planned, found, declared, cell, rfl, rfl,
        find?_of_nodup names declared, here, holds⟩
    · have missing : ∀ found ∈ owner.fields, found.field.name ≠ field :=
        fun found inside same => declared ⟨found, inside, same⟩
      refine Or.inl ⟨?_, ?_⟩
      · exact List.find?_eq_none.mpr fun found inside same =>
          missing found inside (beq_iff_eq.mp same)
      · exact find?_eq_none_of_forall₂ (fun _ _ holds => holds.implements.name) kept.cells missing
  · have missing : ∀ owner ∈ plan.registers, owner.name ≠ register :=
      fun owner planned same => named ⟨owner, planned, same⟩
    have none : (Circuit.of layout plan values).plan.registers.find?
        (fun other => other.name == register) = none :=
      List.find?_eq_none.mpr fun owner planned same => missing owner planned (beq_iff_eq.mp same)
    rw [none, find?_eq_none_of_forall₂ (fun _ _ kept => kept.name) held.registers missing]
    exact Or.inl ⟨rfl, rfl⟩

/-- Circuit and machine take and refuse the same inputs. -/
theorem Machine.HeldBy.setInput (held : machine.HeldBy layout plan values)
    (register field : String) (value : Nat) :
    ((Circuit.of layout plan values).setInput? register field value = none ∧
      machine.setInput? register field value = none) ∨
    ∃ driven next, (Circuit.of layout plan values).setInput? register field value =
        some (Circuit.of layout plan driven) ∧
      machine.setInput? register field value = some next ∧ next.HeldBy layout plan driven := by
  unfold Circuit.setInput? Machine.setInput?
  rcases held.find accepted register field with
    ⟨none, missing⟩ | ⟨owner, planned, found, declared, cell, rfl, rfl, here, there, holds⟩
  · rw [none, missing]
    exact Or.inl ⟨rfl, rfl⟩
  · rw [here, there]
    dsimp only
    have input : (some cell).any Cell.hasInput = (found.template.direction == .input) := by
      rw [← holds.implements.template]
      rfl
    rw [input]
    by_cases direction : found.template.direction = .input
    · rw [if_pos direction, if_pos (beq_iff_eq.mpr direction)]
      exact Or.inr ⟨_, _, rfl, rfl, held.drive accepted planned declared value⟩
    · rw [if_neg direction, if_neg fun same => direction (beq_iff_eq.mp same)]
      exact Or.inl ⟨rfl, rfl⟩

end Lockstep

end RegisterBank.Bank
