import RegisterBank.Proofs.Bank.Blocks
import RegisterBank.Proofs.Bank.ReadWord

/-!
# The read multiplexer at a clock edge

The arms of the read multiplexer are tried one after the other, so the first
register with the address that is read gives the word
(`readArms_write?`).  Its segments side by side are the word of the machine, by
`concatenate_readSegments`, as long as every field is read where its cell's
value is held.
-/

namespace RegisterBank.Bank

open RegisterBank.Verilog
open RegisterBank.Bus (Geometry)

/-! ## Segments as expressions -/

section Segments

variable {widths nets : Nets} {readFiller : Nat} {fieldValue : FieldPlan → Nat}
  {segments : List Segment}

theorem partsWidth_segments
    (width : ∀ field, .field field ∈ segments →
      widths.get field.readSource = field.field.bits.width) :
    partsWidth widths (segments.map (segmentExpr readFiller)) =
      (segments.map fun segment => segment.bits.width).sum := by
  induction segments with
  | nil => rfl
  | cons segment rest ih =>
    have tail := ih fun field listed => width field (List.mem_cons_of_mem _ listed)
    rw [List.map_cons, List.map_cons, partsWidth, tail, List.sum_cons]
    cases segment with
    | filler lsb size => rfl
    | field field =>
      have head := width field List.mem_cons_self
      unfold segmentExpr Expr.width
      rw [head]
      rfl

/-- Segments put side by side as expressions are put side by side as values. -/
theorem partsValue_segments
    (width : ∀ field, .field field ∈ segments →
      widths.get field.readSource = field.field.bits.width)
    (value : ∀ field, .field field ∈ segments → nets.get field.readSource = fieldValue field) :
    partsValue widths nets (segments.map (segmentExpr readFiller)) =
      concatenate (Segment.value fieldValue readFiller) segments := by
  induction segments with
  | nil => rfl
  | cons segment rest ih =>
    have restWidth := fun field listed => width field (List.mem_cons_of_mem segment listed)
    have tail := ih restWidth fun field listed => value field (List.mem_cons_of_mem _ listed)
    rw [List.map_cons, partsValue, partsWidth_segments restWidth, tail]
    cases segment with
    | filler lsb size => rfl
    | field field =>
      have head := value field List.mem_cons_self
      unfold segmentExpr Expr.value
      rw [head]
      rfl

end Segments

/-! ## The arms -/

theorem readArms_write? {widths nets : Nets} {readFiller : Nat} (bus : Geometry) (address : Nat)
    (word : Nat → Nat) (registers : List RegisterPlan)
    (width : widths.get "lb_rdata" = bus.dataWidth) (narrow : bus.dataWidth ≤ Bits.wordWidth)
    (small : ∀ address, word address < 2 ^ bus.dataWidth)
    (listed : ∀ register ∈ registers, (readWordExpr bus.dataWidth readFiller register).value
      widths nets = word register.placed.address)
    (missing : (∀ register ∈ registers, register.placed.address ≠ address) →
      word address = readFiller) :
    (readArms bus readFiller registers).write? widths nets "lb_rdata" address =
      some (word address) := by
  -- On the registers; an address that none of the rest has is that of this one or of none.
  induction registers with
  | nil =>
    have filler := missing fun register impossible => nomatch impossible
    show some (readFiller &&& Bits.ones (widths.get "lb_rdata")) = _
    rw [width, ← filler, Bits.and_ones_of_lt (small address) narrow]
  | cons register rest ih =>
    show (if register.placed.address = address then
      some ((readWordExpr bus.dataWidth readFiller register).value widths nets &&&
        Bits.ones (widths.get "lb_rdata")) else _) = _
    by_cases here : register.placed.address = address
    · rw [if_pos here, listed register List.mem_cons_self, width,
        Bits.and_ones_of_lt (small _) narrow, here]
    · rw [if_neg here]
      refine ih (fun other member => listed other (List.mem_cons_of_mem _ member)) ?_
      intro others
      refine missing ?_
      intro other member
      rcases List.mem_cons.mp member with rfl | behind
      · exact here
      · exact others other behind

/-! ## The block -/

section Block

variable {map : RegisterMap} {layout : Layout} {protocol : Bus.Protocol} {plan : Plan}
  (accepted : Accepted map layout protocol plan) {values nets : Nets} {isReset : Bool}
  {request : Request} {machine : Machine}

include accepted

theorem width_bus {name : String} (known : name ∈ localBusNets) :
    (Circuit.of layout plan values).widths.get name =
      (localBusWidths layout.geometry).get name :=
  get_widths (Circuit.of layout plan values) accepted rfl (.bus name) (Plan.bus_mem known)
    (bus_mem_widths known)

/-- The width of a net of a field is that of its signal. -/
theorem width_field {register : RegisterPlan} (planned : register ∈ plan.registers)
    {field : FieldPlan} (declared : field ∈ register.fields) (signal : Signal)
    (own : signal ∈ fieldSignals field) :
    (Circuit.of layout plan values).widths.get (signal.name layout.config.registerReset) =
      signal.width layout.geometry :=
  get_widths (Circuit.of layout plan values) accepted rfl signal
    (Plan.field_mem planned declared own) (field_mem_widths planned declared own)

/-- A field that can be read back is read where it is held. -/
theorem readSource_mem {register : RegisterPlan} (planned : register ∈ plan.registers)
    {field : FieldPlan} (declared : field ∈ register.fields)
    (readable : readsBack field.field = true) :
    (field.template = .hardwareDriven ∧ field.readSource = field.port) ∨
      (field.template ≠ .hardwareDriven ∧ field.template.isStored = true ∧
        field.readSource = field.valueNet) := by
  have ofField := ((accepted.sound register planned).fields field declared).template_eq
  unfold readsBack at readable
  rw [← ofField, Bool.and_eq_true] at readable
  unfold FieldPlan.readSource
  cases template : field.template with
  | hardwareDriven => exact Or.inl ⟨rfl, rfl⟩
  | sticky => exact Or.inr ⟨by simp, rfl, rfl⟩
  | stored readClear writeOnce => exact Or.inr ⟨by simp, rfl, rfl⟩
  | selfClearing => exact Or.inr ⟨by simp, rfl, rfl⟩
  | pulse =>
    rw [template] at readable
    exact absurd readable.2 (by decide)

theorem width_readSource {register : RegisterPlan} (planned : register ∈ plan.registers)
    {field : FieldPlan} (declared : field ∈ register.fields)
    (readable : readsBack field.field = true) :
    (Circuit.of layout plan values).widths.get field.readSource = field.field.bits.width := by
  rcases readSource_mem accepted planned declared readable with
    ⟨-, source⟩ | ⟨-, stored, source⟩
  · rw [source]
    exact width_field accepted planned declared (.port field) List.mem_cons_self
  · rw [source]
    refine width_field accepted planned declared (.value field) ?_
    simp [fieldSignals, stored]

theorem get_readSource (held : machine.HeldBy layout plan nets) {register : RegisterPlan}
    (planned : register ∈ plan.registers) {field : FieldPlan} (declared : field ∈ register.fields)
    (readable : readsBack field.field = true) :
    nets.get field.readSource = machine.fieldValue register field := by
  obtain ⟨found, byName, kept⟩ :=
    find?_of_forall₂ (fun _ _ kept => kept.name) held.registers accepted.names_nodup planned
  obtain ⟨cell, here, holds⟩ :=
    find?_of_forall₂ (fun _ _ kept => kept.implements.name) kept.cells
      (accepted.sound register planned).names_nodup declared
  have value : machine.fieldValue register field = cell.readValue := by
    unfold Machine.fieldValue
    rw [Machine.cell?_eq byName, here]
    rfl
  rw [value]
  unfold Cell.readValue
  rw [holds.implements.template]
  rcases readSource_mem accepted planned declared readable with
    ⟨driven, source⟩ | ⟨other, stored, source⟩
  · rw [source, driven]
    exact holds.input (by rw [driven]; rfl)
  · rw [source, holds.value stored]
    split
    · exact absurd ‹_› other
    · rfl

/-- The word that the hardware puts together for a register is the machine's. -/
theorem readWordExpr_value (held : machine.HeldBy layout plan nets) {register : RegisterPlan}
    (planned : register ∈ plan.registers) :
    (readWordExpr layout.dataWidth layout.config.readFiller register).value
        (Circuit.of layout plan values).widths nets =
      machine.readWord register.placed.address := by
  have readable : ∀ field, .field field ∈ register.readSegments layout.dataWidth →
      field ∈ register.fields ∧ readsBack field.field = true := fun field listed =>
    RegisterPlan.mem_readableFields_iff.mp (RegisterPlan.mem_of_mem_segmentsBelow listed)
  rw [← concatenate_readSegments accepted held.implements planned]
  unfold readWordExpr Expr.value
  refine partsValue_segments ?_ ?_
  · intro field listed
    exact width_readSource accepted planned (readable field listed).1 (readable field listed).2
  · intro field listed
    exact get_readSource accepted held planned (readable field listed).1 (readable field listed).2

theorem readWord_lt (held : machine.HeldBy layout plan nets) (address : Nat) :
    machine.readWord address < 2 ^ layout.dataWidth := by
  by_cases placed : ∃ register ∈ plan.registers, register.placed.address = address
  · obtain ⟨register, planned, rfl⟩ := placed
    exact machine_readWord_lt accepted held.implements planned
  · have missing : ∀ register ∈ plan.registers, register.placed.address ≠ address :=
      fun register planned same => placed ⟨register, planned, same⟩
    rw [held.implements.readWord_of_missing missing]
    exact accepted.readFiller_lt

/-- What the read multiplexer leaves in the read data. -/
theorem readBlock_data (shows : Shows layout plan values isReset request nets)
    (held : machine.HeldBy layout plan nets) :
    ((readBlock layout.geometry layout.config.readFiller plan).write?
        (Circuit.of layout plan values).widths nets "lb_rdata").getD (nets.get "lb_rdata") =
      if isReset then machine.readFiller
      else match request.readAddress? with
        | some address => machine.readWord address
        | none => machine.readData := by
  have width : (Circuit.of layout plan values).widths.get "lb_rdata" = layout.dataWidth :=
    width_bus accepted (by decide)
  show (if ((Bus.resetCondition layout.config.registerReset).value _ nets != 0) = true then
      some (layout.config.readFiller &&&
        Bits.ones ((Circuit.of layout plan values).widths.get "lb_rdata"))
    else ((if (nets.get "lb_ren" != 0) = true then
      (readArms layout.geometry layout.config.readFiller plan.registers).write?
        (Circuit.of layout plan values).widths nets "lb_rdata" (nets.get "lb_raddr")
      else none).or none)).getD _ = _
  rw [resetCondition_value shows.reset, shows.carries.readEnable, truth_ne_zero, Option.or_none]
  cases isReset with
  | true =>
    rw [if_pos rfl, if_pos rfl, width, held.readFiller]
    exact Bits.and_ones_of_lt accepted.readFiller_lt accepted.dataWidth_le
  | false =>
    rw [if_neg Bool.false_ne_true, if_neg Bool.false_ne_true]
    cases read : request.readAddress? with
    | none => exact held.readData
    | some address =>
      rw [shows.carries.read address read]
      have arms := readArms_write? layout.geometry address machine.readWord plan.registers width
        accepted.dataWidth_le
        (readWord_lt accepted held)
        (fun register planned => readWordExpr_value accepted held planned)
        held.implements.readWord_of_missing
      rw [Option.isSome_some, if_pos rfl, arms]
      rfl

theorem readBlock_valid (shows : Shows layout plan values isReset request nets) :
    ((readBlock layout.geometry layout.config.readFiller plan).write?
        (Circuit.of layout plan values).widths nets "lb_rvalid").getD (nets.get "lb_rvalid") =
      truth (if isReset then false else request.readAddress?.isSome) := by
  have width : (Circuit.of layout plan values).widths.get "lb_rvalid" = 1 :=
    width_bus accepted (by decide)
  have arms : (Stmt.branch (.net "lb_ren")
      (.select (.net "lb_raddr")
        (readArms layout.geometry layout.config.readFiller plan.registers)) .skip).write?
      (Circuit.of layout plan values).widths nets "lb_rvalid" = none := by
    refine Stmt.write?_eq_none _ ?_
    intro listed
    rcases List.mem_append.mp listed with listed | listed
    · exact absurd (readArms_targets _ _ _ _ listed) (by decide)
    · cases listed
  unfold readBlock
  show (if ((Bus.resetCondition layout.config.registerReset).value _ nets != 0) = true then
      some (0 &&& Bits.ones ((Circuit.of layout plan values).widths.get "lb_rvalid"))
    else ((Stmt.branch _ _ _).write? (Circuit.of layout plan values).widths nets "lb_rvalid").or
      (some (nets.get "lb_ren" &&&
        Bits.ones ((Circuit.of layout plan values).widths.get "lb_rvalid")))).getD _ = _
  rw [resetCondition_value shows.reset, shows.carries.readEnable, width, truth_and_ones]
  cases isReset with
  | true => rfl
  | false =>
    rw [if_neg Bool.false_ne_true, if_neg Bool.false_ne_true]
    exact congrArg (fun written => (Option.or written _).getD _) arms

end Block

end RegisterBank.Bank
