import RegisterBank.Proofs.Bank.StoredFields
import RegisterBank.Proofs.Text.Identifiers

/-!
# Legal states and traces

`Machine.Legal` is what may be relied on in every state of a bank: values and
inputs lie inside their fields, what has no flip-flops and what clears itself
and is idle holds zero, the lock of a field that is not written once stays
open, and the word of the last read fits the data bus.  All of it but the locks
and the word is part of `Machine.Implements`.  What is seen of a legal state is
legal as well (`Machine.Legal.observe`): one entry for every field with an
output port, under a label of its own.
-/

namespace RegisterBank.Bank

/-! ## Legal states -/

/-- A state that a field may come to. -/
structure Cell.Legal (field : Field) (cell : Cell) : Prop where
  name : cell.name = field.name
  template : cell.template = Template.ofField field
  bits : cell.bits = field.bits
  value_lt : cell.value < 2 ^ field.bits.width
  input_lt : cell.input < 2 ^ field.bits.width
  unstored : cell.template = .hardwareDriven ∨ cell.template = .pulse → cell.value = 0
  idle : cell.template = .selfClearing → cell.selfClear = .idle → cell.value = 0
  unlocked : field.has .writeOnce = false → cell.writeOnce = .unlocked

/-- A register of a machine, field by field. -/
structure RegisterCell.Legal (placed : PlacedRegister) (register : RegisterCell) : Prop where
  name : register.name = placed.name
  address : register.address = placed.address
  cells : List.Forall₂ Cell.Legal placed.register.fields register.cells

/-- A state that a bank may come to. -/
structure Machine.Legal (layout : Layout) (machine : Machine) : Prop where
  dataWidth : machine.dataWidth = layout.dataWidth
  registers : List.Forall₂ RegisterCell.Legal layout.registers machine.registers
  readData_lt : machine.readData < 2 ^ layout.dataWidth

/-! ## Legal traces -/

/-- The fields of a layout that have an output port, with their registers. -/
def outputPorts (layout : Layout) : List (PlacedRegister × Field) :=
  layout.registers.flatMap fun placed =>
    (placed.register.fields.filter fun field =>
      (Template.ofField field).direction == .output).map fun field => (placed, field)

/-- The label of an output, which is the names of register and field with a dot
between them. -/
def label (names : String × String) : String := names.1 ++ "." ++ names.2

/-- An output port shows a value that lies inside its field, under the names of
register and field. -/
def PortShows (port : PlacedRegister × Field) (output : (String × String) × Nat) : Prop :=
  output.1 = (port.1.name, port.2.name) ∧ output.2 < 2 ^ port.2.bits.width

/-- A trace that may be seen of a bank. -/
structure Trace.Legal (layout : Layout) (trace : Trace) : Prop where
  /-- There is one entry for every output port. -/
  outputs : List.Forall₂ PortShows (outputPorts layout) trace.outputs
  labels_nodup : (trace.outputs.map fun output => label output.1).Nodup
  readData_lt : trace.readData < 2 ^ layout.dataWidth

/-! ## Locks -/

/-- The lock of a cell is open unless the field is written once. -/
def Cell.Unlocked (cell : Cell) : Prop :=
  cell.template.isWriteOnce = false → cell.writeOnce = .unlocked

namespace Cell.Unlocked

variable {cell : Cell}

/-- Only an accepted write locks a field, and only one that is written once. -/
theorem step (unlocked : cell.Unlocked) (write : Option BusWrite) (isRead : Bool) :
    (cell.step write isRead).Unlocked := by
  cases template : cell.template with
  | hardwareDriven =>
    rw [step_unstored write isRead (by rw [template]; rfl)]
    exact unlocked
  | pulse =>
    rw [step_unstored write isRead (by rw [template]; rfl)]
    exact unlocked
  | sticky =>
    rw [step_sticky write isRead template]
    exact unlocked
  | selfClearing =>
    rw [step_selfClearing write isRead template]
    exact unlocked
  | stored readClear writeOnce =>
    rw [step_stored write isRead template]
    split
    · intro plain
      change cell.template.isWriteOnce = false at plain
      have stillOpen := unlocked plain
      rw [template] at plain
      change writeOnce = false at plain
      rw [plain]
      exact stillOpen
    · split
      · exact unlocked
      · exact unlocked

theorem reset (cell : Cell) : cell.reset.Unlocked := fun _ => rfl

theorem drive (unlocked : cell.Unlocked) (value : Nat) : (cell.drive value).Unlocked := unlocked

end Cell.Unlocked

/-- A cell that implements a field and is not locked out of turn is legal for
it. -/
theorem Cell.Implements.legal {config : Configuration} {register : Register} {field : Field}
    {cell : Cell} (implements : cell.Implements (planField config register field))
    (valid : field.Valid) (unlocked : cell.Unlocked) : cell.Legal field where
  name := implements.name
  template := implements.template
  bits := implements.bits
  value_lt := implements.bits ▸ implements.value_lt
  input_lt := implements.bits ▸ implements.input_lt
  unstored := by
    intro without
    apply implements.unstored
    rcases without with hardwareDriven | pulse
    · rw [hardwareDriven]
      rfl
    · rw [pulse]
      rfl
  idle := implements.idle
  unlocked := by
    intro free
    apply unlocked
    rw [implements.template]
    show (Template.ofField field).isWriteOnce = false
    rw [← Bool.not_eq_true, Template.isWriteOnce_ofField_iff valid, free]
    exact Bool.false_ne_true

/-- All locks are open but those of fields that are written once. -/
def Machine.Unlocked (machine : Machine) : Prop :=
  ∀ register ∈ machine.registers, ∀ cell ∈ register.cells, cell.Unlocked

namespace Machine.Unlocked

variable {machine : Machine}

theorem reset (machine : Machine) : machine.reset.Unlocked := by
  intro register listed cell inside
  obtain ⟨before, -, rfl⟩ := List.mem_map.mp listed
  obtain ⟨cell, -, rfl⟩ := List.mem_map.mp inside
  exact .reset cell

theorem step (unlocked : machine.Unlocked) (request : Request) :
    (machine.step request).Unlocked := by
  intro register listed cell inside
  obtain ⟨before, known, rfl⟩ := List.mem_map.mp listed
  obtain ⟨cell, here, rfl⟩ := List.mem_map.mp inside
  exact (unlocked before known cell here).step _ _

theorem setInput? (unlocked : machine.Unlocked) {register field : String} {value : Nat}
    {next : Machine} (driven : machine.setInput? register field value = some next) :
    next.Unlocked := by
  unfold Machine.setInput? at driven
  split at driven
  · cases driven
    refine forall_mem_changeFirst ?_ unlocked
    intro register all
    exact forall_mem_changeFirst (fun cell unlocked => unlocked.drive value) all
  · cases driven

end Machine.Unlocked

namespace Machine.Reachable

variable {map : RegisterMap} {layout : Layout} {protocol : Bus.Protocol} {plan : Plan}
  (accepted : Accepted map layout protocol plan) {machine : Machine}
  (reachable : machine.Reachable layout)

include accepted reachable

/-- By induction on the run: no field is locked that is not written once. -/
theorem unlocked : machine.Unlocked := by
  induction reachable with
  | built built =>
    rw [accepted.buildMachine] at built
    cases built
    exact .reset _
  | cycle request _ kept => exact kept.step request
  | setInput _ driven kept => exact kept.setInput? driven
  | reset _ _ => exact .reset _

/-! ## Words -/

/-- The word of any address fits the data bus. -/
theorem readWord_lt (address : Nat) : machine.readWord address < 2 ^ layout.dataWidth := by
  have implements := reachable.implements accepted
  by_cases found : ∃ register ∈ plan.registers, register.placed.address = address
  · obtain ⟨register, planned, rfl⟩ := found
    exact machine_readWord_lt accepted implements planned
  · have missing : ∀ register ∈ plan.registers, register.placed.address ≠ address :=
      fun register planned here => found ⟨register, planned, here⟩
    rw [implements.readWord_of_missing missing]
    exact accepted.readFiller_lt

/-- The data that is read fits the bus at any time. -/
theorem readData_lt : machine.readData < 2 ^ layout.dataWidth := by
  -- Only a read and a reset change what has been read.
  induction reachable with
  | built built =>
    rw [accepted.buildMachine] at built
    cases built
    show layout.config.readFiller &&& Bits.ones layout.dataWidth < _
    exact Bits.and_ones_lt _ _
  | @cycle machine request reachable ih =>
    dsimp only [Machine.cycle, Machine.step]
    split
    · exact reachable.readWord_lt accepted _
    · exact ih
  | setInput _ driven ih =>
    unfold Machine.setInput? at driven
    split at driven
    · cases driven
      exact ih
    · cases driven
  | @reset machine reachable _ =>
    show machine.readFiller < _
    rw [(reachable.implements accepted).readFiller]
    exact accepted.readFiller_lt

/-! ## Reachable states are legal -/

/-- Every machine that can be reached is in a legal state. -/
theorem legal : machine.Legal layout := by
  have implements := reachable.implements accepted
  have planned := implements.registers
  have unlocked := reachable.unlocked accepted
  rw [accepted.plan_eq.1, Plan.draft, List.forall₂_map_left_iff] at planned
  refine ⟨implements.dataWidth, ?_, reachable.readData_lt accepted⟩
  refine forall₂_imp_of_mem_both ?_ planned
  intro placed listed register known kept
  have cells := kept.cells
  rw [planRegister, List.forall₂_map_left_iff] at cells
  refine ⟨kept.name, kept.address, forall₂_imp_of_mem_both ?_ cells⟩
  intro field declared cell inside stands
  exact stands.legal (accepted.field_valid listed declared) (unlocked register known cell inside)

end Machine.Reachable

/-! ## Traces of legal states -/

/-- No output shows more than its field holds. -/
theorem Cell.output_lt {cell : Cell} (bound : cell.value < 2 ^ cell.bits.width)
    (write : Option BusWrite) : cell.output write < 2 ^ cell.bits.width := by
  unfold Cell.output
  split
  · exact Nat.and_lt_two_pow _ (Bits.extract_lt _ _ _)
  · exact Nat.two_pow_pos _
  · exact bound

/-- A register shows one entry for each field with an output port, in their
order. -/
theorem RegisterCell.Legal.outputs {placed : PlacedRegister} {register : RegisterCell}
    (legal : register.Legal placed) (request : Request) :
    List.Forall₂ PortShows
      ((placed.register.fields.filter fun field =>
        (Template.ofField field).direction == .output).map fun field => (placed, field))
      (register.outputs request) := by
  unfold RegisterCell.outputs
  rw [List.forall₂_map_left_iff, List.forall₂_map_right_iff]
  have ports : List.Forall₂ Cell.Legal
      (placed.register.fields.filter fun field => (Template.ofField field).direction == .output)
      (register.cells.filter fun cell => cell.template.direction == .output) := by
    refine List.rel_filter ?_ legal.cells
    intro field cell legal
    dsimp only
    rw [legal.template]
  refine ports.imp ?_
  intro field cell inside
  constructor
  · rw [legal.name, inside.name]
  · rw [← inside.bits]
    apply Cell.output_lt
    rw [inside.bits]
    exact inside.value_lt

/-- A trace has one entry for each output port of the layout, in their order. -/
theorem Machine.Legal.outputs {layout : Layout} {machine : Machine} (legal : machine.Legal layout)
    (request : Request) :
    List.Forall₂ PortShows (outputPorts layout) (machine.observe request).outputs :=
  List.rel_flatMap legal.registers fun _ _ legal => legal.outputs request

/-- Names without dots can be told from their label. -/
theorem label_inj {first second : String × String}
    (register : Text.isIdentifier first.1 = true) (field : Text.isIdentifier first.2 = true)
    (same : label first = label second) : first = second := by
  have characters := congrArg String.toList same
  simp only [label, String.toList_append, List.append_assoc] at characters
  have free := Text.notMem_of_isIdentifier register (c := '.') rfl
  have free' := Text.notMem_of_isIdentifier field (c := '.') rfl
  obtain ⟨left, -, right⟩ := (List.append_cons_inj_of_notMem free free').mp characters
  exact Prod.ext (String.toList_inj.mp left) (String.toList_inj.mp right)

section Labels

variable {map : RegisterMap} {layout : Layout} {protocol : Bus.Protocol} {plan : Plan}
  (accepted : Accepted map layout protocol plan)

include accepted

theorem identifiers_of_mem_outputPorts {port : PlacedRegister × Field}
    (listed : port ∈ outputPorts layout) :
    Text.isIdentifier port.1.name = true ∧ Text.isIdentifier port.2.name = true := by
  obtain ⟨placed, here, inside⟩ := List.mem_flatMap.mp listed
  obtain ⟨field, kept, rfl⟩ := List.mem_map.mp inside
  have valid := accepted.built.valid.registers placed.register (accepted.register_mem here)
  exact ⟨valid.name, (valid.fields field (List.mem_filter.mp kept).1).name⟩

/-- No two output ports share both names. -/
theorem names_outputPorts_nodup :
    ((outputPorts layout).map fun port => (port.1.name, port.2.name)).Nodup := by
  have distinct := accepted.names_nodup
  rw [accepted.plan_eq.1, Plan.draft, List.map_map] at distinct
  unfold outputPorts
  rw [List.map_flatMap, List.nodup_flatMap]
  constructor
  · intro placed listed
    have valid := accepted.built.valid.registers placed.register (accepted.register_mem listed)
    rw [List.map_map]
    unfold List.Nodup
    rw [List.pairwise_map]
    refine (valid.apart.filter _).imp ?_
    intro field other apart same
    exact apart.1 (congrArg Prod.snd same)
  · unfold List.Nodup at distinct
    rw [List.pairwise_map] at distinct
    refine distinct.imp ?_
    intro placed other apart names here there
    obtain ⟨port, inside, rfl⟩ := List.mem_map.mp here
    obtain ⟨field, -, rfl⟩ := List.mem_map.mp inside
    obtain ⟨port, inside, same⟩ := List.mem_map.mp there
    obtain ⟨field', -, rfl⟩ := List.mem_map.mp inside
    exact apart (congrArg Prod.fst same).symm

/-- Joined by a dot the names still tell the ports apart. -/
theorem labels_outputPorts_nodup :
    (((outputPorts layout).map fun port => (port.1.name, port.2.name)).map label).Nodup := by
  refine List.Nodup.map_on ?_ (names_outputPorts_nodup accepted)
  intro first listed second listed' same
  obtain ⟨port, here, rfl⟩ := List.mem_map.mp listed
  obtain ⟨port', there, rfl⟩ := List.mem_map.mp listed'
  obtain ⟨register, field⟩ := identifiers_of_mem_outputPorts accepted here
  exact label_inj register field same

/-- What is seen of a legal state is legal. -/
theorem Machine.Legal.observe {machine : Machine} (legal : machine.Legal layout)
    (request : Request) : (machine.observe request).Legal layout := by
  have outputs := legal.outputs request
  refine ⟨outputs, ?_, legal.readData_lt⟩
  have names : (outputPorts layout).map (fun port => (port.1.name, port.2.name)) =
      (machine.observe request).outputs.map Prod.fst :=
    (map_eq_of_forall₂ (fun _ _ shown => shown.1) outputs).symm
  have labels := labels_outputPorts_nodup accepted
  rw [names, List.map_map] at labels
  exact labels

/-- **Every state of a bank is legal, and so is every trace.**  In any run of
cycles, driven inputs and resets, values and inputs stay inside their fields,
what has no flip-flops and what is idle holds zero, only fields that are written
once are ever locked, the word of the last read fits the data bus, and a trace
has one entry, under a label of its own, for every output port. -/
theorem states_legal :
    ∃ machine, layout.buildMachine = .ok (some (machine, protocol)) ∧
      ∀ actions, (machine.after actions).Legal layout ∧
        ∀ request, ((machine.after actions).cycle request).1.Legal layout := by
  refine ⟨_, accepted.buildMachine, ?_⟩
  intro actions
  have reachable := (Machine.Reachable.built accepted.buildMachine).after actions
  have legal := reachable.legal accepted
  exact ⟨legal, fun request => legal.observe accepted request⟩

end Labels

/-- A command in the cycle after it was written, while the token is locked. -/
theorem states_legal_commands :
    ∃ machine, commandLayout.buildMachine = .ok (some (machine, .axil)) ∧
      (machine.after [.cycle (.write 4 0xfff0000 15), .cycle (.write 0 0xff0 15)]).Legal
        commandLayout ∧
      ((machine.after [.cycle (.write 4 0xfff0000 15), .cycle (.write 0 0xff0 15)]).cycle
        (.read 4)).1.Legal commandLayout ∧
      ((machine.after [.cycle (.write 4 0xfff0000 15), .cycle (.write 0 0xff0 15)]).cycle
        (.read 4)).1.outputs.map (fun output => (label output.1, output.2)) =
          [("cmd.go", 0xff), ("evt.count", 0), ("evt.token", 0xfff)] := by
  obtain ⟨machine, built, legal⟩ := states_legal accepted_commands
  have reached := legal [.cycle (.write 4 0xfff0000 15), .cycle (.write 0 0xff0 15)]
  refine ⟨machine, built, reached.1, reached.2 (.read 4), ?_⟩
  rw [accepted_commands.buildMachine] at built
  cases built
  rfl

end RegisterBank.Bank
