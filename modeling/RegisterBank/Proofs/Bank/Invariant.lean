import RegisterBank.Proofs.Bank.Accepted
import RegisterBank.Proofs.Bank.Paired

/-!
# What every state of a machine keeps

A machine never changes what it took from its plan: `Implements` says so for
cells, registers and machines, along the lists of both.  With it go the bounds
that the plan does not say: values and inputs stay inside their fields, what
has no flip-flops has no value, and a field that clears itself holds zero
while it is idle.  Each is kept by clock edges, driven inputs and resets, so
it holds in every reachable state (`Machine.Reachable.implements`).
-/

namespace RegisterBank.Bank

/-! ## Clock edges by template -/

namespace Cell

variable {cell : Cell} (write : Option BusWrite) (isRead : Bool)

/-- What has no flip-flops has no clock edge. -/
theorem step_unstored (unstored : cell.template.isStored = false) :
    cell.step write isRead = cell := by
  unfold Cell.step
  split <;> rename_i template
  · rfl
  · rfl
  · rw [template] at unstored
    cases unstored
  · rw [template] at unstored
    cases unstored
  · rw [template] at unstored
    cases unstored

/-- A sticky field collects its input on top of what is left after a read. -/
theorem step_sticky (sticky : cell.template = .sticky) :
    cell.step write isRead =
      { cell with value := (if isRead then 0 else cell.value) ||| cell.input } := by
  unfold Cell.step
  rw [sticky]

/-- A stored field takes an accepted write before it clears on a read. -/
theorem step_stored {readClear writeOnce : Bool}
    (stored : cell.template = .stored readClear writeOnce) :
    cell.step write isRead =
      if cell.isStrobed write && (!writeOnce || cell.writeOnce.acceptsWrite) then
        { cell with
          value := cell.loaded write
          writeOnce := if writeOnce then cell.writeOnce.next true else cell.writeOnce }
      else if readClear && isRead then { cell with value := 0 }
      else cell := by
  unfold Cell.step
  rw [stored]

/-- A field that clears itself shows a write for the one cycle after it. -/
theorem step_selfClearing (selfClearing : cell.template = .selfClearing) :
    cell.step write isRead =
      { cell with
        value := if cell.selfClear == .idle && cell.isStrobed write then cell.writtenBits write
          else 0
        selfClear := cell.selfClear.next (cell.isStrobed write) } := by
  unfold Cell.step
  rw [selfClearing]

/-- A clock edge changes the value and the states, and nothing else. -/
theorem step_frame (cell : Cell) (write : Option BusWrite) (isRead : Bool) :
    ∃ value selfClear writeOnce,
      cell.step write isRead = { cell with value, selfClear, writeOnce } := by
  obtain ⟨template, same⟩ : ∃ template, cell.template = template := ⟨_, rfl⟩
  cases template with
  | hardwareDriven => exact ⟨_, _, _, step_unstored write isRead (by rw [same]; rfl)⟩
  | pulse => exact ⟨_, _, _, step_unstored write isRead (by rw [same]; rfl)⟩
  | sticky => exact ⟨_, _, _, step_sticky write isRead same⟩
  | selfClearing => exact ⟨_, _, _, step_selfClearing write isRead same⟩
  | stored readClear writeOnce =>
    rw [step_stored write isRead same]
    split
    · exact ⟨_, _, _, rfl⟩
    · split
      · exact ⟨_, _, _, rfl⟩
      · exact ⟨_, _, _, rfl⟩

/-- A clock edge leaves the hardware input alone. -/
theorem step_input : (cell.step write isRead).input = cell.input := by
  cases template : cell.template with
  | hardwareDriven => rw [step_unstored write isRead (by rw [template]; rfl)]
  | pulse => rw [step_unstored write isRead (by rw [template]; rfl)]
  | sticky => rw [step_sticky write isRead template]
  | selfClearing => rw [step_selfClearing write isRead template]
  | stored readClear writeOnce =>
    rw [step_stored write isRead template]
    split
    · rfl
    · split
      · rfl
      · rfl

/-- A write loads no bit outside the field. -/
theorem loaded_lt (bound : cell.value < 2 ^ cell.bits.width) (write : Option BusWrite) :
    cell.loaded write < 2 ^ cell.bits.width := by
  cases write with
  | none => exact bound
  | some write => exact Bits.merge_lt bound (Bits.extract_lt _ _ _)

end Cell

/-! ## Cells -/

/-- A cell that stands for a field of a plan. -/
structure Cell.Implements (plan : FieldPlan) (cell : Cell) : Prop where
  name : cell.name = plan.field.name
  template : cell.template = plan.template
  bits : cell.bits = plan.field.bits
  isReadable : cell.isReadable = readsBack plan.field
  initial : cell.initial = plan.field.initial
  initial_lt : cell.initial < 2 ^ cell.bits.width
  value_lt : cell.value < 2 ^ cell.bits.width
  input_lt : cell.input < 2 ^ cell.bits.width
  /-- Without flip-flops there is no value. -/
  unstored : cell.template.isStored = false → cell.value = 0
  /-- What clears itself is zero but for the cycle after a write. -/
  idle : cell.template = .selfClearing → cell.selfClear = .idle → cell.value = 0

namespace Cell.Implements

variable {plan : FieldPlan} {cell : Cell}

/-- A new cell holds its initial value. -/
theorem ofPlan (valid : plan.field.Valid) : (Cell.ofPlan plan).Implements plan where
  name := rfl
  template := rfl
  bits := rfl
  isReadable := rfl
  initial := rfl
  initial_lt := valid.initial_lt
  value_lt := Nat.two_pow_pos _
  input_lt := Nat.two_pow_pos _
  unstored := fun _ => rfl
  idle := fun _ _ => rfl

theorem reset (implements : cell.Implements plan) : cell.reset.Implements plan where
  name := implements.name
  template := implements.template
  bits := implements.bits
  isReadable := implements.isReadable
  initial := implements.initial
  initial_lt := implements.initial_lt
  value_lt := by
    have initial := implements.initial_lt
    have positive := Nat.two_pow_pos cell.bits.width
    show cell.resetValue < 2 ^ cell.bits.width
    unfold Cell.resetValue
    cases cell.template <;> assumption
  input_lt := implements.input_lt
  unstored := by
    intro unstored
    change cell.template.isStored = false at unstored
    show cell.resetValue = 0
    unfold Cell.resetValue
    cases template : cell.template with
    | hardwareDriven => rfl
    | pulse => rfl
    | selfClearing => rfl
    | sticky => rw [template] at unstored; cases unstored
    | stored readClear writeOnce => rw [template] at unstored; cases unstored
  idle := by
    intro selfClearing _
    change cell.template = .selfClearing at selfClearing
    show cell.resetValue = 0
    unfold Cell.resetValue
    rw [selfClearing]

theorem drive (implements : cell.Implements plan) (value : Nat) :
    (cell.drive value).Implements plan :=
  { implements with input_lt := Bits.and_ones_lt value cell.bits.width }

/-- A clock edge that only changes the value and the states, within their
bounds. -/
theorem of_edge (implements : cell.Implements plan) {value : Nat} (selfClear : SelfClearState)
    (writeOnce : WriteOnceState) (stored : cell.template.isStored = true)
    (bound : value < 2 ^ cell.bits.width)
    (idle : cell.template = .selfClearing → selfClear = .idle → value = 0) :
    { cell with value, selfClear, writeOnce }.Implements plan :=
  { implements with
    value_lt := bound
    unstored := by
      intro unstored
      rw [stored] at unstored
      cases unstored
    idle := idle }

/-- Written bits outside the field do not reach it. -/
theorem writtenBits_lt (cell : Cell) (write : Option BusWrite) :
    cell.writtenBits write < 2 ^ cell.bits.width := by
  cases write with
  | none => exact Nat.two_pow_pos _
  | some write => exact Nat.and_lt_two_pow _ (Bits.extract_lt _ _ _)

/-- No step of a cell takes its value out of the field's bits. -/
theorem step (implements : cell.Implements plan) (write : Option BusWrite) (isRead : Bool) :
    (cell.step write isRead).Implements plan := by
  have positive := Nat.two_pow_pos cell.bits.width
  cases template : cell.template with
  | hardwareDriven =>
    rw [Cell.step_unstored write isRead (by rw [template]; rfl)]
    exact implements
  | pulse =>
    rw [Cell.step_unstored write isRead (by rw [template]; rfl)]
    exact implements
  | sticky =>
    rw [Cell.step_sticky write isRead template]
    refine implements.of_edge cell.selfClear cell.writeOnce (by rw [template]; rfl) ?_
      (by rw [template]; intro other; cases other)
    refine Nat.or_lt_two_pow ?_ implements.input_lt
    cases isRead with
    | false => exact implements.value_lt
    | true => exact positive
  | stored readClear writeOnce =>
    have stored : cell.template.isStored = true := by rw [template]; rfl
    have other : ¬ cell.template = .selfClearing := by rw [template]; intro other; cases other
    rw [Cell.step_stored write isRead template]
    split
    · exact implements.of_edge cell.selfClear _ stored (Cell.loaded_lt implements.value_lt write)
        fun selfClearing => absurd selfClearing other
    · split
      · exact implements.of_edge cell.selfClear cell.writeOnce stored positive
          fun selfClearing => absurd selfClearing other
      · exact implements
  | selfClearing =>
    rw [Cell.step_selfClearing write isRead template]
    refine implements.of_edge _ cell.writeOnce (by rw [template]; rfl) ?_ ?_
    · split
      · exact writtenBits_lt cell write
      · exact positive
    · -- Idle after the edge means idle before it without a write, or asserted.
      intro _ idle
      cases state : cell.selfClear with
      | asserted => rfl
      | idle =>
        cases strobed : cell.isStrobed write with
        | false => rfl
        | true =>
          rw [state, strobed] at idle
          cases idle

/-- What a field adds to the word that is read stays inside its bits. -/
theorem readValue_lt (implements : cell.Implements plan) :
    cell.readValue < 2 ^ cell.bits.width := by
  unfold Cell.readValue
  split
  · exact implements.input_lt
  · exact implements.value_lt

end Cell.Implements

/-! ## Registers and machines -/

/-- A register of a machine that stands for one of a plan, field by field. -/
structure RegisterCell.Implements (plan : RegisterPlan) (register : RegisterCell) : Prop where
  name : register.name = plan.name
  address : register.address = plan.placed.address
  cells : List.Forall₂ Cell.Implements plan.fields register.cells

/-- A machine that stands for a plan, register by register. -/
structure Machine.Implements (plan : Plan) (dataWidth readFiller : Nat) (machine : Machine) :
    Prop where
  dataWidth : machine.dataWidth = dataWidth
  readFiller : machine.readFiller = readFiller
  registers : List.Forall₂ RegisterCell.Implements plan.registers machine.registers

/-- A register may swap its cells for others that implement its fields. -/
theorem RegisterCell.Implements.with_cells {plan : RegisterPlan} {register : RegisterCell}
    {cells : List Cell} (implements : register.Implements plan)
    (changed : List.Forall₂ Cell.Implements plan.fields cells) :
    { register with cells }.Implements plan :=
  ⟨implements.name, implements.address, changed⟩

namespace Machine.Implements

variable {plan : Plan} {dataWidth readFiller : Nat} {machine : Machine}

theorem reset (implements : machine.Implements plan dataWidth readFiller) :
    machine.reset.Implements plan dataWidth readFiller where
  dataWidth := implements.dataWidth
  readFiller := implements.readFiller
  registers := by
    refine forall₂_map_right ?_ implements.registers
    intro plan _ register kept
    exact kept.with_cells (forall₂_map_right (fun _ _ _ kept => kept.reset) kept.cells)

theorem step (implements : machine.Implements plan dataWidth readFiller) (request : Request) :
    (machine.step request).Implements plan dataWidth readFiller where
  dataWidth := implements.dataWidth
  readFiller := implements.readFiller
  registers := by
    refine forall₂_map_right ?_ implements.registers
    intro plan _ register kept
    exact kept.with_cells (forall₂_map_right (fun _ _ _ kept => kept.step _ _) kept.cells)

/-- Driving an input keeps the rest of the machine as it is. -/
theorem setInput? (implements : machine.Implements plan dataWidth readFiller)
    {register field : String} {value : Nat} {next : Machine}
    (driven : machine.setInput? register field value = some next) :
    next.Implements plan dataWidth readFiller := by
  unfold Machine.setInput? at driven
  split at driven
  · cases driven
    refine ⟨implements.dataWidth, implements.readFiller, ?_⟩
    refine forall₂_changeFirst ?_ implements.registers
    intro plan register kept
    exact kept.with_cells (forall₂_changeFirst (fun _ _ kept => kept.drive value) kept.cells)
  · cases driven

/-- A fresh machine implements its plan. -/
theorem make {plan : Plan} (dataWidth readFiller : Nat)
    (valid : ∀ register ∈ plan.registers, ∀ field ∈ register.fields, field.field.Valid) :
    (Machine.make plan dataWidth readFiller).Implements plan dataWidth
      (readFiller &&& Bits.ones dataWidth) := by
  refine reset ⟨rfl, rfl, ?_⟩
  rw [List.forall₂_map_right_iff, List.forall₂_same]
  intro register listed
  refine ⟨rfl, rfl, ?_⟩
  rw [List.forall₂_map_right_iff, List.forall₂_same]
  intro field declared
  exact Cell.Implements.ofPlan (valid register listed field declared)

end Machine.Implements

/-! ## Reachable states -/

/-- The states that the machine of a layout comes to. -/
inductive Machine.Reachable (layout : Layout) : Machine → Prop
  | built {machine : Machine} {protocol : Bus.Protocol} :
    layout.buildMachine = .ok (some (machine, protocol)) → Reachable layout machine
  | cycle {machine : Machine} (request : Request) :
    Reachable layout machine → Reachable layout (machine.cycle request).2
  | setInput {machine next : Machine} {register field : String} {value : Nat} :
    Reachable layout machine → machine.setInput? register field value = some next →
    Reachable layout next
  | reset {machine : Machine} : Reachable layout machine → Reachable layout machine.reset

/-- By induction on the run: whatever was done to it, a machine implements its
plan. -/
theorem Machine.Reachable.implements {map : RegisterMap} {layout : Layout}
    {protocol : Bus.Protocol} {plan : Plan} (accepted : Accepted map layout protocol plan)
    {machine : Machine} (reachable : machine.Reachable layout) :
    machine.Implements plan layout.dataWidth layout.config.readFiller := by
  induction reachable with
  | built built =>
    rw [accepted.buildMachine] at built
    cases built
    have made := Machine.Implements.make layout.dataWidth layout.config.readFiller
      fun register listed field declared =>
        ((accepted.sound register listed).fields field declared).valid
    rw [Bits.and_ones_of_lt accepted.readFiller_lt accepted.dataWidth_le] at made
    exact made
  | cycle request _ kept => exact kept.step request
  | setInput _ driven kept => exact kept.setInput? driven
  | reset _ kept => exact kept.reset

end RegisterBank.Bank
