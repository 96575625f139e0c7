import RegisterBank.Proofs.Bank.Channels

/-!
# What a reset forgets

A reset puts back every value, every state and what the bus shows of the last
read.  Only the hardware inputs are left, which are driven from outside.  So a
cell after reset is a new cell with the input that it had (`Cell.reset_after`),
and a new cell of which only the input has been driven is such a one as well
(`Cell.after_drives`).  A bank is its cells and what it shows of the last read
(`Machine.eq_of_holds`), which makes the reset bank and a new one with the same
inputs one and the same machine: no future tells them apart.
-/

namespace RegisterBank.Bank

/-! ## Cells -/

/-- Nothing but inputs are driven. -/
def OnlyDrives (actions : List Action) : Prop :=
  ∀ action ∈ actions, ∃ register field value, action = .setInput register field value

namespace Cell

theorem after_cons (seat : Seat) (cell : Cell) (action : Action) (rest : List Action) :
    cell.after seat (action :: rest) = (cell.act seat action).after seat rest :=
  rfl

/-- What an action did is gone after a reset, but for the input. -/
theorem reset_act (seat : Seat) (cell : Cell) (action : Action) :
    (cell.act seat action).reset = { cell.reset with input := (cell.act seat action).input } := by
  cases action with
  | cycle request =>
    obtain ⟨value, selfClear, writeOnce, same⟩ := cell.step_frame (request.writeAt? seat.address)
      (request.readAddress? == some seat.address)
    unfold act
    dsimp only
    rw [same]
    rfl
  | setInput register field value =>
    unfold act
    dsimp only
    split
    · rfl
    · rfl
  | reset => rfl

/-- What a run did is gone after a reset, but for the input. -/
theorem reset_after (seat : Seat) (cell : Cell) (actions : List Action) :
    (cell.after seat actions).reset =
      { cell.reset with input := (cell.after seat actions).input } := by
  induction actions generalizing cell with
  | nil => rfl
  | cons action rest ih => rw [after_cons, ih, reset_act]

/-- Driving inputs changes the input and nothing else. -/
theorem after_drives (seat : Seat) (cell : Cell) {drives : List Action}
    (only : OnlyDrives drives) :
    cell.after seat drives = { cell with input := (cell.after seat drives).input } := by
  induction drives generalizing cell with
  | nil => rfl
  | cons action rest ih =>
    obtain ⟨⟨register, field, value, rfl⟩, others⟩ := List.forall_mem_cons.mp only
    have driven : cell.act seat (.setInput register field value) =
        { cell with input := (cell.act seat (.setInput register field value)).input } := by
      unfold act
      dsimp only
      split
      · rfl
      · rfl
    rw [after_cons, ih _ others, driven]

/-- A run that ends with the input that driving leads to is forgotten. -/
theorem reset_after_eq (seat : Seat) (cell : Cell) (actions : List Action) {drives : List Action}
    (only : OnlyDrives drives)
    (input : (cell.reset.after seat actions).input = (cell.reset.after seat drives).input) :
    (cell.reset.after seat actions).reset = cell.reset.after seat drives := by
  rw [reset_after, after_drives seat _ only, input]
  rfl

theorem template_after (seat : Seat) (cell : Cell) (actions : List Action) :
    (cell.after seat actions).template = cell.template := by
  have kept : (cell.after seat actions).reset.template = cell.reset.template := by
    rw [reset_after]
  exact kept

theorem bits_after (seat : Seat) (cell : Cell) (actions : List Action) :
    (cell.after seat actions).bits = cell.bits := by
  have kept : (cell.after seat actions).reset.bits = cell.reset.bits := by
    rw [reset_after]
  exact kept

theorem hasInput_after (seat : Seat) (cell : Cell) (actions : List Action) :
    (cell.after seat actions).hasInput = cell.hasInput := by
  unfold hasInput
  rw [template_after]

/-- A cell without a hardware input is not driven. -/
theorem input_after_of_not_hasInput (seat : Seat) {cell : Cell} (lacking : cell.hasInput = false)
    (actions : List Action) : (cell.after seat actions).input = cell.input := by
  induction actions generalizing cell with
  | nil => rfl
  | cons action rest ih =>
    have kept : (cell.act seat action).input = cell.input := by
      cases action with
      | cycle request => exact step_input _ _
      | reset => rfl
      | setInput register field value =>
        unfold act
        dsimp only
        rw [if_neg fun all => Bool.false_ne_true (lacking.symm.trans all.2.2)]
    have still : (cell.act seat action).hasInput = false :=
      (hasInput_after seat cell [action]).trans lacking
    rw [after_cons, ih still, kept]

/-- An input fits its field and is driven to what fits. -/
theorem input_after_fits (seat : Seat) {cell : Cell}
    (fits : cell.input &&& Bits.ones cell.bits.width = cell.input) (actions : List Action) :
    (cell.after seat actions).input &&& Bits.ones cell.bits.width =
      (cell.after seat actions).input := by
  induction actions generalizing cell with
  | nil => exact fits
  | cons action rest ih =>
    have width : (cell.act seat action).bits = cell.bits := bits_after seat cell [action]
    have next : (cell.act seat action).input &&& Bits.ones cell.bits.width =
        (cell.act seat action).input := by
      cases action with
      | cycle request =>
        rw [show (cell.act seat (.cycle request)).input = cell.input from step_input _ _]
        exact fits
      | reset => exact fits
      | setInput register field value =>
        unfold act
        dsimp only
        split
        · show (value &&& _) &&& _ = value &&& _
          rw [Nat.and_assoc, Nat.and_self]
        · exact fits
    rw [← width] at next ⊢
    rw [after_cons]
    exact ih next

/-- An input that is only ever driven to one level, and at least once, has it. -/
theorem input_after_drives (seat : Seat) {cell : Cell} (has : cell.hasInput = true)
    {level : Nat} (fits : level &&& Bits.ones cell.bits.width = level) {drives : List Action}
    (only : OnlyDrives drives)
    (one : ∀ value, .setInput seat.register seat.field value ∈ drives → value = level)
    (driven : cell.input = level ∨ .setInput seat.register seat.field level ∈ drives) :
    (cell.after seat drives).input = level := by
  -- On the calls: either the level is reached already, or a later call drives to it.
  induction drives generalizing cell with
  | nil => exact driven.resolve_right List.not_mem_nil
  | cons action rest ih =>
    obtain ⟨⟨register, field, value, rfl⟩, others⟩ := List.forall_mem_cons.mp only
    rw [after_cons]
    have one' (value : Nat) (listed : .setInput seat.register seat.field value ∈ rest) :=
      one value (List.mem_cons_of_mem _ listed)
    unfold act
    dsimp only
    split
    · rename_i own
      obtain ⟨rfl, rfl, -⟩ := own
      obtain rfl := one value List.mem_cons_self
      exact ih has fits others one' (.inl fits)
    · rename_i other
      refine ih has fits others one' (driven.imp_right fun listed => ?_)
      refine (List.mem_cons.mp listed).resolve_left fun same => other ?_
      cases same
      exact ⟨rfl, rfl, has⟩

end Cell

/-! ## Machines -/

namespace Machine

/-- What the hardware input of a field is driven to. -/
def input? (machine : Machine) (register field : String) : Option Nat :=
  ((machine.cell? register field).filter Cell.hasInput).map Cell.input

/-- The actions that drive every hardware input to what it is driven to
already. -/
def drives (machine : Machine) : List Action :=
  machine.registers.flatMap fun register =>
    (register.cells.filter Cell.hasInput).map fun cell =>
      .setInput register.name cell.name cell.input

theorem onlyDrives (machine : Machine) : OnlyDrives machine.drives := by
  intro action listed
  obtain ⟨register, -, inside⟩ := List.mem_flatMap.mp listed
  obtain ⟨cell, -, rfl⟩ := List.mem_map.mp inside
  exact ⟨_, _, _, rfl⟩

/-- Two machines have the same inputs. -/
def SameInputs (layout : Layout) (first second : Machine) : Prop :=
  ∀ placed ∈ layout.registers, ∀ field ∈ placed.register.fields,
    first.input? placed.name field.name = second.input? placed.name field.name

namespace Holds

variable {machine : Machine} {seat : Seat} {cell : Cell}

theorem input? (holds : machine.Holds seat cell) :
    machine.input? seat.register seat.field =
      if cell.hasInput = true then some cell.input else none := by
  unfold Machine.input?
  rw [holds.cell?, Option.filter_some]
  split
  · rfl
  · rfl

/-- A field that starts out reset is after a reset what driving the same input
makes of it. -/
theorem exists_cell_reset (holds : machine.Holds seat cell.reset) {actions drives : List Action}
    (only : OnlyDrives drives)
    (inputs : (machine.after drives).input? seat.register seat.field =
      (machine.after actions).input? seat.register seat.field) :
    ∃ kept, (machine.after actions).reset.cell? seat.register seat.field = some kept ∧
      (machine.after drives).cell? seat.register seat.field = some kept := by
  have left := (holds.after actions).input?
  have right := (holds.after drives).input?
  have input : (cell.reset.after seat actions).input = (cell.reset.after seat drives).input := by
    cases has : cell.reset.hasInput with
    | false =>
      rw [Cell.input_after_of_not_hasInput _ has, Cell.input_after_of_not_hasInput _ has]
    | true =>
      rw [Cell.hasInput_after, if_pos has] at left right
      exact Option.some.inj (left.symm.trans (inputs.symm.trans right))
  refine ⟨_, (holds.after actions).reset.cell?, ?_⟩
  rw [Cell.reset_after_eq _ _ _ only input]
  exact (holds.after drives).cell?

end Holds

end Machine

section Accepted

variable {map : RegisterMap} {layout : Layout} {protocol : Bus.Protocol} {plan : Plan}
  (accepted : Accepted map layout protocol plan)

include accepted

/-- Every field of a machine is what is found under its names. -/
theorem Machine.Reachable.cell?_of_mem {machine : Machine} (reachable : machine.Reachable layout)
    {register : RegisterCell} (listed : register ∈ machine.registers) {cell : Cell}
    (inside : cell ∈ register.cells) :
    machine.cell? register.name cell.name = some cell := by
  have implements := reachable.implements accepted
  obtain ⟨planned, member, kept⟩ := exists_of_mem_right implements.registers listed
  have registers : (machine.registers.map RegisterCell.name).Nodup := by
    rw [implements.names_eq]
    exact accepted.names_nodup
  have cells : (register.cells.map Cell.name).Nodup := by
    rw [map_eq_of_forall₂ (fun _ _ stands => stands.name) kept.cells]
    exact (accepted.sound planned member).names_nodup
  exact (Machine.cell?_eq (find?_of_nodup registers listed) cell.name).trans
    (find?_of_nodup cells inside)

/-- The inputs that are driven are those that there are, to their values. -/
theorem Machine.Reachable.mem_drives_iff {machine : Machine} (reachable : machine.Reachable layout)
    {register field : String} {value : Nat} :
    .setInput register field value ∈ machine.drives ↔
      machine.input? register field = some value := by
  unfold Machine.drives Machine.input?
  simp only [List.mem_flatMap, List.mem_map, List.mem_filter, Option.map_eq_some_iff,
    Option.filter_eq_some_iff, Action.setInput.injEq]
  constructor
  · rintro ⟨found, listed, cell, ⟨inside, has⟩, rfl, rfl, rfl⟩
    exact ⟨cell, ⟨reachable.cell?_of_mem accepted listed inside, has⟩, rfl⟩
  · rintro ⟨cell, ⟨there, has⟩, rfl⟩
    unfold Machine.cell? at there
    obtain ⟨found, here, inside⟩ := Option.bind_eq_some_iff.mp there
    have named := List.find?_some here
    have named' := List.find?_some inside
    rw [beq_iff_eq] at named named'
    exact ⟨found, List.mem_of_find?_eq_some here, cell,
      ⟨List.mem_of_find?_eq_some inside, has⟩, named, named', rfl⟩

/-- Two states of a bank that have the same fields and show the same of the last
read are one. -/
theorem Machine.Reachable.eq_of_sameFields {first second : Machine}
    (reachable : first.Reachable layout) (other : second.Reachable layout)
    (fields : ∀ placed ∈ layout.registers, ∀ field ∈ placed.register.fields,
      SameField placed field first second)
    (data : first.readData = second.readData) (valid : first.readValid = second.readValid) :
    first = second := by
  have left := reachable.implements accepted
  have right := other.implements accepted
  have registers : first.registers = second.registers := by
    refine eq_of_forall₂ ?_
      (forall₂_find? (fun _ _ kept => kept.name) left.registers accepted.names_nodup)
      (forall₂_find? (fun _ _ kept => kept.name) right.registers accepted.names_nodup)
    rintro planned member ⟨name, address, cells⟩ ⟨name', address', cells'⟩ ⟨kept, here⟩
      ⟨kept', here'⟩
    obtain rfl : name = name' := kept.name.trans kept'.name.symm
    obtain rfl : address = address' := kept.address.trans kept'.address.symm
    obtain ⟨placed, listed, rfl⟩ := accepted.exists_placed member
    have names := (accepted.sound _ member).names_nodup
    refine congrArg (RegisterCell.mk name address) (eq_of_forall₂ ?_
      (forall₂_find? (fun _ _ stands => stands.name) kept.cells names)
      (forall₂_find? (fun _ _ stands => stands.name) kept'.cells names))
    rintro fieldPlan inside cell cell' ⟨-, there⟩ ⟨-, there'⟩
    obtain ⟨field, declared, rfl⟩ := List.mem_map.mp inside
    obtain ⟨same, found, found'⟩ := fields placed listed field declared
    have reached := (Machine.cell?_eq here field.name).trans there
    have reached' := (Machine.cell?_eq here' field.name).trans there'
    -- The plan has one field of each name, which is the one both states show.
    have alone : some cell = some same := reached.symm.trans found
    have alone' : some cell' = some same := reached'.symm.trans found'
    exact Option.some.inj (alone.trans alone'.symm)
  cases first
  cases second
  cases left.dataWidth.trans right.dataWidth.symm
  cases left.readFiller.trans right.readFiller.symm
  cases registers
  cases data
  cases valid
  rfl

section Built

variable {machine : Machine} (built : layout.buildMachine = .ok (some (machine, protocol)))

include built

/-- A new machine has every field reset, and no input driven. -/
theorem exists_holds_reset {placed : PlacedRegister} (listed : placed ∈ layout.registers)
    {field : Field} (declared : field ∈ placed.register.fields) :
    ∃ cell : Cell, machine.Holds (Seat.of placed field) cell.reset ∧ cell.input = 0 := by
  rw [accepted.buildMachine] at built
  cases built
  exact ⟨_, holds_make accepted listed declared, rfl⟩

/-- A new machine takes over the inputs of another state. -/
theorem sameInputs_after_drives (actions : List Action) :
    Machine.SameInputs layout (machine.after (machine.after actions).drives)
      (machine.after actions) := by
  intro placed listed field declared
  obtain ⟨cell, holds, blank⟩ := exists_holds_reset accepted built listed declared
  have reachable := (Machine.Reachable.built built).after actions
  have left := (holds.after actions).input?
  have right := (holds.after (machine.after actions).drives).input?
  rw [Cell.hasInput_after] at left right
  refine right.trans (Eq.trans ?_ left.symm)
  cases has : cell.reset.hasInput with
  | false => rfl
  | true =>
    rw [if_pos has] at left
    have undriven : cell.reset.input &&& Bits.ones cell.reset.bits.width = cell.reset.input := by
      rw [show cell.reset.input = 0 from blank, Nat.zero_and]
    have fits := Cell.input_after_fits (Seat.of placed field) undriven actions
    have one (value : Nat)
        (driven : .setInput placed.name field.name value ∈ (machine.after actions).drives) :=
      Option.some.inj (((reachable.mem_drives_iff accepted).mp driven).symm.trans left)
    have driven := (reachable.mem_drives_iff accepted).mpr left
    rw [Cell.input_after_drives (Seat.of placed field) has fits (Machine.onlyDrives _) one
      (.inr driven)]

/-- After a reset, a bank is a new one with the same inputs. -/
theorem reset_eq_of_sameInputs {actions drives : List Action} (only : OnlyDrives drives)
    (inputs : Machine.SameInputs layout (machine.after drives) (machine.after actions)) :
    (machine.after actions).reset = machine.after drives := by
  have start := Machine.Reachable.built built
  have fillers := ((start.after actions).implements accepted).readFiller.trans
    (start.implements accepted).readFiller.symm
  have blank : machine.readData = machine.readFiller ∧ machine.readValid = false := by
    rw [accepted.buildMachine] at built
    cases built
    exact ⟨rfl, rfl⟩
  obtain ⟨registers, driven⟩ := machine.after_setInputs only
  refine (start.after actions).reset.eq_of_sameFields accepted (start.after drives) ?_ ?_ ?_
  · intro placed listed field declared
    obtain ⟨cell, holds, -⟩ := exists_holds_reset accepted built listed declared
    exact holds.exists_cell_reset only (inputs placed listed field declared)
  · rw [driven]
    exact fillers.trans blank.1.symm
  · rw [driven]
    exact blank.2.symm

end Built

end Accepted

/-! ## What is seen later -/

/-- What is seen of a move. -/
inductive Sight where
  | answer (answer : Answer)
  | transaction (transaction : Transaction)
  deriving DecidableEq, Repr

namespace Machine

/-- What is seen of a move. -/
def sight (machine : Machine) : Move → Sight
  | .act action => .answer (machine.act action).1
  | .via protocol transfer => .transaction (machine.transfer protocol transfer).1

/-- What is seen of moves, one after the other. -/
def sights (machine : Machine) : List Move → List Sight
  | [] => []
  | move :: rest => machine.sight move :: (machine.move move).2.sights rest

/-- Nothing that is done to two machines tells them apart. -/
structure Indistinguishable (first second : Machine) : Prop where
  sights : ∀ later, first.sights later = second.sights later
  outputs : ∀ later register field,
    (first.afterMoves later).output? register field =
      (second.afterMoves later).output? register field

end Machine

section Accepted

variable {map : RegisterMap} {layout : Layout} {protocol : Bus.Protocol} {plan : Plan}
  (accepted : Accepted map layout protocol plan)

include accepted

/-- **A reset forgets all history.**  Whatever was done to a bank, after a reset it
answers for ever like a new one in which nothing but the inputs has been driven,
to what they were at the reset.  Driving each input once to its level does so. -/
theorem reset_forgets :
    ∃ machine, layout.buildMachine = .ok (some (machine, protocol)) ∧
      ∀ earlier : List Move,
        (OnlyDrives (machine.afterMoves earlier).drives ∧
          Machine.SameInputs layout (machine.after (machine.afterMoves earlier).drives)
            (machine.afterMoves earlier)) ∧
        ∀ drives, OnlyDrives drives →
          Machine.SameInputs layout (machine.after drives) (machine.afterMoves earlier) →
          Machine.Indistinguishable (machine.afterMoves earlier).reset (machine.after drives) := by
  have built := accepted.buildMachine
  refine ⟨_, built, ?_⟩
  intro earlier
  rw [Machine.afterMoves_eq]
  refine ⟨⟨Machine.onlyDrives _, sameInputs_after_drives accepted built _⟩, ?_⟩
  intro drives only inputs
  rw [reset_eq_of_sameInputs accepted built only inputs]
  exact ⟨fun later => rfl, fun later register field => rfl⟩

end Accepted

/-- Events come in, the key is written, which locks it, and the events are
read. -/
def lockedMoves : List Move :=
  [.act (.setInput "irq" "pending" 6), .via .apb (.write 4 0x77), .via .apb (.read 0)]

/-- The key takes a write again after a reset, and the events are back at their
initial value, while the input stays. -/
theorem reset_forgets_interrupts :
    ∃ machine, interruptLayout.buildMachine = .ok (some (machine, .apb)) ∧
      (machine.afterMoves lockedMoves).drives = [.setInput "irq" "pending" 6] ∧
      Machine.Indistinguishable (machine.afterMoves lockedMoves).reset
        (machine.after [.setInput "irq" "pending" 6]) ∧
      ((machine.afterMoves lockedMoves).move (.via .apb (.write 4 0x1234))).2.output?
        "lock" "key" = some 0x77 ∧
      ((machine.afterMoves lockedMoves).reset.move (.via .apb (.write 4 0x1234))).2.output?
        "lock" "key" = some 0x1234 := by
  obtain ⟨machine, built, forgets⟩ := reset_forgets accepted_interrupts
  obtain ⟨⟨only, inputs⟩, all⟩ := forgets lockedMoves
  have same := all _ only inputs
  rw [accepted_interrupts.buildMachine] at built
  cases built
  exact ⟨_, accepted_interrupts.buildMachine, rfl, same, rfl, rfl⟩

end RegisterBank.Bank
