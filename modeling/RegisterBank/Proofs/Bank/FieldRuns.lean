import RegisterBank.Proofs.Bank.ReadWord
import RegisterBank.Proofs.Bank.Transfers

/-!
# One field along a run

What becomes of a field in a run depends on the field alone: on the cycles that
write or read its register, on the levels driven at its own input, and on
resets.  `Seat` says where a field is found in a machine, `Machine.Holds` that
the cell there is a certain one, and `Cell.act` what an action does to it.
`Machine.Holds.after` follows the cell through a run of the whole machine, so
that a law about the runs of a field is one about a single cell.
-/

namespace RegisterBank.Bank

/-! ## First elements that pass a test -/

section ChangeFirst

variable {α : Type} {test other : α → Bool} {change : α → α}

theorem find?_changeFirst (change : α → α)
    (keeps : ∀ element, test element = true → test (change element) = true) (elements : List α) :
    (Machine.changeFirst test change elements).find? test = (elements.find? test).map change := by
  induction elements with
  | nil => rfl
  | cons first rest ih =>
    unfold Machine.changeFirst
    cases passes : test first with
    | true =>
      rw [if_pos rfl, List.find?_cons_of_pos (keeps first passes), List.find?_cons_of_pos passes]
      rfl
    | false =>
      rw [if_neg Bool.false_ne_true, List.find?_cons_of_neg (ne_true_of_eq_false passes),
        List.find?_cons_of_neg (ne_true_of_eq_false passes), ih]

/-- A change of an element that another search passes over, before the change
and after it, is not seen by that search. -/
theorem find?_changeFirst_of_passed
    (passed : ∀ element, test element = true →
      other element = false ∧ other (change element) = false) (elements : List α) :
    (Machine.changeFirst test change elements).find? other = elements.find? other := by
  induction elements with
  | nil => rfl
  | cons first rest ih =>
    unfold Machine.changeFirst
    cases passes : test first with
    | true =>
      obtain ⟨before, after⟩ := passed first passes
      rw [if_pos rfl, List.find?_cons_of_neg (ne_true_of_eq_false after),
        List.find?_cons_of_neg (ne_true_of_eq_false before)]
    | false => rw [if_neg Bool.false_ne_true, List.find?_cons, List.find?_cons, ih]

end ChangeFirst

/-- A first element that a filter keeps is the first of what it keeps. -/
theorem find?_filter_of_find? {α : Type} {test : α → Bool} {elements : List α} {first : α}
    (found : elements.find? test = some first) (keep : α → Bool) (kept : keep first = true) :
    (elements.filter keep).find? test = some first := by
  obtain ⟨passes, before, after, split, others⟩ := List.find?_eq_some_iff_append.mp found
  refine List.find?_eq_some_iff_append.mpr
    ⟨passes, before.filter keep, after.filter keep, ?_, ?_⟩
  · rw [split, List.filter_append, List.filter_cons_of_pos kept]
  · exact fun other listed => others other (List.mem_filter.mp listed).1

/-! ## Seats -/

/-- Where a field is found: its register's name and address, and its own
name. -/
structure Seat where
  register : String
  address : Nat
  field : String
  deriving DecidableEq, Repr

/-- What an action does to the cell at a seat. -/
def Cell.act (seat : Seat) (cell : Cell) : Action → Cell
  | .cycle request =>
    cell.step (request.writeAt? seat.address) (request.readAddress? == some seat.address)
  | .setInput register field value =>
    if register = seat.register ∧ field = seat.field ∧ cell.hasInput = true then cell.drive value
    else cell
  | .reset => cell.reset

/-- The cell at a seat after actions. -/
def Cell.after (seat : Seat) (cell : Cell) (actions : List Action) : Cell :=
  actions.foldl (Cell.act seat) cell

/-- The machine finds the cell at the seat. -/
def Machine.Holds (machine : Machine) (seat : Seat) (cell : Cell) : Prop :=
  ∃ found : RegisterCell,
    machine.registers.find? (fun other => other.name == seat.register) = some found ∧
      found.address = seat.address ∧
      found.cells.find? (fun other => other.name == seat.field) = some cell

namespace Machine.Holds

variable {machine : Machine} {seat : Seat} {cell : Cell}

theorem cell? (holds : machine.Holds seat cell) :
    machine.cell? seat.register seat.field = some cell := by
  rcases holds with ⟨found, here, -, there⟩
  exact (Machine.cell?_eq here _).trans there

theorem output? (holds : machine.Holds seat cell) :
    machine.output? seat.register seat.field = some cell.value := by
  unfold Machine.output?
  rw [holds.cell?]
  rfl

/-- The port of an output shows what its cell puts out. -/
theorem observe_output? (holds : machine.Holds seat cell)
    (output : cell.template.direction = .output) (request : Request) :
    (machine.observe request).output? seat.register seat.field =
      some (cell.output (request.writeAt? seat.address)) := by
  rcases holds with ⟨found, here, address, there⟩
  obtain ⟨named, before, after, registers, others⟩ := List.find?_eq_some_iff_append.mp here
  rw [beq_iff_eq] at named
  -- Registers of other names show nothing under the names of the seat.
  have passed : before.findSome? (fun register => (register.outputs request).find?
      fun shown => shown.1 == (seat.register, seat.field)) = none := by
    rw [List.findSome?_eq_none_iff]
    intro register listed
    have other := others register listed
    rw [List.find?_eq_none]
    intro shown inside same
    obtain ⟨cell, -, rfl⟩ := List.mem_map.mp inside
    have both := (Prod.mk.injEq _ _ _ _).mp (beq_iff_eq.mp same)
    rw [both.1, beq_self_eq_true] at other
    cases other
  have shown : (found.outputs request).find? (fun shown =>
      shown.1 == (seat.register, seat.field)) =
        some ((found.name, cell.name), cell.output (found.write? request)) := by
    have first := find?_filter_of_find? there (fun cell => cell.template.direction == .output)
      (beq_iff_eq.mpr output)
    have keys : ((fun shown : (String × String) × Nat => shown.1 == (seat.register, seat.field)) ∘
        fun cell : Cell => ((found.name, cell.name), cell.output (found.write? request))) =
          fun cell => cell.name == seat.field := by
      funext other
      show ((found.name, other.name) == (seat.register, seat.field)) = _
      rw [named, Bool.eq_iff_iff, beq_iff_eq, beq_iff_eq, Prod.mk.injEq]
      exact and_iff_right rfl
    unfold RegisterCell.outputs
    rw [List.find?_map, keys, first]
    rfl
  unfold Trace.output? observe
  dsimp only
  rw [List.find?_flatMap, registers, List.findSome?_append, passed, Option.none_or,
    List.findSome?_cons, shown]
  unfold RegisterCell.write?
  rw [address]
  rfl

theorem step (holds : machine.Holds seat cell) (request : Request) :
    (machine.step request).Holds seat (cell.act seat (.cycle request)) := by
  rcases holds with ⟨found, here, address, there⟩
  refine ⟨found.step request, ?_, address, ?_⟩
  · dsimp only [Machine.step]
    rw [List.find?_map]
    exact congrArg (Option.map fun register => register.step request) here
  · dsimp only [RegisterCell.step]
    have names : ((fun other : Cell => other.name == seat.field) ∘ fun cell : Cell =>
        cell.step (found.write? request) (found.isRead request)) =
          fun other : Cell => other.name == seat.field := by
      funext other
      obtain ⟨value, selfClear, writeOnce, same⟩ :=
        other.step_frame (found.write? request) (found.isRead request)
      dsimp only [Function.comp_apply]
      rw [same]
    rw [List.find?_map, names, there]
    unfold RegisterCell.write? RegisterCell.isRead
    rw [address]
    rfl

theorem reset (holds : machine.Holds seat cell) : machine.reset.Holds seat cell.reset := by
  rcases holds with ⟨found, here, address, there⟩
  refine ⟨{ found with cells := found.cells.map Cell.reset }, ?_, address, ?_⟩
  · dsimp only [Machine.reset]
    rw [List.find?_map]
    exact congrArg (Option.map fun register =>
      ({ register with cells := register.cells.map Cell.reset } : RegisterCell)) here
  · rw [List.find?_map]
    exact congrArg (Option.map Cell.reset) there

/-- Driving an input changes the cell at the seat if the names are those of the
seat, and no cell that the seat is about otherwise. -/
theorem drive (holds : machine.Holds seat cell) (register field : String) (value : Nat) :
    ({ machine with
      registers := Machine.changeFirst (fun other => other.name == register)
        (fun found =>
          { found with
            cells := Machine.changeFirst (fun cell => cell.name == field)
              (fun cell => cell.drive value) found.cells })
        machine.registers } : Machine).Holds seat
      (if register = seat.register ∧ field = seat.field then cell.drive value else cell) := by
  rcases holds with ⟨found, here, address, there⟩
  by_cases sameRegister : register = seat.register
  · subst sameRegister
    refine ⟨{ found with
      cells := Machine.changeFirst (fun cell => cell.name == field)
        (fun cell => cell.drive value) found.cells }, ?_, address, ?_⟩
    · refine (find?_changeFirst _ ?_ machine.registers).trans ?_
      · exact fun _ named => named
      · rw [here]
        rfl
    · by_cases sameField : field = seat.field
      · subst sameField
        rw [if_pos ⟨rfl, rfl⟩]
        refine (find?_changeFirst _ ?_ found.cells).trans ?_
        · exact fun _ named => named
        · rw [there]
          rfl
      · rw [if_neg fun both => sameField both.2]
        refine (find?_changeFirst_of_passed ?_ found.cells).trans there
        intro other named
        rw [beq_iff_eq] at named
        have passed : (other.name == seat.field) = false := by
          rw [named]
          exact beq_false_of_ne sameField
        exact ⟨passed, passed⟩
  · -- The change lands in another register, which the search for this one passes over.
    refine ⟨found, ?_, address, ?_⟩
    · rw [find?_changeFirst_of_passed, here]
      intro other named
      rw [beq_iff_eq] at named
      have passed : (other.name == seat.register) = false := by
        rw [named]
        exact beq_false_of_ne sameRegister
      exact ⟨passed, passed⟩
    · rw [if_neg fun both => sameRegister both.1]
      exact there

theorem setInput (holds : machine.Holds seat cell) (register field : String) (value : Nat) :
    (machine.act (.setInput register field value)).2.Holds seat
      (cell.act seat (.setInput register field value)) := by
  have driven := holds.drive register field value
  dsimp only [Machine.act, Cell.act]
  unfold Machine.setInput?
  cases input : (machine.cell? register field).any Cell.hasInput with
  | true =>
    rw [if_pos rfl]
    by_cases own : register = seat.register ∧ field = seat.field
    · obtain ⟨rfl, rfl⟩ := own
      rw [holds.cell?] at input
      have has : cell.hasInput = true := input
      rw [if_pos ⟨rfl, rfl⟩] at driven
      rw [if_pos ⟨rfl, rfl, has⟩]
      exact driven
    · rw [if_neg own] at driven
      rw [if_neg fun all => own ⟨all.1, all.2.1⟩]
      exact driven
  | false =>
    rw [if_neg Bool.false_ne_true]
    have lacking : ¬ (register = seat.register ∧ field = seat.field ∧ cell.hasInput = true) := by
      rintro ⟨rfl, rfl, has⟩
      rw [holds.cell?] at input
      rw [show (some cell).any Cell.hasInput = cell.hasInput from rfl, has] at input
      cases input
    rw [if_neg lacking]
    exact holds

/-- A field's cell follows the actions on the machine. -/
theorem act (holds : machine.Holds seat cell) (action : Action) :
    (machine.act action).2.Holds seat (cell.act seat action) := by
  cases action with
  | cycle request => exact holds.step request
  | setInput register field value => exact holds.setInput register field value
  | reset => exact holds.reset

theorem after (holds : machine.Holds seat cell) (actions : List Action) :
    (machine.after actions).Holds seat (cell.after seat actions) := by
  induction actions generalizing machine cell with
  | nil => exact holds
  | cons action rest ih => exact ih (holds.act action)

end Machine.Holds

/-! ## The fields of an accepted layout -/

/-- Where a field of a register is found. -/
def Seat.of (placed : PlacedRegister) (field : Field) : Seat :=
  ⟨placed.name, placed.address, field.name⟩

section Accepted

variable {map : RegisterMap} {layout : Layout} {protocol : Bus.Protocol} {plan : Plan}
  (accepted : Accepted map layout protocol plan) {placed : PlacedRegister}
  (listed : placed ∈ layout.registers) {field : Field} (declared : field ∈ placed.register.fields)

include accepted listed

theorem Accepted.planRegister_mem : planRegister layout.config placed ∈ plan.registers := by
  rw [accepted.plan_eq.1]
  exact List.mem_map_of_mem listed

include declared

theorem Accepted.field_valid : field.Valid :=
  (accepted.built.valid.registers placed.register (accepted.register_mem listed)).fields field
    declared

/-- Right after construction, a field's cell is that of its plan, reset. -/
theorem holds_make :
    (Machine.make plan layout.dataWidth layout.config.readFiller).Holds (Seat.of placed field)
      (Cell.ofPlan (planField layout.config placed.register field)).reset := by
  have planned := accepted.planRegister_mem listed
  have member := planField_mem layout.config declared
  have names := (accepted.sound _ planned).names_nodup
  have found := find?_of_nodup accepted.names_nodup planned
  have cell := find?_of_nodup names member
  refine ⟨⟨placed.name, placed.address,
    ((planRegister layout.config placed).fields.map Cell.ofPlan).map Cell.reset⟩, ?_, rfl, ?_⟩
  · dsimp only [Machine.make, Machine.reset]
    rw [List.find?_map, List.find?_map, Option.map_map]
    exact congrArg (Option.map fun register : RegisterPlan =>
      (⟨register.name, register.placed.address,
        (register.fields.map Cell.ofPlan).map Cell.reset⟩ : RegisterCell)) found
  · rw [List.find?_map, List.find?_map, Option.map_map]
    exact congrArg (Option.map fun plan : FieldPlan => (Cell.ofPlan plan).reset) cell

end Accepted

/-- What a read gives for a field is the read value of its cell. -/
theorem Machine.Holds.fieldValue {machine : Machine} {placed : PlacedRegister} {field : Field}
    {cell : Cell} (holds : machine.Holds (Seat.of placed field) cell) (config : Configuration) :
    machine.fieldValue (planRegister config placed) (planField config placed.register field) =
      cell.readValue :=
  congrArg (fun found : Option Cell => (found.map Cell.readValue).getD 0) holds.cell?

/-- Reading a register gives a readable field the read value of its cell. -/
theorem Machine.Holds.extract_readWord {map : RegisterMap} {layout : Layout}
    {protocol : Bus.Protocol} {plan : Plan} (accepted : Accepted map layout protocol plan)
    {placed : PlacedRegister} (listed : placed ∈ layout.registers) {field : Field}
    (declared : field ∈ placed.register.fields) {machine : Machine} {cell : Cell}
    (holds : machine.Holds (Seat.of placed field) cell) (reachable : machine.Reachable layout)
    (readable : readsBack field = true) :
    Bits.extract (machine.readWord placed.address) field.bits.lsb field.bits.width =
      cell.readValue := by
  have planned := accepted.planRegister_mem listed
  have member := planField_mem layout.config declared
  have implements := reachable.implements accepted
  exact (Bank.extract_readWord accepted implements planned member readable).trans
    (holds.fieldValue layout.config)

end RegisterBank.Bank
