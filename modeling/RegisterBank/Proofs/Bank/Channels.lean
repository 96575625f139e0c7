import RegisterBank.Proofs.Bank.FieldRequests

/-!
# Separate channels and separate registers

A request writes at one address and reads at another, or leaves a channel
alone.  `Request.onlyAt` is the part of it that goes to a certain address, and
a register sees no other part (`RegisterCell.step_onlyAt`): not in one clock
edge, and so not in a run (`Cell.after_onlyAt`).  With unique addresses, a write
and a read that share a cycle are thus told apart by where they go; the outputs
of the cycle follow the write alone, and the captured word the read alone.
-/

namespace RegisterBank.Bank

/-! ## What a request does at an address -/

namespace Request

/-- Whether some channel of a request goes to an address. -/
def Addresses (request : Request) (address : Nat) : Prop :=
  (∃ write, request.strobedWrite? = some write ∧ write.address = address) ∨
    request.readAddress? = some address

/-- A request with these channels. -/
def ofChannels : Option StrobedWrite → Option Nat → Request
  | none, none => .idle
  | some order, none => .write order.address order.data order.strobe
  | none, some target => .read target
  | some order, some target => .writeRead order.address order.data order.strobe target

/-- The part of a request that goes to an address, with the other channels
idle. -/
def onlyAt (address : Nat) (request : Request) : Request :=
  ofChannels (request.strobedWrite?.filter fun write => write.address == address)
    (request.readAddress?.filter fun target => target == address)

/-- Putting channels together keeps the write. -/
theorem strobedWrite?_ofChannels (write : Option StrobedWrite) (read : Option Nat) :
    (ofChannels write read).strobedWrite? = write := by
  cases write <;> cases read <;> rfl

/-- Putting channels together keeps the read. -/
theorem readAddress?_ofChannels (write : Option StrobedWrite) (read : Option Nat) :
    (ofChannels write read).readAddress? = read := by
  cases write <;> cases read <;> rfl

variable {request : Request} {address : Nat}

/-- A register sees its own writes in what is left for its address. -/
theorem writeAt?_onlyAt (address : Nat) (request : Request) :
    (request.onlyAt address).writeAt? address = request.writeAt? address := by
  unfold writeAt? onlyAt
  rw [write?_eq, write?_eq, strobedWrite?_ofChannels]
  cases request.strobedWrite? with
  | none => rfl
  | some write =>
    by_cases here : (write.address == address) = true
    · rw [Option.filter_some, if_pos here]
    · rw [Option.filter_some, if_neg here, Option.map_some, Option.filter_some]
      exact (if_neg here).symm

/-- A register sees its own reads in what is left for its address. -/
theorem reads_onlyAt (address : Nat) (request : Request) :
    (request.onlyAt address).reads address = request.reads address := by
  unfold reads onlyAt
  rw [readAddress?_ofChannels]
  cases request.readAddress? with
  | none => rfl
  | some target =>
    by_cases here : target = address
    · subst here
      rw [Option.filter_some, if_pos (beq_self_eq_true _)]
    · rw [Option.filter_some, if_neg fun same => here (beq_iff_eq.mp same)]
      exact (beq_false_of_ne fun same => here (Option.some.inj same)).symm

/-- Nothing is left for an address that the request does not name. -/
theorem onlyAt_of_not_addresses (away : ¬ request.Addresses address) :
    request.onlyAt address = .idle := by
  have unwritten : (request.strobedWrite?.filter fun write => write.address == address) = none :=
    Option.filter_eq_none_iff.mpr fun write same here =>
      away (.inl ⟨write, same, beq_iff_eq.mp here⟩)
  have unread : (request.readAddress?.filter fun target => target == address) = none := by
    apply Option.filter_eq_none_iff.mpr
    intro target same here
    rw [beq_iff_eq.mp here] at same
    exact away (.inr same)
  unfold onlyAt
  rw [unwritten, unread]
  rfl

section Apart

variable {target source : Nat} (apart : target ≠ source) (data strobe : Nat)

include apart

/-- Of a write and a read at different addresses, the write is left for its
target. -/
theorem onlyAt_target :
    (writeRead target data strobe source).onlyAt target = .write target data strobe := by
  have unread : ((some source).filter fun other => other == target) = none := by
    rw [Option.filter_some, if_neg fun same => apart (beq_iff_eq.mp same).symm]
  have written : ((some (StrobedWrite.mk target data strobe)).filter
      fun write => write.address == target) = some ⟨target, data, strobe⟩ :=
    if_pos (beq_self_eq_true target)
  unfold onlyAt strobedWrite? readAddress?
  rw [unread, written]
  rfl

/-- Of a write and a read at different addresses, the read is left for its
source. -/
theorem onlyAt_source :
    (writeRead target data strobe source).onlyAt source = .read source := by
  have unwritten : ((some (StrobedWrite.mk target data strobe)).filter
      fun write => write.address == source) = none :=
    if_neg fun same => apart (beq_iff_eq.mp same)
  have read : ((some source).filter fun other => other == source) = some source :=
    if_pos (beq_self_eq_true source)
  unfold onlyAt strobedWrite? readAddress?
  rw [unwritten, read]
  rfl

end Apart

end Request

/-- The part of an action that a register at an address sees. -/
def Action.onlyAt (address : Nat) : Action → Action
  | .cycle request => .cycle (request.onlyAt address)
  | .setInput register field value => .setInput register field value
  | .reset => .reset

/-! ## Registers see no other part -/

/-- A register steps by what is addressed to it. -/
theorem RegisterCell.step_onlyAt (register : RegisterCell) (request : Request) :
    register.step (request.onlyAt register.address) = register.step request := by
  have write : register.write? (request.onlyAt register.address) = register.write? request :=
    request.writeAt?_onlyAt register.address
  have read : register.isRead (request.onlyAt register.address) = register.isRead request :=
    request.reads_onlyAt register.address
  unfold RegisterCell.step
  rw [write, read]

/-- A cell acts by what is addressed to its register. -/
theorem Cell.act_onlyAt (seat : Seat) (cell : Cell) (action : Action) :
    cell.act seat (action.onlyAt seat.address) = cell.act seat action := by
  cases action with
  | cycle request =>
    have read : ((request.onlyAt seat.address).readAddress? == some seat.address) =
        (request.readAddress? == some seat.address) := request.reads_onlyAt seat.address
    unfold Cell.act Action.onlyAt
    dsimp only
    rw [request.writeAt?_onlyAt, read]
  | setInput register field value => rfl
  | reset => rfl

/-- A run does the same to a field as what of it goes to its register. -/
theorem Cell.after_onlyAt (seat : Seat) (cell : Cell) (actions : List Action) :
    cell.after seat (actions.map (Action.onlyAt seat.address)) = cell.after seat actions := by
  induction actions generalizing cell with
  | nil => rfl
  | cons action rest ih =>
    unfold Cell.after at ih ⊢
    rw [List.map_cons, List.foldl_cons, List.foldl_cons, cell.act_onlyAt]
    exact ih _

/-! ## Isolated registers -/

/-- A field has the same state in two machines. -/
def SameField (placed : PlacedRegister) (field : Field) (first second : Machine) : Prop :=
  ∃ cell, first.cell? placed.name field.name = some cell ∧
    second.cell? placed.name field.name = some cell

/-- What a clock cycle of a bank keeps apart. -/
structure Isolates (layout : Layout) (machine : Machine) : Prop where
  /-- Where a request does not go, the cycle is an idle one. -/
  unaddressed : ∀ request, ∀ placed ∈ layout.registers, ¬ request.Addresses placed.address →
    ∀ field ∈ placed.register.fields,
      SameField placed field (machine.cycle request).2 (machine.cycle .idle).2
  unmapped : ∀ request, (∀ placed ∈ layout.registers, ¬ request.Addresses placed.address) →
    (machine.cycle request).2.registers = (machine.cycle .idle).2.registers
  written : ∀ target data strobe source, target ≠ source →
    ∀ placed ∈ layout.registers, placed.address = target → ∀ field ∈ placed.register.fields,
      SameField placed field (machine.cycle (.writeRead target data strobe source)).2
        (machine.cycle (.write target data strobe)).2
  read : ∀ target data strobe source, target ≠ source →
    ∀ placed ∈ layout.registers, placed.address = source → ∀ field ∈ placed.register.fields,
      SameField placed field (machine.cycle (.writeRead target data strobe source)).2
        (machine.cycle (.read source)).2
  /-- What a cycle shows follows the write alone, … -/
  outputs : ∀ target data strobe source,
    (machine.cycle (.writeRead target data strobe source)).1.outputs =
      (machine.cycle (.write target data strobe)).1.outputs
  /-- … and what it captures the read alone. -/
  captured : ∀ target data strobe source,
    (machine.cycle (.writeRead target data strobe source)).2.readData =
        (machine.cycle (.read source)).2.readData ∧
      (machine.cycle (.writeRead target data strobe source)).2.readValid =
        (machine.cycle (.read source)).2.readValid

section Accepted

variable {map : RegisterMap} {layout : Layout} {protocol : Bus.Protocol} {plan : Plan}
  (accepted : Accepted map layout protocol plan)

include accepted

/-- A cycle does the same to a register's fields as what of its request goes
there. -/
theorem sameField_onlyAt {placed : PlacedRegister} (listed : placed ∈ layout.registers)
    {field : Field} (declared : field ∈ placed.register.fields) (actions : List Action)
    (request : Request) :
    SameField placed field
      (((Machine.make plan layout.dataWidth layout.config.readFiller).after actions).cycle
        request).2
      (((Machine.make plan layout.dataWidth layout.config.readFiller).after actions).cycle
        (request.onlyAt placed.address)).2 := by
  have holds := (holds_make accepted listed declared).after actions
  have restricted := (holds.step (request.onlyAt placed.address)).cell?
  have same := Cell.act_onlyAt (Seat.of placed field)
    ((Cell.ofPlan (planField layout.config placed.register field)).reset.after
      (Seat.of placed field) actions) (.cycle request)
  exact ⟨_, (holds.step request).cell?, restricted.trans (congrArg some same)⟩

/-- Where no register is addressed, no register sees the request. -/
theorem registers_cycle_of_unmapped {machine : Machine} (reachable : machine.Reachable layout)
    {request : Request}
    (unmapped : ∀ placed ∈ layout.registers, ¬ request.Addresses placed.address) :
    (machine.cycle request).2.registers = (machine.cycle .idle).2.registers := by
  have kept := (reachable.implements accepted).registers
  show machine.registers.map (fun register => register.step request) =
    machine.registers.map fun register => register.step .idle
  apply List.map_congr_left
  intro register here
  obtain ⟨planned, listed, stands⟩ := exists_of_mem_right kept here
  obtain ⟨placed, declared, rfl⟩ := accepted.exists_placed listed
  have away := unmapped placed declared
  rw [show placed.address = register.address from stands.address.symm] at away
  rw [← register.step_onlyAt request, Request.onlyAt_of_not_addresses away]

/-- After any actions each field is where its own share of them leads. -/
theorem isolates (actions : List Action) :
    Isolates layout
      ((Machine.make plan layout.dataWidth layout.config.readFiller).after actions) := by
  constructor
  case unaddressed =>
    intro request placed listed away field declared
    rw [← Request.onlyAt_of_not_addresses away]
    exact sameField_onlyAt accepted listed declared actions request
  case unmapped =>
    intro request unmapped
    have reachable := (Machine.Reachable.built accepted.buildMachine).after actions
    exact registers_cycle_of_unmapped accepted reachable unmapped
  case written =>
    intro target data strobe source apart placed listed here field declared
    subst here
    rw [← Request.onlyAt_target apart data strobe]
    exact sameField_onlyAt accepted listed declared actions _
  case read =>
    intro target data strobe source apart placed listed here field declared
    subst here
    rw [← Request.onlyAt_source apart data strobe]
    exact sameField_onlyAt accepted listed declared actions _
  case outputs =>
    intro target data strobe source
    rfl
  case captured =>
    intro target data strobe source
    exact ⟨rfl, rfl⟩

/-- **Registers and channels of a bank do not disturb each other.**  In every
state, what a request does to a register is what the part of it does that goes
to the register's address; so the rest of a run makes no difference to its
fields either. -/
theorem channels_isolated :
    ∃ machine, layout.buildMachine = .ok (some (machine, protocol)) ∧
      ∀ actions, Isolates layout (machine.after actions) ∧
        ∀ placed ∈ layout.registers, ∀ field ∈ placed.register.fields,
          SameField placed field (machine.after actions)
            (machine.after (actions.map (Action.onlyAt placed.address))) := by
  refine ⟨_, accepted.buildMachine, ?_⟩
  intro actions
  refine ⟨isolates accepted actions, ?_⟩
  intro placed listed field declared
  have holds := holds_make accepted listed declared
  have restricted := holds.after (actions.map (Action.onlyAt placed.address))
  have same := Cell.after_onlyAt (Seat.of placed field)
    (Cell.ofPlan (planField layout.config placed.register field)).reset actions
  exact ⟨_, (holds.after actions).cell?, restricted.cell?.trans (congrArg some same)⟩

end Accepted

/-- The mask is written while the key is read, and then the other way round,
with events that pile up meanwhile. -/
def crossedActions : List Action :=
  [.setInput "irq" "pending" 6, .cycle (.writeRead 0 0x5a000 15 4),
    .cycle (.writeRead 4 0x77 3 0)]

/-- Two registers under a mix of both channels, each with its share written
out. -/
theorem channels_isolated_interrupts :
    ∃ machine, interruptLayout.buildMachine = .ok (some (machine, .apb)) ∧
      Isolates interruptLayout (machine.after crossedActions) ∧
      crossedActions.map (Action.onlyAt 0) =
        [.setInput "irq" "pending" 6, .cycle (.write 0 0x5a000 15), .cycle (.read 0)] ∧
      crossedActions.map (Action.onlyAt 4) =
        [.setInput "irq" "pending" 6, .cycle (.read 4), .cycle (.write 4 0x77 3)] ∧
      (machine.after crossedActions).output? "irq" "mask" = some 0x5a ∧
      (machine.after crossedActions).output? "irq" "pending" = some 6 ∧
      (machine.after crossedActions).output? "lock" "key" = some 0x77 := by
  obtain ⟨machine, built, isolated⟩ := channels_isolated accepted_interrupts
  refine ⟨machine, built, (isolated crossedActions).1, rfl, rfl, ?_⟩
  rw [accepted_interrupts.buildMachine] at built
  cases built
  exact ⟨rfl, rfl, rfl⟩

end RegisterBank.Bank
