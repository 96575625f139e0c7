import RegisterBank.Bank.Transaction
import RegisterBank.Proofs.Bank.Runs

/-!
# Runs over a bus

A machine is driven cycle by cycle, or through the driver of a bus family.  A
transfer of a driver is a run of clock cycles as well: one of them, the strobe,
carries the transfer's request, and the others are idle
(`Machine.transfer_snd`, `Transfer.count_strobe`).  So whatever holds along
actions holds along moves, which are actions and transfers in any order.
-/

namespace RegisterBank.Bank

open RegisterBank.Bus (Phase Protocol)

/-! ## The machine after actions -/

/-- The machine after actions, one after the other. -/
def Machine.after (machine : Machine) (actions : List Action) : Machine :=
  actions.foldl (fun machine action => (machine.act action).2) machine

namespace Machine

variable {layout : Layout} {machine : Machine}

theorem after_cons (machine : Machine) (action : Action) (rest : List Action) :
    machine.after (action :: rest) = (machine.act action).2.after rest :=
  rfl

theorem after_append (machine : Machine) (first second : List Action) :
    machine.after (first ++ second) = (machine.after first).after second :=
  List.foldl_append

/-- Driving an input changes registers only. -/
theorem act_setInput (machine : Machine) (register field : String) (value : Nat) :
    ∃ registers,
      (machine.act (.setInput register field value)).2 = { machine with registers } := by
  dsimp only [act]
  unfold setInput?
  cases (machine.cell? register field).any Cell.hasInput with
  | true => exact ⟨_, rfl⟩
  | false => exact ⟨machine.registers, rfl⟩

/-- Driving inputs changes registers only. -/
theorem after_setInputs (machine : Machine) {drives : List Action}
    (only : ∀ action ∈ drives, ∃ register field value, action = .setInput register field value) :
    ∃ registers, machine.after drives = { machine with registers } := by
  induction drives generalizing machine with
  | nil => exact ⟨machine.registers, rfl⟩
  | cons action rest ih =>
    obtain ⟨⟨register, field, value, rfl⟩, others⟩ := List.forall_mem_cons.mp only
    obtain ⟨driven, here⟩ := machine.act_setInput register field value
    obtain ⟨registers, later⟩ := ih { machine with registers := driven } others
    refine ⟨registers, ?_⟩
    rw [after_cons, here, later]

theorem act_dataWidth (machine : Machine) (action : Action) :
    (machine.act action).2.dataWidth = machine.dataWidth := by
  cases action with
  | cycle request => rfl
  | reset => rfl
  | setInput register field value =>
    obtain ⟨registers, driven⟩ := machine.act_setInput register field value
    rw [driven]

theorem after_dataWidth (machine : Machine) (actions : List Action) :
    (machine.after actions).dataWidth = machine.dataWidth := by
  induction actions generalizing machine with
  | nil => rfl
  | cons action rest ih => exact (ih _).trans (machine.act_dataWidth action)

theorem Reachable.act (reachable : machine.Reachable layout) (action : Action) :
    (machine.act action).2.Reachable layout := by
  cases action with
  | cycle request => exact reachable.cycle request
  | reset => exact reachable.reset
  | setInput register field value =>
    dsimp only [Machine.act]
    cases driven : machine.setInput? register field value with
    | none => exact reachable
    | some next => exact reachable.setInput driven

/-- Actions lead from reachable machines to reachable ones. -/
theorem Reachable.after (reachable : machine.Reachable layout) (actions : List Action) :
    (machine.after actions).Reachable layout := by
  induction actions generalizing machine with
  | nil => exact reachable
  | cons action rest ih => exact ih (reachable.act action)

end Machine

/-! ## Transfers -/

/-- A transaction that the driver of a bus family carries out. -/
inductive Transfer where
  | read (address : Nat)
  /-- A write of the strobed bytes. -/
  | writeStrobed (address data strobe : Nat)
  /-- A write of all bytes. -/
  | write (address data : Nat)
  deriving DecidableEq, Repr

/-- What is seen of a transfer, and the machine after it. -/
def Machine.transfer (machine : Machine) (protocol : Protocol) : Transfer → Transaction × Machine
  | .read address => machine.read protocol address
  | .writeStrobed address data strobe => machine.writeStrobed protocol address data strobe
  | .write address data => machine.write protocol address data

namespace Transfer

/-- The request that a transfer makes on a data bus. -/
def request (dataWidth : Nat) : Transfer → Request
  | .read address => .read address
  | .writeStrobed address data strobe => .write address data strobe
  | .write address data => .write address data (Bits.ones (dataWidth / 8))

/-- The cycles that a transfer takes. -/
def phases (protocol : Protocol) : Transfer → List Phase
  | .read _ => protocol.readPhases
  | .writeStrobed _ _ _ | .write _ _ => protocol.writePhases

/-- What a cycle of a transfer asks for. -/
def ask (request : Request) (phase : Phase) : Action :=
  .cycle (if phase = .strobe then request else .idle)

theorem ask_of_ne {request : Request} {phase : Phase} (quiet : phase ≠ .strobe) :
    ask request phase = .cycle .idle := by
  unfold ask
  rw [if_neg quiet]

/-- The cycles of a transfer as actions. -/
def actions (protocol : Protocol) (dataWidth : Nat) (transfer : Transfer) : List Action :=
  (transfer.phases protocol).map (ask (transfer.request dataWidth))

/-- The request is made once. -/
theorem count_strobe (protocol : Protocol) (transfer : Transfer) :
    (transfer.phases protocol).count .strobe = 1 := by
  cases transfer <;> cases protocol <;> rfl

end Transfer

namespace Machine

/-- A driver does nothing but give requests. -/
theorem runPhases_snd (request : Request) (isRead : Bool) (phases : List Phase)
    (machine : Machine) :
    (runPhases request isRead phases machine).2 =
      machine.after (phases.map (Transfer.ask request)) := by
  induction phases generalizing machine with
  | nil => rfl
  | cons phase rest ih => exact ih _

/-- A transfer is a run of clock cycles. -/
theorem transfer_snd (machine : Machine) (protocol : Protocol) (transfer : Transfer) :
    (machine.transfer protocol transfer).2 =
      machine.after (transfer.actions protocol machine.dataWidth) := by
  cases transfer with
  | read address => exact runPhases_snd _ _ _ _
  | writeStrobed address data strobe => exact runPhases_snd _ _ _ _
  | write address data => exact runPhases_snd _ _ _ _

end Machine

/-! ## Traces -/

/-- What is seen of requests, one cycle each. -/
def Machine.traces (machine : Machine) : List Request → List Trace
  | [] => []
  | request :: rest => (machine.cycle request).1 :: (machine.cycle request).2.traces rest

/-- The requests of the cycles that a transfer takes. -/
def Transfer.requests (protocol : Protocol) (dataWidth : Nat) (transfer : Transfer) :
    List Request :=
  (transfer.phases protocol).map fun phase =>
    if phase = .strobe then transfer.request dataWidth else .idle

theorem Transfer.actions_eq (protocol : Protocol) (dataWidth : Nat) (transfer : Transfer) :
    transfer.actions protocol dataWidth =
      (transfer.requests protocol dataWidth).map Action.cycle := by
  unfold actions requests
  rw [List.map_map]
  rfl

namespace Machine

theorem traces_append (machine : Machine) (first second : List Request) :
    machine.traces (first ++ second) =
      machine.traces first ++ (machine.after (first.map Action.cycle)).traces second := by
  induction first generalizing machine with
  | nil => rfl
  | cons request rest ih => exact congrArg (List.cons _) (ih _)

/-- The driver records the trace of each cycle. -/
theorem runPhases_cycles (request : Request) (isRead : Bool) (phases : List Phase)
    (machine : Machine) :
    (runPhases request isRead phases machine).1.cycles =
      machine.traces (phases.map fun phase => if phase = .strobe then request else .idle) := by
  induction phases generalizing machine with
  | nil => rfl
  | cons phase rest ih => exact congrArg (List.cons _) (ih _)

/-- The cycle after a read shows the word from before the read, whatever is
driven in between. -/
theorem observe_after_read (machine : Machine) {request : Request} {address : Nat}
    (read : request.readAddress? = some address) {drives : List Action}
    (only : ∀ action ∈ drives, ∃ register field value, action = .setInput register field value)
    (later : Request) :
    ((machine.after (.cycle request :: drives)).cycle later).1.readValid = true ∧
      ((machine.after (.cycle request :: drives)).cycle later).1.readData =
        machine.readWord address := by
  obtain ⟨registers, driven⟩ := (machine.step request).after_setInputs only
  have after : machine.after (.cycle request :: drives) =
      { machine.step request with registers } := driven
  rw [after]
  unfold step
  rw [read]
  exact ⟨rfl, rfl⟩

/-- What is seen of a transfer is what is seen of its requests. -/
theorem transfer_cycles (machine : Machine) (protocol : Protocol) (transfer : Transfer) :
    (machine.transfer protocol transfer).1.cycles =
      machine.traces (transfer.requests protocol machine.dataWidth) := by
  cases transfer with
  | read address => exact runPhases_cycles _ _ _ _
  | writeStrobed address data strobe => exact runPhases_cycles _ _ _ _
  | write address data => exact runPhases_cycles _ _ _ _

/-- What is seen of a transfer and of requests after it. -/
theorem transfer_traces (machine : Machine) (protocol : Protocol) (transfer : Transfer)
    (later : List Request) :
    (machine.transfer protocol transfer).1.cycles ++
        (machine.transfer protocol transfer).2.traces later =
      machine.traces (transfer.requests protocol machine.dataWidth ++ later) := by
  rw [transfer_cycles, transfer_snd, Transfer.actions_eq, traces_append]

end Machine

/-- Phases without a strobe make for idle cycles. -/
theorem map_request_quiet (request : Request) {phases : List Phase}
    (quiet : .strobe ∉ phases) :
    (phases.map fun phase => if phase = .strobe then request else .idle) =
      List.replicate phases.length .idle := by
  rw [List.eq_replicate_iff, List.length_map]
  refine ⟨rfl, ?_⟩
  intro asked listed
  obtain ⟨phase, member, rfl⟩ := List.mem_map.mp listed
  have other : phase ≠ .strobe := ne_of_mem_of_not_mem member quiet
  exact if_neg other

/-- A transfer carries its request in one cycle and is idle in the others. -/
theorem Transfer.exists_requests (protocol : Protocol) (dataWidth : Nat) (transfer : Transfer) :
    ∃ before after, transfer.requests protocol dataWidth =
      List.replicate before .idle ++ transfer.request dataWidth :: List.replicate after .idle := by
  have once := transfer.count_strobe protocol
  have strobed : .strobe ∈ transfer.phases protocol :=
    List.count_pos_iff.mp (once.symm ▸ Nat.one_pos)
  obtain ⟨before, after, split, quiet⟩ := List.eq_append_cons_of_mem strobed
  rw [split, List.count_append, List.count_eq_zero.mpr quiet, List.count_cons_self] at once
  have quiet' : .strobe ∉ after := List.count_eq_zero.mp (by omega)
  refine ⟨before.length, after.length, ?_⟩
  unfold requests
  rw [split, List.map_append, List.map_cons, map_request_quiet _ quiet,
    map_request_quiet _ quiet', if_pos rfl]

/-! ## Moves -/

/-- What is done to a machine: an action, or a transfer through the driver of a
bus family. -/
inductive Move where
  | act (action : Action)
  | via (protocol : Protocol) (transfer : Transfer)
  deriving DecidableEq, Repr

/-- The actions that a move is made of. -/
def Move.actions (dataWidth : Nat) : Move → List Action
  | .act action => [action]
  | .via protocol transfer => transfer.actions protocol dataWidth

namespace Machine

variable {layout : Layout} {machine : Machine}

/-- The word that a move reads through a driver, and the machine after it. -/
def move (machine : Machine) : Move → Option Nat × Machine
  | .act action => (none, (machine.act action).2)
  | .via protocol order =>
    ((machine.transfer protocol order).1.data, (machine.transfer protocol order).2)

/-- The machine after moves, one after the other. -/
def afterMoves (machine : Machine) (moves : List Move) : Machine :=
  moves.foldl (fun machine move => (machine.move move).2) machine

theorem move_snd (machine : Machine) (move : Move) :
    (machine.move move).2 = machine.after (move.actions machine.dataWidth) := by
  cases move with
  | act action => rfl
  | via protocol order => exact machine.transfer_snd protocol order

/-- Moves of a driver are actions of the machine. -/
theorem afterMoves_eq (machine : Machine) (moves : List Move) :
    machine.afterMoves moves = machine.after (moves.flatMap (Move.actions machine.dataWidth)) := by
  induction moves generalizing machine with
  | nil => rfl
  | cons move rest ih =>
    have next := ih (machine.move move).2
    rw [move_snd, after_dataWidth, ← after_append] at next
    exact (congrArg (fun state => state.afterMoves rest) (machine.move_snd move)).trans next

theorem Reachable.move (reachable : machine.Reachable layout) (move : Move) :
    (machine.move move).2.Reachable layout := by
  rw [move_snd]
  exact reachable.after _

end Machine

end RegisterBank.Bank
