import RegisterBank.Bank.Bridge
import RegisterBank.Proofs.Bank.Lockstep

/-!
# Runs of circuit and machine

What can be done to a bank from outside, and what is seen of it.  A run starts
right after reset.  Requests, driven inputs and resets come in any order; the
answers of the circuit are those of the machine (`run_eq`).
-/

namespace RegisterBank.Bank

open RegisterBank.Verilog

/-! ## Actions -/

/-- What is done to a bank from outside. -/
inductive Action where
  | cycle (request : Request)
  | setInput (register field : String) (value : Nat)
  | reset
  deriving DecidableEq, Repr

/-- What is seen of an action. -/
inductive Answer where
  | trace (trace : Trace)
  /-- Whether there is such an input, which then is driven. -/
  | driven (exists? : Bool)
  | reset
  deriving DecidableEq, Repr

/-- The answer to an action and the machine after it. -/
def Machine.act (machine : Machine) : Action → Answer × Machine
  | .cycle request => (.trace (machine.cycle request).1, (machine.cycle request).2)
  | .setInput register field value =>
    match machine.setInput? register field value with
    | some next => (.driven true, next)
    | none => (.driven false, machine)
  | .reset => (.reset, machine.reset)

/-- The answers to actions, one after the other. -/
def Machine.run (machine : Machine) : List Action → List Answer
  | [] => []
  | action :: rest => (machine.act action).1 :: (machine.act action).2.run rest

/-- The answer to an action and the circuit after it. -/
def Circuit.act (circuit : Circuit) : Action → Answer × Circuit
  | .cycle request => (.trace (circuit.cycle request).1, (circuit.cycle request).2)
  | .setInput register field value =>
    match circuit.setInput? register field value with
    | some next => (.driven true, next)
    | none => (.driven false, circuit)
  | .reset => (.reset, circuit.reset)

/-- The answers to actions, one after the other. -/
def Circuit.run (circuit : Circuit) : List Action → List Answer
  | [] => []
  | action :: rest => (circuit.act action).1 :: (circuit.act action).2.run rest

section Runs

variable {map : RegisterMap} {layout : Layout} {protocol : Bus.Protocol} {plan : Plan}
  (accepted : Accepted map layout protocol plan) {values : Nets} {machine : Machine}

include accepted

/-- An action gets the same answer from both, and leaves them together. -/
theorem Machine.HeldBy.act (held : machine.HeldBy layout plan values) (action : Action) :
    ((Circuit.of layout plan values).act action).1 = (machine.act action).1 ∧
    ∃ after, ((Circuit.of layout plan values).act action).2 = Circuit.of layout plan after ∧
      (machine.act action).2.HeldBy layout plan after := by
  cases action with
  | cycle request =>
    refine ⟨congrArg Answer.trace (held.observe accepted request), _, rfl, ?_⟩
    exact held.edge accepted false request
  | reset => exact ⟨rfl, _, rfl, held.edge accepted true .idle⟩
  | setInput register field value =>
    unfold Circuit.act Machine.act
    dsimp only
    rcases held.setInput accepted register field value with
      ⟨refused, refused'⟩ | ⟨driven, next, taken, taken', kept⟩
    · rw [refused, refused']
      exact ⟨rfl, values, rfl, held⟩
    · rw [taken, taken']
      exact ⟨rfl, driven, rfl, kept⟩

theorem Machine.HeldBy.run (held : machine.HeldBy layout plan values) (actions : List Action) :
    (Circuit.of layout plan values).run actions = machine.run actions := by
  induction actions generalizing values machine with
  | nil => rfl
  | cons action rest ih =>
    rcases held.act accepted action with ⟨same, after, next, kept⟩
    unfold Circuit.run Machine.run
    rw [same, next, ih kept]

/-- Right after reset, circuit and machine are together. -/
theorem exists_held_make : ∃ values,
    Circuit.make plan layout.geometry layout.config.readFiller = Circuit.of layout plan values ∧
      (Machine.make plan layout.dataWidth layout.config.readFiller).HeldBy layout plan values := by
  have before : ({
      dataWidth := layout.dataWidth
      readFiller := layout.config.readFiller &&& Bits.ones layout.dataWidth
      registers := plan.registers.map fun register =>
        ⟨register.name, register.placed.address, register.fields.map Cell.ofPlan⟩
      readData := 0
      readValid := false } : Machine).HeldBy layout plan [] := by
    refine ⟨rfl, Bits.and_ones_of_lt accepted.readFiller_lt accepted.dataWidth_le, ?_, rfl, rfl⟩
    rw [List.forall₂_map_right_iff, List.forall₂_same]
    intro register planned
    refine ⟨rfl, rfl, ?_⟩
    rw [List.forall₂_map_right_iff, List.forall₂_same]
    intro field declared
    have valid := ((accepted.sound register planned).fields field declared).valid
    exact ⟨Cell.Implements.ofPlan valid, fun _ => rfl, fun _ => rfl, fun _ => rfl, fun _ => rfl⟩
  exact ⟨_, rfl, before.edge accepted true .idle⟩

end Runs

end RegisterBank.Bank
