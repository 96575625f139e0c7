import RegisterBank.Proofs.Bank.Transfers

/-!
# What does not depend on the bus

Bus families differ in where they put idle cycles around a write.  An idle
cycle is not without effect: a sticky field takes its input in every cycle.
But it has no effect of its own beside another cycle with the same inputs, on
either side of it, for every template but the self-clearing one
(`Cell.step_idle_step`, `Cell.step_step_idle`).  So a write leaves the same
machine, whichever family carries it and however many cycles it takes, and
reads take the same cycles in all families.  A script that goes over a bus all
the time therefore leads through the same machines on every bus.
-/

namespace RegisterBank.Bank

open RegisterBank.Bus (Phase Protocol)

/-! ## Idle cycles beside others -/

namespace Cell

variable {cell : Cell} (write : Option BusWrite) (isRead : Bool)

theorem step_template (cell : Cell) :
    (cell.step write isRead).template = cell.template := by
  obtain ⟨value, selfClear, writeOnce, same⟩ := cell.step_frame write isRead
  rw [same]

/-- A level that the bus writes does not notice an idle cycle. -/
theorem step_idle_stored {readClear writeOnce : Bool}
    (stored : cell.template = .stored readClear writeOnce) : cell.step none false = cell := by
  rw [step_stored none false stored, Bool.and_false]
  rfl

/-- An idle cycle before another changes nothing. -/
theorem step_idle_step (level : cell.template ≠ .selfClearing) :
    (cell.step none false).step write isRead = cell.step write isRead := by
  cases template : cell.template with
  | hardwareDriven => rw [step_unstored none false (by rw [template]; rfl)]
  | pulse => rw [step_unstored none false (by rw [template]; rfl)]
  | stored readClear writeOnce => rw [step_idle_stored template]
  | selfClearing => exact absurd template level
  | sticky =>
    have kept : (cell.step none false).template = .sticky :=
      (step_template none false cell).trans template
    rw [step_sticky write isRead kept, step_sticky none false template,
      step_sticky write isRead template]
    cases isRead with
    | true => rfl
    | false => simp only [Bool.false_eq_true, if_false, Nat.or_assoc, Nat.or_self]

/-- An idle cycle after another changes nothing. -/
theorem step_step_idle (level : cell.template ≠ .selfClearing) :
    (cell.step write isRead).step none false = cell.step write isRead := by
  have kept := step_template write isRead cell
  cases template : cell.template with
  | hardwareDriven =>
    rw [template] at kept
    exact step_unstored none false (by rw [kept]; rfl)
  | pulse =>
    rw [template] at kept
    exact step_unstored none false (by rw [kept]; rfl)
  | stored readClear writeOnce =>
    rw [template] at kept
    exact step_idle_stored kept
  | selfClearing => exact absurd template level
  | sticky =>
    rw [template] at kept
    rw [step_sticky none false kept, step_sticky write isRead template]
    simp only [Bool.false_eq_true, if_false, Nat.or_assoc, Nat.or_self]

end Cell

/-! ## Writes over different buses -/

/-- No field of the machine clears itself. -/
def Machine.IsLevel (machine : Machine) : Prop :=
  ∀ register ∈ machine.registers, ∀ cell ∈ register.cells, cell.template ≠ .selfClearing

namespace Machine

variable {machine : Machine}

/-- Two clock edges do to all registers what one does, if they do so to each
cell. -/
theorem step_step_registers {first second only : Request}
    (same : ∀ register ∈ machine.registers, ∀ cell ∈ register.cells,
      (cell.step (register.write? first) (register.isRead first)).step
          (register.write? second) (register.isRead second) =
        cell.step (register.write? only) (register.isRead only)) :
    ((machine.step first).step second).registers = (machine.step only).registers := by
  dsimp only [step]
  rw [List.map_map]
  refine List.map_congr_left ?_
  intro register listed
  dsimp only [Function.comp_apply, RegisterCell.step]
  rw [List.map_map]
  refine congrArg (RegisterCell.mk register.name register.address) (List.map_congr_left ?_)
  intro cell inside
  exact same register listed cell inside

/-- The machine after a cycle that reads nothing. -/
theorem step_silent (machine : Machine) {request : Request}
    (silent : request.readAddress? = none) :
    machine.step request =
      { machine with registers := (machine.step request).registers, readValid := false } := by
  unfold step
  rw [silent]
  rfl

theorem step_idle_step (level : machine.IsLevel) {request : Request}
    (silent : request.readAddress? = none) :
    (machine.step .idle).step request = machine.step request := by
  have registers : ((machine.step .idle).step request).registers =
      (machine.step request).registers :=
    step_step_registers fun register listed cell inside =>
      Cell.step_idle_step _ _ (level register listed cell inside)
  rw [step_silent _ silent, machine.step_silent silent, registers]
  rfl

theorem step_step_idle (level : machine.IsLevel) {request : Request}
    (silent : request.readAddress? = none) :
    (machine.step request).step .idle = machine.step request := by
  have registers : ((machine.step request).step .idle).registers =
      (machine.step request).registers :=
    step_step_registers fun register listed cell inside =>
      Cell.step_step_idle _ _ (level register listed cell inside)
  rw [(machine.step request).step_silent rfl, registers, machine.step_silent silent]

theorem IsLevel.step (level : machine.IsLevel) (request : Request) :
    (machine.step request).IsLevel := by
  intro register stepped cell inside
  obtain ⟨before, listed, rfl⟩ := List.mem_map.mp stepped
  obtain ⟨earlier, held, rfl⟩ := List.mem_map.mp inside
  rw [Cell.step_template]
  exact level before listed earlier held

/-- Idle cycles after a request that reads nothing change nothing. -/
theorem after_idle (level : machine.IsLevel) {request : Request}
    (silent : request.readAddress? = none) (phases : List Phase)
    (quiet : phases.count .strobe = 0) :
    (machine.step request).after (phases.map (Transfer.ask request)) = machine.step request := by
  induction phases with
  | nil => rfl
  | cons phase rest ih =>
    rw [List.count_eq_zero, List.mem_cons, not_or] at quiet
    have unchanged : ((machine.step request).act (.cycle .idle)).2 = machine.step request :=
      step_step_idle level silent
    rw [List.map_cons, Transfer.ask_of_ne (Ne.symm quiet.1), after_cons, unchanged]
    exact ih (List.count_eq_zero.mpr quiet.2)

/-- Cycles of which one carries a request that reads nothing are worth that
one. -/
theorem after_once (level : machine.IsLevel) {request : Request}
    (silent : request.readAddress? = none) (phases : List Phase)
    (once : phases.count .strobe = 1) :
    machine.after (phases.map (Transfer.ask request)) = machine.step request := by
  induction phases generalizing machine with
  | nil => cases once
  | cons phase rest ih =>
    by_cases strobe : phase = .strobe
    · subst strobe
      rw [List.count_cons_self] at once
      exact after_idle level silent rest (Nat.succ.inj once)
    · rw [List.count_cons_of_ne strobe] at once
      rw [List.map_cons, Transfer.ask_of_ne strobe, after_cons]
      exact (ih (level.step .idle) once).trans (step_idle_step level silent)

theorem runPhases_data (request : Request) (phases : List Phase) (machine : Machine) :
    (runPhases request false phases machine).1.data = none := by
  induction phases generalizing machine with
  | nil => rfl
  | cons phase rest ih => exact congrArg (fun data => data <|> none) (ih _)

end Machine

/-! ## Scripts -/

/-- A step of a script that works on a machine through a driver alone. -/
inductive Step where
  | transfer (order : Transfer)
  | setInput (register field : String) (value : Nat)
  | reset
  deriving DecidableEq, Repr

/-- A step with the driver of a bus family. -/
def Step.over (protocol : Protocol) : Step → Move
  | .transfer order => .via protocol order
  | .setInput register field value => .act (.setInput register field value)
  | .reset => .act .reset

namespace Machine

variable {layout : Layout} {machine : Machine}

/-- What each move reads and the machine that it leaves. -/
def moves (machine : Machine) : List Move → List (Option Nat × Machine)
  | [] => []
  | move :: rest => machine.move move :: (machine.move move).2.moves rest

/-- A write over a bus reads nothing and is one clock edge. -/
theorem move_write (level : machine.IsLevel) (protocol : Protocol) {order : Transfer}
    (silent : (order.request machine.dataWidth).readAddress? = none) :
    machine.move (.via protocol order) = (none, machine.step (order.request machine.dataWidth)) := by
  refine Prod.ext ?_ ?_
  · cases order with
    | read address => cases silent
    | writeStrobed address data strobe => exact runPhases_data _ _ _
    | write address data => exact runPhases_data _ _ _
  · rw [move_snd]
    exact after_once level silent _ (Transfer.count_strobe protocol order)

/-- A step does the same over every bus. -/
theorem move_over (level : machine.IsLevel) (first second : Protocol) (step : Step) :
    machine.move (step.over first) = machine.move (step.over second) := by
  cases step with
  | reset => rfl
  | setInput register field value => rfl
  | transfer order =>
    cases order with
    | read address => cases first <;> cases second <;> rfl
    | writeStrobed address data strobe =>
      exact (move_write level first rfl).trans (move_write level second rfl).symm
    | write address data =>
      exact (move_write level first rfl).trans (move_write level second rfl).symm

end Machine

/-! ## Accepted layouts -/

section Accepted

variable {map : RegisterMap} {layout : Layout} {protocol : Protocol} {plan : Plan}
  (accepted : Accepted map layout protocol plan)
  (steady : ∀ register ∈ map.registers, ∀ field ∈ register.fields, field.has .selfClear = false)

include accepted steady

theorem Machine.Reachable.isLevel {machine : Machine} (reachable : machine.Reachable layout) :
    machine.IsLevel := by
  intro found listed cell inside
  have implements := reachable.implements accepted
  rcases exists_of_mem_right implements.registers listed with ⟨register, planned, kept⟩
  rcases exists_of_mem_right kept.cells inside with ⟨field, declared, stands⟩
  rcases accepted.exists_placed planned with ⟨placed, member, rfl⟩
  obtain ⟨source, has, rfl⟩ := List.mem_map.mp declared
  have none := steady placed.register (accepted.register_mem member) source has
  rw [stands.template]
  show Template.ofField source ≠ .selfClearing
  unfold Template.ofField
  rw [none]
  cases source.has .writePulse <;> cases source.isHardwareDriven <;>
    cases source.access.isWritable <;> simp

/-- A script leads through the same machines on every bus. -/
theorem Machine.Reachable.moves_over {machine : Machine} (reachable : machine.Reachable layout)
    (first second : Protocol) (script : List Step) :
    machine.moves (script.map (Step.over first)) =
      machine.moves (script.map (Step.over second)) := by
  induction script generalizing machine with
  | nil => rfl
  | cons step rest ih =>
    have same := Machine.move_over (reachable.isLevel accepted steady) first second step
    have next := reachable.move (step.over first)
    rw [List.map_cons, List.map_cons]
    unfold Machine.moves
    rw [ih next, same]

/-- **A script does the same over every bus.**  Where no field clears itself, it
reads the same data over any two buses, and after every step each field has
the same value. -/
theorem script_eq_over_buses :
    ∃ machine, layout.buildMachine = .ok (some (machine, protocol)) ∧
      ∀ (first second : Protocol) (script : List Step),
        (machine.moves (script.map (Step.over first))).map Prod.fst =
          (machine.moves (script.map (Step.over second))).map Prod.fst ∧
        ∀ register field,
          (machine.moves (script.map (Step.over first))).map
              (fun left => left.2.output? register field) =
            (machine.moves (script.map (Step.over second))).map
              fun left => left.2.output? register field := by
  refine ⟨_, accepted.buildMachine, ?_⟩
  intro first second script
  have same := (Machine.Reachable.built accepted.buildMachine).moves_over accepted steady
    first second script
  rw [same]
  exact ⟨rfl, fun _ _ => rfl⟩

end Accepted

/-- Interrupts come in, are masked and read, and the key is written twice. -/
def interruptScript : List Step :=
  [.setInput "irq" "pending" 0x12, .transfer (.writeStrobed 0 0xabcdef 2),
    .transfer (.read 0), .transfer (.write 4 7), .transfer (.write 4 9), .transfer (.read 4)]

theorem script_eq_over_buses_interrupts :
    ∃ machine, interruptLayout.buildMachine = .ok (some (machine, .apb)) ∧
      ((machine.transfer .axil (.write 4 7)).1.cycles.length = 2 ∧
        (machine.transfer .amm (.write 4 7)).1.cycles.length = 1) ∧
      (machine.moves (interruptScript.map (Step.over .axil))).map Prod.fst =
        (machine.moves (interruptScript.map (Step.over .amm))).map Prod.fst ∧
      (machine.moves (interruptScript.map (Step.over .amm))).map Prod.fst =
        [none, none, some 0xfc013, none, none, some 7] := by
  rcases script_eq_over_buses accepted_interrupts (by decide) with ⟨machine, built, same⟩
  refine ⟨machine, built, ?_, (same .axil .amm interruptScript).1, ?_⟩
  · rw [accepted_interrupts.buildMachine] at built
    cases built
    exact ⟨rfl, rfl⟩
  · rw [accepted_interrupts.buildMachine] at built
    cases built
    rfl

end RegisterBank.Bank
