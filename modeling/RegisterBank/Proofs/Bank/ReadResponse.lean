import RegisterBank.Proofs.Bank.BusIndependence
import RegisterBank.Proofs.Bank.FieldRequests

/-!
# Answers to reads

A bank answers a read in the next cycle, and keeps the word until the next read
or reset.  The word is that of the state before the edge of the read's cycle:
neither a write nor a clearing of the same edge shows in it.  `Gives` is what a
state makes of an address, field by field, and `Answers` what a run makes of
reads; that an answer stays is shown action by action
(`Machine.act_readData`).  Over every bus, a read takes the word of the state
that it starts in.
-/

namespace RegisterBank.Bank

open RegisterBank.Bus (Protocol)

/-- The word that reading an address gives in a state. -/
structure Gives (layout : Layout) (machine : Machine) (address word : Nat) : Prop where
  word_eq : word = machine.readWord address
  /-- Readable fields show their values, or the inputs that drive them. -/
  fields : ∀ placed ∈ layout.registers, placed.address = address →
    ∀ field ∈ placed.register.fields, readsBack field = true →
    ∃ cell, machine.cell? placed.name field.name = some cell ∧
      Bits.extract word field.bits.lsb field.bits.width = cell.readValue
  /-- Bits between them come from the filler. -/
  between : ∀ placed ∈ layout.registers, placed.address = address →
    ∀ i, (∀ field ∈ placed.register.fields, readsBack field = true → ¬ field.bits.Covers i) →
    word.testBit i = layout.config.readFiller.testBit i
  /-- Where no register is, the filler is all. -/
  missing : (∀ placed ∈ layout.registers, placed.address ≠ address) →
    word = layout.config.readFiller

/-- Whether an action leaves the answer to the latest read alone. -/
def Action.isSilent : Action → Bool
  | .cycle request => request.readAddress?.isNone
  | .setInput _ _ _ => true
  | .reset => false

/-- What a bank, fresh from reset, shows of reads after actions: whether the
latest cycle had one, and the word of the latest one. -/
structure Answers (layout : Layout) (machine : Machine) (actions : List Action) (shown : Trace) :
    Prop where
  /-- Read data is fresh exactly if the latest cycle since reset had a read. -/
  valid : shown.readValid = true ↔
    ∃ request address, (requestsOf actions).getLast? = some request ∧
      request.readAddress? = some address
  /-- The word of the latest read since reset is that of the state right before
  it, whatever was done by the same request and later on. -/
  latest : ∀ earlier request address between, actions = earlier ++ .cycle request :: between →
    request.readAddress? = some address → (∀ action ∈ between, action.isSilent = true) →
    Gives layout (machine.after earlier) address shown.readData
  /-- Without a read since reset, it is the filler. -/
  unread : (∀ request ∈ requestsOf actions, request.readAddress? = none) →
    shown.readData = layout.config.readFiller

namespace Machine

/-- An answer stays as long as there is neither a read nor a reset. -/
theorem act_readData (machine : Machine) {action : Action} (silent : action.isSilent = true) :
    (machine.act action).2.readData = machine.readData := by
  cases action with
  | reset => cases silent
  | setInput register field value =>
    obtain ⟨registers, driven⟩ := machine.act_setInput register field value
    rw [driven]
  | cycle request =>
    have reads : request.readAddress? = none := Option.isNone_iff_eq_none.mp silent
    show (machine.step request).readData = machine.readData
    rw [machine.step_silent reads]

theorem after_readData (machine : Machine) {actions : List Action}
    (silent : ∀ action ∈ actions, action.isSilent = true) :
    (machine.after actions).readData = machine.readData := by
  induction actions generalizing machine with
  | nil => rfl
  | cons action rest ih =>
    obtain ⟨here, others⟩ := List.forall_mem_cons.mp silent
    exact (ih _ others).trans (machine.act_readData here)

/-- The word of a read is there until the next read or reset. -/
theorem readData_after_read (machine : Machine) {request : Request} {address : Nat}
    (read : request.readAddress? = some address) {between : List Action}
    (silent : ∀ action ∈ between, action.isSilent = true) :
    (machine.after (.cycle request :: between)).readData = machine.readWord address := by
  have taken : (machine.step request).readData = machine.readWord address := by
    unfold step
    rw [read]
  exact ((machine.step request).after_readData silent).trans taken

/-- Reads are answered in the next cycle, and nothing else is. -/
theorem readValid_after {machine : Machine} (fresh : machine.readValid = false)
    (actions : List Action) :
    (machine.after actions).readValid =
      ((requestsOf actions).getLast?.bind Request.readAddress?).isSome := by
  induction actions using List.reverseRecOn with
  | nil => exact fresh
  | append_singleton before action ih =>
    rw [after_append, requestsOf_append_singleton]
    cases action with
    | reset => rfl
    | setInput register field value =>
      obtain ⟨registers, driven⟩ := (machine.after before).act_setInput register field value
      show ((machine.after before).act (.setInput register field value)).2.readValid = _
      rw [driven]
      exact ih
    | cycle request =>
      show request.readAddress?.isSome = _
      unfold Action.requests
      rw [List.getLast?_concat, Option.bind_some]

/-- A machine that shows the filler does so until there is a read. -/
theorem readData_after_of_no_read {machine : Machine}
    (fresh : machine.readData = machine.readFiller) {actions : List Action}
    (quiet : ∀ request ∈ requestsOf actions, request.readAddress? = none) :
    (machine.after actions).readData = (machine.after actions).readFiller := by
  induction actions using List.reverseRecOn with
  | nil => exact fresh
  | append_singleton before action ih =>
    rw [requestsOf_append_singleton] at quiet
    rw [after_append]
    cases action with
    | reset => rfl
    | setInput register field value =>
      obtain ⟨registers, driven⟩ := (machine.after before).act_setInput register field value
      show ((machine.after before).act (.setInput register field value)).2.readData =
        ((machine.after before).act (.setInput register field value)).2.readFiller
      rw [driven]
      exact ih quiet
    | cycle request =>
      obtain ⟨others, last⟩ := List.forall_mem_append.mp quiet
      have silent : (Action.cycle request).isSilent = true :=
        Option.isNone_iff_eq_none.mpr (last request (List.mem_singleton_self request))
      exact ((machine.after before).act_readData silent).trans (ih others)

/-- A transaction that reads takes the word of the state that it starts in. -/
theorem read_data (machine : Machine) (bus : Protocol) (address : Nat) :
    (machine.read bus address).1.data = some (machine.readWord address) := by
  cases bus <;> rfl

/-- A transaction that writes reads nothing. -/
theorem write_data (machine : Machine) (bus : Protocol) (address data strobe : Nat) :
    (machine.writeStrobed bus address data strobe).1.data = none ∧
      (machine.write bus address data).1.data = none :=
  ⟨runPhases_data _ _ _, runPhases_data _ _ _⟩

end Machine

/-! ## Accepted layouts -/

section Accepted

variable {map : RegisterMap} {layout : Layout} {protocol : Protocol} {plan : Plan}
  (accepted : Accepted map layout protocol plan)

include accepted

/-- What a state gives is its word, field by field. -/
theorem gives_readWord (actions : List Action) (address : Nat) :
    Gives layout ((Machine.make plan layout.dataWidth layout.config.readFiller).after actions)
      address
      (((Machine.make plan layout.dataWidth layout.config.readFiller).after actions).readWord
        address) := by
  have reachable := (Machine.Reachable.built accepted.buildMachine).after actions
  have implements := reachable.implements accepted
  constructor
  case word_eq => rfl
  case fields =>
    rintro placed listed rfl field declared readable
    have holds := (holds_make accepted listed declared).after actions
    exact ⟨_, holds.cell?, holds.extract_readWord accepted listed declared reachable readable⟩
  case between =>
    rintro placed listed rfl i uncovered
    refine testBit_readWord_uncovered accepted implements (accepted.planRegister_mem listed) ?_
    rintro plan planned
    obtain ⟨field, declared, rfl⟩ := List.mem_map.mp planned
    exact uncovered field declared
  case missing =>
    intro missing
    refine implements.readWord_of_missing ?_
    intro register planned
    rcases accepted.exists_placed planned with ⟨placed, listed, rfl⟩
    exact missing placed listed

/-- What is seen in the cycle after a run answers the reads of the run. -/
theorem answers_after (actions : List Action) (later : Request) :
    Answers layout (Machine.make plan layout.dataWidth layout.config.readFiller) actions
      (((Machine.make plan layout.dataWidth layout.config.readFiller).after actions).cycle
        later).1 := by
  constructor
  case valid =>
    show ((Machine.make plan layout.dataWidth layout.config.readFiller).after
      actions).readValid = true ↔ _
    rw [Machine.readValid_after rfl, Option.isSome_iff_exists]
    simp only [Option.bind_eq_some_iff]
    exact exists_comm
  case latest =>
    rintro earlier request address between rfl read silent
    have kept := ((Machine.make plan layout.dataWidth layout.config.readFiller).after
      earlier).readData_after_read read silent
    rw [← Machine.after_append] at kept
    show Gives layout _ address (Machine.readData _)
    rw [kept]
    exact gives_readWord accepted earlier address
  case unread =>
    intro quiet
    have reachable := (Machine.Reachable.built accepted.buildMachine).after actions
    exact (Machine.readData_after_of_no_read rfl quiet).trans
      (reachable.implements accepted).readFiller

/-- **A bank answers reads in the next cycle with the word from before the
edge**, and keeps the answer until the next read or reset.  Over every bus, a
read gives the word of the state that it starts in, and a write gives none. -/
theorem reads_answered :
    ∃ machine, layout.buildMachine = .ok (some (machine, protocol)) ∧
      (∀ actions later, Answers layout machine actions ((machine.after actions).cycle later).1) ∧
      ∀ moves bus address,
        (∃ word, ((machine.afterMoves moves).read bus address).1.data = some word ∧
          Gives layout (machine.afterMoves moves) address word) ∧
        ∀ data strobe,
          ((machine.afterMoves moves).writeStrobed bus address data strobe).1.data = none ∧
            ((machine.afterMoves moves).write bus address data).1.data = none := by
  refine ⟨_, accepted.buildMachine, answers_after accepted, ?_⟩
  intro moves bus address
  rw [Machine.afterMoves_eq]
  refine ⟨⟨_, Machine.read_data _ bus address, gives_readWord accepted _ address⟩, ?_⟩
  intro data strobe
  exact Machine.write_data _ bus address data strobe

end Accepted

/-- The mask is read and written in one cycle, and written again in the next. -/
theorem reads_answered_interrupts :
    ∃ machine, interruptLayout.buildMachine = .ok (some (machine, .apb)) ∧
      Gives interruptLayout
        (machine.after [.setInput "irq" "pending" 0x12, .cycle .idle]) 0
        ((machine.after [.setInput "irq" "pending" 0x12, .cycle .idle,
          .cycle (.writeRead 0 0xfffff 15 0), .cycle (.write 0 0 15)]).cycle .idle).1.readData ∧
      ((machine.after [.setInput "irq" "pending" 0x12, .cycle .idle,
        .cycle (.writeRead 0 0xfffff 15 0), .cycle (.write 0 0 15)]).cycle .idle).1.readData =
          0xf0013 := by
  rcases reads_answered accepted_interrupts with ⟨machine, built, answers, -⟩
  have answered := answers [.setInput "irq" "pending" 0x12, .cycle .idle,
    .cycle (.writeRead 0 0xfffff 15 0), .cycle (.write 0 0 15)] .idle
  refine ⟨machine, built, ?_, ?_⟩
  · exact answered.latest [.setInput "irq" "pending" 0x12, .cycle .idle]
      (.writeRead 0 0xfffff 15 0) 0 [.cycle (.write 0 0 15)] rfl rfl
      (List.forall_mem_singleton.mpr rfl)
  · rw [accepted_interrupts.buildMachine] at built
    cases built
    rfl

end RegisterBank.Bank
