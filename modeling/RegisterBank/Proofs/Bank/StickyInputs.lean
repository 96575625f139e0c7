import RegisterBank.Proofs.Bank.FieldRuns

/-!
# Inputs that wait to be read

A read-only field that reads clear gathers the bits that come in at its
hardware input until its register is read.  An input that comes in during the
very cycle of the clearing read is the delicate one: the read cannot show it
any more, so it has to survive the clearing.  `waiting` is what the field holds
in terms of the cycles since reset, and `delivers_waiting` what a read makes of
it: everything that came in from the cycle of the previous read on, and nothing
from before.
-/

namespace RegisterBank.Bank

/-! ## Beats -/

/-- A clock cycle as a field sees it. -/
structure Beat where
  /-- The level at the field's hardware input. -/
  input : Nat
  /-- Whether the field's register is read. -/
  isRead : Bool
  deriving DecidableEq, Repr

/-- The bits that come in during some of the beats. -/
def gathered : List Beat → Nat
  | [] => 0
  | beat :: rest => beat.input ||| gathered rest

/-- What a field holds after beats.  A read takes what was there before, and
leaves what comes in with it. -/
def waiting (initial : Nat) (beats : List Beat) : Nat :=
  beats.foldl (fun value beat => (if beat.isRead then 0 else value) ||| beat.input) initial

/-- What a read after beats delivers: neither less than came in since the
previous read nor more. -/
structure Delivers (initial : Nat) (beats : List Beat) (delivered : Nat) : Prop where
  /-- All that came in from the cycle of the previous read on. -/
  sinceRead : ∀ before beat after, beats = before ++ beat :: after → beat.isRead = true →
    (∀ later ∈ after, later.isRead = false) → delivered = gathered (beat :: after)
  /-- All that came in since reset, without a read in between. -/
  sinceReset : (∀ beat ∈ beats, beat.isRead = false) → delivered = initial ||| gathered beats
  /-- A bit is delivered by the first read after its cycle, which may be the
  cycle of a read itself. -/
  kept : ∀ before beat after bit, beats = before ++ beat :: after →
    beat.input.testBit bit = true → (∀ later ∈ after, later.isRead = false) →
    delivered.testBit bit = true
  /-- After a read, a bit is not delivered again unless it comes in again. -/
  once : ∀ before beat after bit, beats = before ++ beat :: after → beat.isRead = true →
    (∀ later ∈ beat :: after, later.input.testBit bit = false) → delivered.testBit bit = false

theorem waiting_of_no_read (initial : Nat) {beats : List Beat}
    (silent : ∀ beat ∈ beats, beat.isRead = false) :
    waiting initial beats = initial ||| gathered beats := by
  induction beats generalizing initial with
  | nil => exact (Nat.or_zero initial).symm
  | cons beat rest ih =>
    obtain ⟨quiet, others⟩ := List.forall_mem_cons.mp silent
    calc waiting initial (beat :: rest)
        = waiting ((if beat.isRead then 0 else initial) ||| beat.input) rest := rfl
      _ = waiting (initial ||| beat.input) rest := by rw [quiet]; rfl
      _ = (initial ||| beat.input) ||| gathered rest := ih _ others
      _ = initial ||| gathered (beat :: rest) := Nat.or_assoc _ _ _

/-- Where beats are cut, what waits after the first part is the start of the
second. -/
theorem waiting_append (initial : Nat) (before after : List Beat) :
    waiting initial (before ++ after) = waiting (waiting initial before) after :=
  List.foldl_append

theorem testBit_waiting_of_off {initial bit : Nat} {beats : List Beat}
    (off : initial.testBit bit = false) (none : ∀ beat ∈ beats, beat.input.testBit bit = false) :
    (waiting initial beats).testBit bit = false := by
  induction beats generalizing initial with
  | nil => exact off
  | cons beat rest ih =>
    obtain ⟨here, others⟩ := List.forall_mem_cons.mp none
    have next : ((if beat.isRead then 0 else initial) ||| beat.input).testBit bit = false := by
      rw [Nat.testBit_or, here, Bool.or_false]
      cases beat.isRead with
      | false => exact off
      | true => exact Nat.zero_testBit bit
    exact ih next others

/-- What waits in a field is what its next read has to deliver. -/
theorem delivers_waiting (initial : Nat) (beats : List Beat) :
    Delivers initial beats (waiting initial beats) where
  sinceRead := by
    rintro before beat after rfl read silent
    -- The read empties the field before the input of its own cycle comes in.
    calc waiting initial (before ++ beat :: after)
        = waiting ((if beat.isRead then 0 else waiting initial before) ||| beat.input) after :=
          waiting_append initial before (beat :: after)
      _ = waiting beat.input after := by rw [read, if_pos rfl, Nat.zero_or]
      _ = gathered (beat :: after) := waiting_of_no_read beat.input silent
  sinceReset := waiting_of_no_read initial
  kept := by
    rintro before beat after bit rfl raised silent
    rw [waiting_append]
    refine (congrArg (Nat.testBit · bit) (waiting_of_no_read _ silent)).trans ?_
    rw [Nat.testBit_or, Nat.testBit_or, raised, Bool.or_true, Bool.true_or]
  once := by
    rintro before beat after bit rfl read none
    obtain ⟨here, others⟩ := List.forall_mem_cons.mp none
    have emptied : ((if beat.isRead then 0 else waiting initial before) |||
        beat.input).testBit bit = false := by
      rw [Nat.testBit_or, read, if_pos rfl, Nat.zero_testBit, here]
      rfl
    have off := testBit_waiting_of_off emptied others
    rw [waiting_append]
    exact off

/-! ## The beats of a run -/

/-- What a field has seen of a run. -/
structure InputLog where
  /-- The level at the hardware input. -/
  level : Nat
  /-- The cycles since reset. -/
  beats : List Beat
  deriving DecidableEq, Repr

namespace InputLog

/-- The log of a field of a given width after one more action.  Bits beyond the
width are not driven. -/
def next (seat : Seat) (width : Nat) (log : InputLog) : Action → InputLog
  | .cycle request =>
    { log with beats := log.beats ++ [⟨log.level, request.readAddress? == some seat.address⟩] }
  | .setInput register field value =>
    if register = seat.register ∧ field = seat.field then
      { log with level := value &&& Bits.ones width }
    else log
  | .reset => { log with beats := [] }

/-- The log of a run from reset. -/
def ofRun (seat : Seat) (width : Nat) (actions : List Action) : InputLog :=
  actions.foldl (next seat width) ⟨0, []⟩

end InputLog

/-- A sticky cell of a field that holds what waits after the beats of a log. -/
structure Cell.Follows (field : Field) (log : InputLog) (cell : Cell) : Prop where
  template : cell.template = .sticky
  width : cell.bits.width = field.bits.width
  initial : cell.initial = field.initial
  input : cell.input = log.level
  value : cell.value = waiting field.initial log.beats

namespace Cell.Follows

variable {field : Field} {log : InputLog} {cell : Cell}

/-- Reset leaves the level at the input, and the initial value. -/
theorem of_reset {level : Nat} (template : cell.template = .sticky)
    (width : cell.bits.width = field.bits.width) (initial : cell.initial = field.initial)
    (input : cell.input = level) : cell.reset.Follows field ⟨level, []⟩ := by
  refine ⟨template, width, initial, input, ?_⟩
  show cell.resetValue = field.initial
  unfold Cell.resetValue
  rw [template]
  exact initial

theorem act (follows : cell.Follows field log) (seat : Seat) (action : Action) :
    (cell.act seat action).Follows field (log.next seat field.bits.width action) := by
  cases action with
  | cycle request =>
    dsimp only [Cell.act, InputLog.next]
    rw [Cell.step_sticky _ _ follows.template]
    refine ⟨follows.template, follows.width, follows.initial, follows.input, ?_⟩
    rw [waiting_append, ← follows.value, ← follows.input]
    rfl
  | setInput register name value =>
    have has : cell.hasInput = true := by
      unfold Cell.hasInput
      rw [follows.template]
      rfl
    dsimp only [Cell.act, InputLog.next]
    by_cases own : register = seat.register ∧ name = seat.field
    · rw [if_pos own, if_pos ⟨own.1, own.2, has⟩, ← follows.width]
      exact ⟨follows.template, follows.width, follows.initial, rfl, follows.value⟩
    · rw [if_neg own, if_neg fun all => own ⟨all.1, all.2.1⟩]
      exact follows
  | reset => exact of_reset follows.template follows.width follows.initial follows.input

theorem after (follows : cell.Follows field log) (seat : Seat) (actions : List Action) :
    (cell.after seat actions).Follows field
      (actions.foldl (InputLog.next seat field.bits.width) log) := by
  induction actions generalizing cell log with
  | nil => exact follows
  | cons action rest ih => exact ih (follows.act seat action)

end Cell.Follows

/-! ## Reads of accepted layouts -/

/-- A read-only field that reads clear is sticky. -/
theorem Template.ofField_sticky {field : Field} (valid : field.Valid)
    (readOnly : field.access = .readOnly) (clears : field.has .readClear = true) :
    Template.ofField field = .sticky := by
  have lacks : ∀ modifier : Modifier, modifier.needsWrite = true →
      field.has modifier = false := by
    intro modifier needs
    cases has : field.has modifier with
    | false => rfl
    | true =>
      have allowed := valid.access modifier has
      unfold Field.Allows at allowed
      rw [if_pos needs, readOnly] at allowed
      cases allowed
  unfold ofField Field.isHardwareDriven
  rw [lacks .writePulse rfl, lacks .selfClear rfl, readOnly, clears]
  rfl

section Accepted

variable {map : RegisterMap} {layout : Layout} {protocol : Bus.Protocol} {plan : Plan}
  (accepted : Accepted map layout protocol plan) {placed : PlacedRegister}
  (listed : placed ∈ layout.registers) {field : Field} (declared : field ∈ placed.register.fields)
  (readOnly : field.access = .readOnly) (clears : field.has .readClear = true)

include accepted listed declared readOnly clears

/-- After any run, reading the register gives the field what waits in it. -/
theorem extract_waiting (actions : List Action) :
    Bits.extract
        (((Machine.make plan layout.dataWidth layout.config.readFiller).after actions).readWord
          placed.address)
        field.bits.lsb field.bits.width =
      waiting field.initial
        (InputLog.ofRun (Seat.of placed field) field.bits.width actions).beats := by
  have valid := accepted.field_valid listed declared
  have template : Template.ofField field = .sticky :=
    Template.ofField_sticky valid readOnly clears
  have readable : readsBack field = true := by
    unfold readsBack
    rw [template, readOnly]
    rfl
  have fresh : (Cell.ofPlan (planField layout.config placed.register field)).reset.Follows field
      ⟨0, []⟩ := .of_reset template rfl rfl rfl
  have follows := fresh.after (Seat.of placed field) actions
  have holds := (holds_make accepted listed declared).after actions
  have reachable := (Machine.Reachable.built accepted.buildMachine).after actions
  refine (holds.extract_readWord accepted listed declared reachable readable).trans ?_
  refine Eq.trans ?_ follows.value
  unfold Cell.readValue
  rw [follows.template]

/-- **A read of a sticky field delivers what came in since the previous read**,
without loss and without repetition, whatever else goes on in the run. -/
theorem sticky_read_delivers :
    ∃ machine, layout.buildMachine = .ok (some (machine, protocol)) ∧
      ∀ (actions : List Action) (request : Request) (drives : List Action) (later : Request),
        request.readAddress? = some placed.address →
        (∀ action ∈ drives, ∃ register field value, action = .setInput register field value) →
        ((machine.after (actions ++ .cycle request :: drives)).cycle later).1.readValid = true ∧
          Delivers field.initial
            (InputLog.ofRun (Seat.of placed field) field.bits.width actions).beats
            (Bits.extract
              ((machine.after (actions ++ .cycle request :: drives)).cycle later).1.readData
              field.bits.lsb field.bits.width) := by
  refine ⟨_, accepted.buildMachine, ?_⟩
  intro actions request drives later read only
  obtain ⟨valid, data⟩ :=
    ((Machine.make plan layout.dataWidth layout.config.readFiller).after
      actions).observe_after_read read only later
  rw [Machine.after_append, data, extract_waiting accepted listed declared readOnly clears]
  exact ⟨valid, delivers_waiting _ _⟩

end Accepted

/-- Interrupt 2 comes in during the very cycle of a read, after interrupts 1
and 4. -/
def pendingActions : List Action :=
  [.setInput "irq" "pending" 0x12, .cycle .idle, .setInput "irq" "pending" 4, .cycle (.read 0),
    .setInput "irq" "pending" 0, .cycle (.write 4 7 3)]

theorem sticky_read_delivers_interrupts :
    ∃ machine, interruptLayout.buildMachine = .ok (some (machine, .apb)) ∧
      Delivers 1 [⟨0x12, false⟩, ⟨4, true⟩, ⟨0, false⟩]
        (Bits.extract
          ((machine.after (pendingActions ++ [.cycle (.writeRead 4 9 1 0),
            .setInput "irq" "pending" 0x80])).cycle .idle).1.readData 0 8) ∧
      Bits.extract
          ((machine.after (pendingActions ++ [.cycle (.writeRead 4 9 1 0),
            .setInput "irq" "pending" 0x80])).cycle .idle).1.readData 0 8 = 4 := by
  have listed : interruptLayout.registers[0] ∈ interruptLayout.registers :=
    List.getElem_mem (by decide)
  have declared : interruptLayout.registers[0].register.fields[0] ∈
      interruptLayout.registers[0].register.fields := List.getElem_mem (by decide)
  rcases sticky_read_delivers accepted_interrupts listed declared rfl rfl with
    ⟨machine, built, delivers⟩
  have delivered := (delivers pendingActions (.writeRead 4 9 1 0)
    [.setInput "irq" "pending" 0x80] .idle rfl
    (List.forall_mem_singleton.mpr ⟨_, _, _, rfl⟩)).2
  refine ⟨machine, built, delivered, ?_⟩
  exact delivered.sinceRead [⟨0x12, false⟩] ⟨4, true⟩ [⟨0, false⟩] rfl rfl (by decide)

end RegisterBank.Bank
