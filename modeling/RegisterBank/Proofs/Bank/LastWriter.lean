import RegisterBank.Proofs.Bank.FieldRuns

/-!
# The last writer of a bit

A field that the bus writes and that has no modifier is plain storage.  Fields
may lie across bytes, and a write strobes bytes, so one write may update part
of a field and leave the rest to an earlier one.  Each bit on its own is
simple: it comes from the latest write that went to the register and strobed
the bit's byte (`Cell.testBit_loaded` for one write, `Cell.Stores.after` for a
run), or from reset.
-/

namespace RegisterBank.Bank

open RegisterBank.Bus (Phase Protocol)

/-! ## Writes of a run -/

/-- A write with its byte strobes. -/
structure StrobedWrite where
  address : Nat
  data : Nat
  strobe : Nat
  deriving DecidableEq, Repr

namespace StrobedWrite

/-- The write with its strobes spread to bits. -/
def onBus (write : StrobedWrite) : BusWrite :=
  ⟨write.address, write.data, Bits.strobeMask write.strobe⟩

/-- Whether the write goes to an address and strobes the byte of a bit. -/
def hits (address bit : Nat) (write : StrobedWrite) : Bool :=
  write.address == address && write.strobe.testBit (bit / 8)

end StrobedWrite

/-- The latest of some writes that hits a bit. -/
def latestWrite? (address bit : Nat) (writes : List StrobedWrite) : Option StrobedWrite :=
  writes.reverse.find? (StrobedWrite.hits address bit)

/-- What a bit is after writes, which starts as `start`. -/
def bitAfter (address bit : Nat) (start : Bool) (writes : List StrobedWrite) : Bool :=
  match latestWrite? address bit writes with
  | some write => write.data.testBit bit
  | none => start

theorem bitAfter_append (address bit : Nat) (start : Bool) (writes : List StrobedWrite)
    (write : StrobedWrite) :
    bitAfter address bit start (writes ++ [write]) =
      if write.hits address bit then write.data.testBit bit
      else bitAfter address bit start writes := by
  unfold bitAfter latestWrite?
  rw [List.reverse_append, List.reverse_singleton, List.singleton_append]
  cases hit : write.hits address bit with
  | true => rw [List.find?_cons_of_pos hit, if_pos rfl]
  | false =>
    rw [List.find?_cons_of_neg (ne_true_of_eq_false hit), if_neg Bool.false_ne_true]

/-- The write of a request. -/
def Request.strobedWrite? : Request → Option StrobedWrite
  | .idle | .read _ => none
  | .write address data strobe | .writeRead address data strobe _ => some ⟨address, data, strobe⟩

theorem Request.write?_eq (request : Request) :
    request.write? = request.strobedWrite?.map StrobedWrite.onBus := by
  cases request <;> rfl

/-- The writes since reset after one more action. -/
def Action.writes (earlier : List StrobedWrite) : Action → List StrobedWrite
  | .cycle request => earlier ++ request.strobedWrite?.toList
  | .setInput _ _ _ => earlier
  | .reset => []

/-- The writes since reset after one more move. -/
def Move.writes (dataWidth : Nat) (earlier : List StrobedWrite) : Move → List StrobedWrite
  | .act action => action.writes earlier
  | .via _ order => earlier ++ (order.request dataWidth).strobedWrite?.toList

/-- Cycles of which some carry a request write as often as it is carried. -/
theorem writes_of_phases (request : Request) (phases : List Phase)
    (earlier : List StrobedWrite) :
    (phases.map (Transfer.ask request)).foldl Action.writes earlier =
      earlier ++
        (List.replicate (phases.count .strobe) request.strobedWrite?.toList).flatten := by
  induction phases generalizing earlier with
  | nil => exact (List.append_nil earlier).symm
  | cons phase rest ih =>
    rw [List.map_cons, List.foldl_cons, ih]
    by_cases strobe : phase = .strobe
    · subst strobe
      rw [List.count_cons_self, List.replicate_succ, List.flatten_cons, ← List.append_assoc]
      rfl
    · rw [List.count_cons_of_ne strobe, Transfer.ask_of_ne strobe]
      exact congrArg (fun writes => writes ++ _) (List.append_nil earlier)

/-- A transfer makes its request once, however many cycles it takes. -/
theorem Move.writes_eq (dataWidth : Nat) (earlier : List StrobedWrite) (move : Move) :
    move.writes dataWidth earlier = (move.actions dataWidth).foldl Action.writes earlier := by
  cases move with
  | act action => rfl
  | via protocol order =>
    have carried := writes_of_phases (order.request dataWidth) (order.phases protocol) earlier
    rw [order.count_strobe protocol, List.replicate_one, List.flatten_singleton] at carried
    exact carried.symm

/-- The writes of a run since its last reset, or since its start. -/
def writesOf (dataWidth : Nat) (moves : List Move) : List StrobedWrite :=
  moves.foldl (Move.writes dataWidth) []

theorem writesOf_eq (dataWidth : Nat) (moves : List Move) :
    writesOf dataWidth moves =
      (moves.flatMap (Move.actions dataWidth)).foldl Action.writes [] := by
  unfold writesOf
  rw [List.foldl_flatMap]
  refine congrArg (fun step => moves.foldl step []) ?_
  funext earlier move
  exact move.writes_eq dataWidth earlier

/-! ## Plain storage -/

namespace Cell

variable {cell : Cell}

/-- Without a strobed bit nothing is loaded. -/
theorem loaded_of_not_strobed {write : Option BusWrite} (idle : cell.isStrobed write = false) :
    cell.loaded write = cell.value := by
  cases write with
  | none => rfl
  | some write =>
    have none : cell.extract write.mask = 0 := bne_eq_false_iff_eq.mp idle
    apply Nat.eq_of_testBit_eq
    intro i
    unfold loaded
    dsimp only
    rw [Bits.testBit_merge, none, Nat.zero_testBit]
    rfl

/-- Plain storage loads each write, and reads leave it alone. -/
theorem step_plain (plain : cell.template = .stored false false) (write : Option BusWrite)
    (isRead : Bool) : cell.step write isRead = { cell with value := cell.loaded write } := by
  rw [step_stored write isRead plain]
  cases strobed : cell.isStrobed write with
  | true => rfl
  | false => rw [loaded_of_not_strobed strobed]; rfl

/-- A write loads the bits that it hits. -/
theorem testBit_loaded (narrow : cell.bits.above ≤ Bits.wordWidth) {i : Nat}
    (inside : i < cell.bits.width) (write : StrobedWrite) (address : Nat) :
    (cell.loaded ((some write.onBus).filter fun other => other.address == address)).testBit i =
      if write.hits address (cell.bits.lsb + i) then write.data.testBit (cell.bits.lsb + i)
      else cell.value.testBit i := by
  unfold BitRange.above at narrow
  -- Neither the extraction nor the spread strobes cut the bit off.
  have within : i < min cell.bits.width Bits.wordWidth := by omega
  have reach : cell.bits.lsb + i < Bits.wordWidth := by omega
  rw [Option.filter_some]
  change (cell.loaded (if write.address == address then some write.onBus else none)).testBit i = _
  unfold StrobedWrite.hits
  cases write.address == address with
  | false => rfl
  | true =>
    change (Bits.merge cell.value (cell.extract write.data)
      (cell.extract (Bits.strobeMask write.strobe))).testBit i = _
    unfold extract
    rw [Bits.testBit_merge, Bits.testBit_extract, Bits.testBit_extract, Bits.testBit_strobeMask,
      decide_eq_true within, decide_eq_true reach, Bool.and_true, Bool.and_true]

/-- A plain cell of a field at an address whose bits come from their latest
writers. -/
structure Stores (field : Field) (address : Nat) (writes : List StrobedWrite) (cell : Cell) :
    Prop where
  template : cell.template = .stored false false
  bits : cell.bits = field.bits
  initial : cell.initial = field.initial
  value_lt : cell.value < 2 ^ field.bits.width
  value : ∀ i < field.bits.width, cell.value.testBit i =
    bitAfter address (field.bits.lsb + i) (field.initial.testBit i) writes

namespace Stores

variable {field : Field} {writes : List StrobedWrite}

theorem of_reset (valid : field.Valid) (template : cell.template = .stored false false)
    (bits : cell.bits = field.bits) (initial : cell.initial = field.initial) (address : Nat) :
    cell.reset.Stores field address [] := by
  have value : cell.reset.value = field.initial := by
    show cell.resetValue = field.initial
    unfold resetValue
    rw [template, ← initial]
  refine ⟨template, bits, initial, ?_, ?_⟩
  · rw [value]
    exact valid.initial_lt
  · intro i _
    rw [value]
    rfl

variable (seat : Seat) (valid : field.Valid) (stores : cell.Stores field seat.address writes)

include valid stores

/-- A clock edge hands each bit to the write that hits it. -/
theorem cycle (request : Request) :
    (cell.act seat (.cycle request)).Stores field seat.address
      (Action.writes writes (.cycle request)) := by
  have narrow : cell.bits.above ≤ Bits.wordWidth := by
    rw [stores.bits]
    exact valid.above_le
  have bound : cell.value < 2 ^ cell.bits.width := by
    rw [stores.bits]
    exact stores.value_lt
  dsimp only [Cell.act, Action.writes]
  rw [step_plain stores.template]
  refine ⟨stores.template, stores.bits, stores.initial, ?_, ?_⟩
  · rw [← stores.bits]
    exact loaded_lt bound _
  · intro i inside
    unfold Request.writeAt?
    rw [request.write?_eq]
    cases request.strobedWrite? with
    | none =>
      rw [Option.toList_none, List.append_nil]
      exact stores.value i inside
    | some write =>
      rw [Option.toList_some, bitAfter_append, ← stores.value i inside]
      rw [← stores.bits] at inside ⊢
      exact testBit_loaded narrow inside write seat.address

theorem act (action : Action) :
    (cell.act seat action).Stores field seat.address (action.writes writes) := by
  cases action with
  | cycle request => exact stores.cycle seat valid request
  | reset => exact of_reset valid stores.template stores.bits stores.initial seat.address
  | setInput register name value =>
    have lacks : ¬ (register = seat.register ∧ name = seat.field ∧ cell.hasInput = true) := by
      rintro ⟨-, -, has⟩
      unfold hasInput at has
      rw [stores.template] at has
      cases has
    dsimp only [Cell.act, Action.writes]
    rw [if_neg lacks]
    exact stores

theorem after (actions : List Action) :
    (cell.after seat actions).Stores field seat.address (actions.foldl Action.writes writes) := by
  induction actions generalizing cell writes with
  | nil => exact stores
  | cons action rest ih => exact ih (stores.act seat valid action)

end Stores

end Cell

/-! ## Accepted layouts -/

/-- A field that the bus writes and that keeps what is written is stored. -/
theorem Template.ofField_stored {field : Field} (writable : field.access.isWritable = true)
    (steady : field.reverts = false) :
    Template.ofField field = .stored (field.has .readClear) (field.has .writeOnce) := by
  obtain ⟨keeps, silent⟩ := Bool.or_eq_false_iff.mp steady
  have bus : field.isHardwareDriven = false := by
    unfold Field.isHardwareDriven
    cases access : field.access with
    | readOnly =>
      rw [access] at writable
      cases writable
    | readWrite => rfl
    | writeOnly => rfl
  unfold ofField
  rw [silent, keeps, bus, writable]
  rfl

theorem Template.ofField_plain {field : Field} (writable : field.access.isWritable = true)
    (plain : field.modifiers = .none) : Template.ofField field = .stored false false := by
  have lacks : ∀ modifier, field.has modifier = false := by
    intro modifier
    unfold Field.has
    rw [plain]
    cases modifier <;> rfl
  have steady : field.reverts = false := by
    unfold Field.reverts
    rw [lacks .selfClear, lacks .writePulse]
    rfl
  rw [ofField_stored writable steady, lacks .readClear, lacks .writeOnce]

section Accepted

variable {map : RegisterMap} {layout : Layout} {protocol : Protocol} {plan : Plan}
  (accepted : Accepted map layout protocol plan) {placed : PlacedRegister}
  (listed : placed ∈ layout.registers) {field : Field} (declared : field ∈ placed.register.fields)
  (writable : field.access.isWritable = true) (plain : field.modifiers = .none)

include accepted listed declared writable plain

/-- **Plain storage holds in each bit what its latest writer wrote**, and the
initial value where nothing was written since reset, whatever mix of cycles
and transfers over any buses the run is made of. -/
theorem output_eq_latest_write :
    ∃ machine, layout.buildMachine = .ok (some (machine, protocol)) ∧
      ∀ moves : List Move, ∃ value,
        (machine.afterMoves moves).output? placed.name field.name = some value ∧
          value < 2 ^ field.bits.width ∧
          ∀ i < field.bits.width, value.testBit i =
            bitAfter placed.address (field.bits.lsb + i) (field.initial.testBit i)
              (writesOf layout.dataWidth moves) := by
  refine ⟨_, accepted.buildMachine, ?_⟩
  intro moves
  have valid := accepted.field_valid listed declared
  have template : Template.ofField field = .stored false false :=
    Template.ofField_plain writable plain
  have fresh : (Cell.ofPlan (planField layout.config placed.register field)).reset.Stores field
      placed.address [] := .of_reset valid template rfl rfl placed.address
  have holds := (holds_make accepted listed declared).after
    (moves.flatMap (Move.actions layout.dataWidth))
  have stores := fresh.after (Seat.of placed field) valid
    (moves.flatMap (Move.actions layout.dataWidth))
  rw [Machine.afterMoves_eq, writesOf_eq]
  exact ⟨_, holds.output?, stores.value_lt, stores.value⟩

end Accepted

/-- The two halves of the mask of interrupts, which lie in different bytes, are
written by a driver and by a raw cycle, and a third write misses both. -/
def maskMoves : List Move :=
  [.via .axil (.writeStrobed 0 0x5a000 2), .act (.cycle (.writeRead 0 0x3b000 4 4)),
    .act (.setInput "irq" "pending" 1), .via .amm (.read 0), .act (.cycle (.write 0 0xfffff 9)),
    .via .apb (.write 4 0xfffff)]

theorem output_eq_latest_write_interrupts :
    ∃ machine, interruptLayout.buildMachine = .ok (some (machine, .apb)) ∧
      (∃ value, (machine.afterMoves maskMoves).output? "irq" "mask" = some value ∧
        value < 2 ^ 8 ∧ ∀ i < 8, value.testBit i =
          bitAfter 0 (12 + i) ((0xf0 : Nat).testBit i)
            [⟨0, 0x5a000, 2⟩, ⟨0, 0x3b000, 4⟩, ⟨0, 0xfffff, 9⟩, ⟨4, 0xfffff, 15⟩]) ∧
      (machine.afterMoves maskMoves).output? "irq" "mask" = some 0x3a := by
  have listed : interruptLayout.registers[0] ∈ interruptLayout.registers :=
    List.getElem_mem (by decide)
  have declared : interruptLayout.registers[0].register.fields[1] ∈
      interruptLayout.registers[0].register.fields := List.getElem_mem (by decide)
  rcases output_eq_latest_write accepted_interrupts listed declared rfl rfl with
    ⟨machine, built, holds⟩
  refine ⟨machine, built, holds maskMoves, ?_⟩
  rw [accepted_interrupts.buildMachine] at built
  cases built
  rfl

end RegisterBank.Bank
