import RegisterBank.Proofs.Bank.LastWriter

/-!
# Requests as a field sees them

A field that the bus writes has no hardware input, so what it holds depends on
the requests since reset alone (`Cell.after_eq_serve`).  Of a request it sees
whether its register is read, and the write that reaches it, if any: one that
goes to the register's address and strobes at least one of the field's bits
(`Request.fieldWrite?`).  What such a write brings is described bit by bit,
without the masks that a machine computes with.
-/

namespace RegisterBank.Bank

/-! ## Requests of a run -/

/-- The requests since reset after one more action. -/
def Action.requests (earlier : List Request) : Action → List Request
  | .cycle request => earlier ++ [request]
  | .setInput _ _ _ => earlier
  | .reset => []

/-- The requests of a run since its last reset, or since its start. -/
def requestsOf (actions : List Action) : List Request := actions.foldl Action.requests []

theorem requestsOf_append_singleton (actions : List Action) (action : Action) :
    requestsOf (actions ++ [action]) = action.requests (requestsOf actions) :=
  List.foldl_append

/-- What is done between cycles adds no request, but a reset takes back all
earlier ones. -/
theorem requestsOf_between (actions : List Action) (request : Request) {between : List Action}
    (silent : ∀ action ∈ between, ∀ other, action ≠ .cycle other) :
    requestsOf (actions ++ .cycle request :: between) = requestsOf actions ++ [request] ∨
      requestsOf (actions ++ .cycle request :: between) = [] := by
  induction between using List.reverseRecOn with
  | nil => exact .inl (requestsOf_append_singleton actions _)
  | append_singleton before action ih =>
    obtain ⟨others, last⟩ := List.forall_mem_append.mp silent
    have earlier := ih others
    have split : actions ++ .cycle request :: (before ++ [action]) =
        actions ++ .cycle request :: before ++ [action] := by
      rw [List.append_assoc, List.cons_append]
    rw [split, requestsOf_append_singleton]
    cases action with
    | cycle other => exact absurd rfl (List.forall_mem_singleton.mp last other)
    | setInput register field value => exact earlier
    | reset => exact .inr rfl

/-- Whether a request reads the register at an address. -/
def Request.reads (address : Nat) (request : Request) : Bool :=
  request.readAddress? == some address

/-! ## Writes to a field -/

namespace StrobedWrite

/-- Whether a write goes to an address and strobes some bit of a field there. -/
def hitsField (address : Nat) (bits : BitRange) (write : StrobedWrite) : Bool :=
  (List.range bits.width).any fun i => write.hits address (bits.lsb + i)

/-- The written data of a field, with zeros for the bits that are not
strobed. -/
def strobedBits (bits : BitRange) (write : StrobedWrite) : Nat :=
  Nat.ofBits fun i : Fin bits.width =>
    write.strobe.testBit ((bits.lsb + i) / 8) && write.data.testBit (bits.lsb + i)

/-- The value of a field with the strobed bits taken from a write. -/
def mergedInto (bits : BitRange) (value : Nat) (write : StrobedWrite) : Nat :=
  Nat.ofBits fun i : Fin bits.width =>
    if write.strobe.testBit ((bits.lsb + i) / 8) then write.data.testBit (bits.lsb + i)
    else value.testBit i

theorem hitsField_eq_true_iff {address : Nat} {bits : BitRange} {write : StrobedWrite} :
    write.hitsField address bits = true ↔
      write.address = address ∧
        ∃ i < bits.width, write.strobe.testBit ((bits.lsb + i) / 8) = true := by
  unfold hitsField hits
  simp only [List.any_eq_true, List.mem_range, Bool.and_eq_true, beq_iff_eq]
  constructor
  · rintro ⟨i, inside, here, strobed⟩
    exact ⟨here, i, inside, strobed⟩
  · rintro ⟨here, i, inside, strobed⟩
    exact ⟨i, inside, here, strobed⟩

end StrobedWrite

/-- The write by which a request reaches a field at an address. -/
def Request.fieldWrite? (address : Nat) (bits : BitRange) (request : Request) :
    Option StrobedWrite :=
  request.strobedWrite?.filter (StrobedWrite.hitsField address bits)

namespace Request

variable {address : Nat} {bits : BitRange} {request : Request} {write : StrobedWrite}

theorem fieldWrite?_eq_some_iff :
    request.fieldWrite? address bits = some write ↔
      request.strobedWrite? = some write ∧ write.hitsField address bits = true := by
  unfold fieldWrite?
  rw [Option.filter_eq_some_iff]

/-- What reaches a field is carried to its register. -/
theorem writeAt?_of_fieldWrite? (hit : request.fieldWrite? address bits = some write) :
    request.writeAt? address = some write.onBus := by
  obtain ⟨carried, reaches⟩ := fieldWrite?_eq_some_iff.mp hit
  obtain ⟨here, -⟩ := StrobedWrite.hitsField_eq_true_iff.mp reaches
  unfold writeAt?
  rw [request.write?_eq, carried, Option.map_some, Option.filter_some]
  exact if_pos (beq_iff_eq.mpr here)

/-- What is carried to a register comes from a write to its address. -/
theorem exists_of_writeAt? {given : BusWrite} (going : request.writeAt? address = some given) :
    ∃ write, request.strobedWrite? = some write ∧ write.address = address ∧
      write.onBus = given := by
  unfold writeAt? at going
  rw [request.write?_eq, Option.filter_eq_some_iff, Option.map_eq_some_iff] at going
  obtain ⟨⟨write, carried, rfl⟩, here⟩ := going
  exact ⟨write, carried, beq_iff_eq.mp here, rfl⟩

end Request

/-- Whether one of some requests reaches a field. -/
def anyHit (address : Nat) (bits : BitRange) (requests : List Request) : Bool :=
  requests.any fun request => (request.fieldWrite? address bits).isSome

theorem anyHit_eq_false_iff {address : Nat} {bits : BitRange} {requests : List Request} :
    anyHit address bits requests = false ↔
      ∀ request ∈ requests, request.fieldWrite? address bits = none := by
  unfold anyHit
  simp only [List.any_eq_false, Bool.not_eq_true, Option.isSome_eq_false_iff,
    Option.isNone_iff_eq_none]

theorem anyHit_append (address : Nat) (bits : BitRange) (before after : List Request) :
    anyHit address bits (before ++ after) =
      (anyHit address bits before || anyHit address bits after) :=
  List.any_append

theorem anyHit_singleton (address : Nat) (bits : BitRange) (request : Request) :
    anyHit address bits [request] = (request.fieldWrite? address bits).isSome :=
  Bool.or_false _

/-! ## Writes to a cell -/

namespace Cell

variable {cell : Cell}

/-- A cell's part of a mask has a bit exactly if a bit of the field is
strobed. -/
theorem extract_strobeMask_ne_zero_iff (narrow : cell.bits.above ≤ Bits.wordWidth)
    (strobe : Nat) :
    cell.extract (Bits.strobeMask strobe) ≠ 0 ↔
      ∃ i < cell.bits.width, strobe.testBit ((cell.bits.lsb + i) / 8) = true := by
  unfold BitRange.above at narrow
  unfold extract
  constructor
  · intro some
    obtain ⟨i, set⟩ := Nat.exists_testBit_of_ne_zero some
    rw [Bits.testBit_extract, Bits.testBit_strobeMask, Bool.and_eq_true, Bool.and_eq_true,
      decide_eq_true_eq, decide_eq_true_eq] at set
    exact ⟨i, by omega, set.1.2⟩
  · rintro ⟨i, inside, strobed⟩ none
    have within : i < min cell.bits.width Bits.wordWidth := by omega
    have reach : cell.bits.lsb + i < Bits.wordWidth := by omega
    have set : (Bits.extract (Bits.strobeMask strobe) cell.bits.lsb cell.bits.width).testBit i =
        true := by
      rw [Bits.testBit_extract, Bits.testBit_strobeMask, strobed, decide_eq_true within,
        decide_eq_true reach]
      rfl
    rw [none, Nat.zero_testBit] at set
    cases set

section Writes

variable (narrow : cell.bits.above ≤ Bits.wordWidth) {request : Request} {address : Nat}

include narrow

/-- A request strobes the cell exactly if its write reaches the field. -/
theorem isStrobed_writeAt :
    cell.isStrobed (request.writeAt? address) =
      (request.fieldWrite? address cell.bits).isSome := by
  cases hit : request.fieldWrite? address cell.bits with
  | some write =>
    obtain ⟨-, reaches⟩ := Request.fieldWrite?_eq_some_iff.mp hit
    obtain ⟨-, strobed⟩ := StrobedWrite.hitsField_eq_true_iff.mp reaches
    rw [Request.writeAt?_of_fieldWrite? hit]
    exact bne_iff_ne.mpr ((extract_strobeMask_ne_zero_iff narrow write.strobe).mpr strobed)
  | none =>
    cases going : request.writeAt? address with
    | none => rfl
    | some given =>
      obtain ⟨write, carried, here, rfl⟩ := Request.exists_of_writeAt? going
      rw [Option.isSome_none, ← Bool.not_eq_true]
      intro strobed
      have set := (extract_strobeMask_ne_zero_iff narrow write.strobe).mp (bne_iff_ne.mp strobed)
      have reaches := StrobedWrite.hitsField_eq_true_iff.mpr ⟨here, set⟩
      rw [Request.fieldWrite?_eq_some_iff.mpr ⟨carried, reaches⟩] at hit
      cases hit

variable {write : StrobedWrite}

/-- What a write that reaches the field leaves of its data. -/
theorem writtenBits_writeAt (hit : request.fieldWrite? address cell.bits = some write) :
    cell.writtenBits (request.writeAt? address) = write.strobedBits cell.bits := by
  unfold BitRange.above at narrow
  rw [Request.writeAt?_of_fieldWrite? hit]
  show cell.extract write.data &&& cell.extract (Bits.strobeMask write.strobe) = _
  apply Nat.eq_of_testBit_eq
  intro i
  unfold extract
  rw [Nat.testBit_and, Bits.testBit_extract, Bits.testBit_extract, Bits.testBit_strobeMask,
    StrobedWrite.strobedBits, Nat.testBit_ofBits, Nat.min_eq_left (by omega)]
  by_cases inside : i < cell.bits.width
  · have reach : cell.bits.lsb + i < Bits.wordWidth := by omega
    rw [dif_pos inside, decide_eq_true inside, decide_eq_true reach, Bool.and_true,
      Bool.and_true, Bool.true_and, Bool.and_comm]
  · rw [dif_neg inside, decide_eq_false inside, Bool.and_false, Bool.false_and]

/-- What a write that reaches the field makes of its value. -/
theorem loaded_writeAt (bound : cell.value < 2 ^ cell.bits.width)
    (hit : request.fieldWrite? address cell.bits = some write) :
    cell.loaded (request.writeAt? address) = write.mergedInto cell.bits cell.value := by
  obtain ⟨-, reaches⟩ := Request.fieldWrite?_eq_some_iff.mp hit
  obtain ⟨here, -⟩ := StrobedWrite.hitsField_eq_true_iff.mp reaches
  have kept := loaded_lt bound (request.writeAt? address)
  rw [Request.writeAt?_of_fieldWrite? hit] at kept ⊢
  apply Nat.eq_of_testBit_eq
  intro i
  rw [StrobedWrite.mergedInto, Nat.testBit_ofBits]
  by_cases inside : i < cell.bits.width
  · have loads := testBit_loaded narrow inside write address
    have same : (write.onBus.address == address) = true := beq_iff_eq.mpr here
    unfold StrobedWrite.hits at loads
    rw [here, beq_self_eq_true, Bool.true_and, Option.filter_some, if_pos same] at loads
    rw [dif_pos inside]
    exact loads
  · rw [dif_neg inside, Bits.testBit_of_lt kept (Nat.le_of_not_lt inside)]

end Writes

end Cell

/-! ## Cells without a hardware input -/

namespace Cell

/-- A cell at an address after the clock edges of requests. -/
def serve (address : Nat) (cell : Cell) (requests : List Request) : Cell :=
  requests.foldl
    (fun cell request => cell.step (request.writeAt? address) (request.reads address)) cell

theorem serve_append_singleton (address : Nat) (cell : Cell) (requests : List Request)
    (request : Request) :
    cell.serve address (requests ++ [request]) =
      (cell.serve address requests).step (request.writeAt? address) (request.reads address) :=
  List.foldl_append

/-- Requests change the value and the states, and nothing else. -/
theorem serve_frame (address : Nat) (cell : Cell) (requests : List Request) :
    ∃ value selfClear writeOnce,
      cell.serve address requests = { cell with value, selfClear, writeOnce } := by
  induction requests generalizing cell with
  | nil => exact ⟨_, _, _, rfl⟩
  | cons request rest ih =>
    obtain ⟨value, selfClear, writeOnce, stepped⟩ :=
      cell.step_frame (request.writeAt? address) (request.reads address)
    obtain ⟨value', selfClear', writeOnce', served⟩ := ih { cell with value, selfClear, writeOnce }
    refine ⟨value', selfClear', writeOnce', ?_⟩
    show (cell.step (request.writeAt? address) (request.reads address)).serve address rest = _
    rw [stepped, served]

/-- A cell that has no hardware input is as the requests since reset leave
it. -/
theorem after_eq_serve (seat : Seat) {cell : Cell} (output : cell.template.direction = .output)
    (actions : List Action) :
    cell.reset.after seat actions = cell.reset.serve seat.address (requestsOf actions) := by
  -- From the last action back, which acts on what the requests before it leave.
  induction actions using List.reverseRecOn with
  | nil => rfl
  | append_singleton before action ih =>
    have stepped : cell.reset.after seat (before ++ [action]) =
        (cell.reset.after seat before).act seat action := List.foldl_append
    obtain ⟨value, selfClear, writeOnce, served⟩ :=
      cell.reset.serve_frame seat.address (requestsOf before)
    rw [stepped, ih, requestsOf_append_singleton]
    cases action with
    | cycle request => exact (serve_append_singleton _ _ _ _).symm
    | setInput register field value =>
      -- An output has no level that could be driven.
      have lacks : ¬ (register = seat.register ∧ field = seat.field ∧
          (cell.reset.serve seat.address (requestsOf before)).hasInput = true) := by
        rintro ⟨-, -, has⟩
        rw [served] at has
        change (cell.template.direction == .input) = true at has
        rw [output] at has
        cases has
      exact if_neg lacks
    | reset =>
      show (cell.reset.serve seat.address (requestsOf before)).reset = cell.reset
      rw [served]
      rfl

end Cell

section Accepted

variable {map : RegisterMap} {layout : Layout} {protocol : Bus.Protocol} {plan : Plan}
  (accepted : Accepted map layout protocol plan) {placed : PlacedRegister}
  (listed : placed ∈ layout.registers) {field : Field} (declared : field ∈ placed.register.fields)
  (output : (Template.ofField field).direction = .output)

include accepted listed declared output

/-- After any run, a field without a hardware input is as the requests since
reset leave it. -/
theorem holds_serve (actions : List Action) :
    ((Machine.make plan layout.dataWidth layout.config.readFiller).after actions).Holds
      (Seat.of placed field)
      ((Cell.ofPlan (planField layout.config placed.register field)).reset.serve placed.address
        (requestsOf actions)) := by
  have served :
      (Cell.ofPlan (planField layout.config placed.register field)).reset.after
          (Seat.of placed field) actions = _ :=
    Cell.after_eq_serve (Seat.of placed field) output actions
  have holds := (holds_make accepted listed declared).after actions
  rw [served] at holds
  exact holds

end Accepted

end RegisterBank.Bank
