import RegisterBank.Proofs.Bank.FieldRequests

/-!
# Levels that the bus writes

A field that the bus writes and that keeps what is written has two rules beside
plain storage: it may be written once only, and reading it may clear it.
`acceptedWrite?` says which write of a request takes effect, and `Level`
what one more request does to the value: an accepted write counts before a
clearing read.  Every law about such a field follows from `Level`, which holds
of all of them (`exists_level`); the lock of a field that is written once is
closed exactly if some write has reached the field since reset.
-/

namespace RegisterBank.Bank

/-! ## Accepted writes -/

/-- The write of a request that takes effect on a field, after earlier
requests.  A field that is written once takes the first only. -/
def acceptedWrite? (field : Field) (address : Nat) (earlier : List Request)
    (request : Request) : Option StrobedWrite :=
  if field.has .writeOnce && anyHit address field.bits earlier then none
  else request.fieldWrite? address field.bits

section Writes

variable {field : Field} {address : Nat} {earlier : List Request} {request : Request}

theorem fieldWrite?_of_accepted {write : StrobedWrite}
    (taken : acceptedWrite? field address earlier request = some write) :
    request.fieldWrite? address field.bits = some write ∧
      (field.has .writeOnce && anyHit address field.bits earlier) = false := by
  unfold acceptedWrite? at taken
  split at taken
  · cases taken
  · rename_i free
    exact ⟨taken, Bool.not_eq_true _ ▸ free⟩

/-- A refused write does not close a lock: either there was none, or it is
closed. -/
theorem anyHit_of_refused
    (refused : acceptedWrite? field address earlier request = none) :
    (field.has .writeOnce && anyHit address field.bits (earlier ++ [request])) =
      (field.has .writeOnce && anyHit address field.bits earlier) := by
  unfold acceptedWrite? at refused
  rw [anyHit_append]
  cases closed : field.has .writeOnce && anyHit address field.bits earlier with
  | true =>
    obtain ⟨once, hit⟩ := Bool.and_eq_true_iff.mp closed
    rw [once, hit]
    rfl
  | false =>
    rw [closed, if_neg Bool.false_ne_true] at refused
    rw [anyHit_singleton, refused, Option.isSome_none, Bool.or_false]
    exact closed

/-- No write of later requests takes effect after earlier ones. -/
def Refuses (field : Field) (address : Nat) (earlier later : List Request) : Prop :=
  ∀ before request after, later = before ++ request :: after →
    acceptedWrite? field address (earlier ++ before) request = none

theorem Refuses.of_append_singleton {later : List Request}
    (refuses : Refuses field address earlier (later ++ [request])) :
    Refuses field address earlier later ∧
      acceptedWrite? field address (earlier ++ later) request = none := by
  refine ⟨?_, refuses later request [] rfl⟩
  rintro before other after rfl
  exact refuses before other (after ++ [request]) (List.append_assoc _ _ _)

/-- Where no write reaches the field, none takes effect. -/
theorem refuses_of_quiet (earlier : List Request) {later : List Request}
    (quiet : anyHit address field.bits later = false) : Refuses field address earlier later := by
  rintro before request after rfl
  have misses := anyHit_eq_false_iff.mp quiet request
    (List.mem_append_right _ List.mem_cons_self)
  unfold acceptedWrite?
  rw [misses, ite_self]

/-- A field that is written once and has been written takes no further write. -/
theorem refuses_of_hit (once : field.has .writeOnce = true)
    (hit : anyHit address field.bits earlier = true) (later : List Request) :
    Refuses field address earlier later := by
  rintro before request after rfl
  unfold acceptedWrite?
  rw [once, anyHit_append, hit]
  rfl

end Writes

/-- The value of a level as a function of the requests since reset. -/
structure Level (field : Field) (address : Nat) (value : List Request → Nat) : Prop where
  start : value [] = field.initial
  next : ∀ earlier request, value (earlier ++ [request]) =
    match acceptedWrite? field address earlier request with
    | some write => write.mergedInto field.bits (value earlier)
    | none => if field.has .readClear && request.reads address then 0 else value earlier

namespace Level

variable {field : Field} {address : Nat} {value : List Request → Nat}
  (level : Level field address value) {earlier : List Request} {request : Request}

include level

theorem next_of_some {write : StrobedWrite}
    (taken : acceptedWrite? field address earlier request = some write) :
    value (earlier ++ [request]) = write.mergedInto field.bits (value earlier) := by
  rw [level.next, taken]

theorem next_of_none (refused : acceptedWrite? field address earlier request = none) :
    value (earlier ++ [request]) =
      if field.has .readClear && request.reads address then 0 else value earlier := by
  rw [level.next, refused]

/-- Requests whose writes do not take effect leave the value alone, unless one
of them is a clearing read. -/
theorem append_of_refuses {later : List Request}
    (refuses : Refuses field address earlier later) :
    value (earlier ++ later) =
      if field.has .readClear && later.any (Request.reads address) then 0 else value earlier := by
  induction later using List.reverseRecOn with
  | nil =>
    rw [List.append_nil, List.any_nil, Bool.and_false]
    rfl
  | append_singleton later request ih =>
    obtain ⟨others, last⟩ := refuses.of_append_singleton
    rw [← List.append_assoc, level.next_of_none last, ih others, List.any_append, List.any_cons,
      List.any_nil, Bool.or_false]
    cases field.has .readClear with
    | false => rfl
    | true =>
      cases request.reads address with
      | false => rw [Bool.and_false, Bool.or_false]; rfl
      | true => rw [Bool.or_true]; rfl

end Level

/-! ## Cells -/

/-- A stored cell of a field, after requests since reset. -/
structure Cell.Keeps (field : Field) (address : Nat) (requests : List Request) (cell : Cell) :
    Prop where
  template : cell.template = .stored (field.has .readClear) (field.has .writeOnce)
  bits : cell.bits = field.bits
  value_lt : cell.value < 2 ^ field.bits.width
  lock : cell.writeOnce =
    if field.has .writeOnce && anyHit address field.bits requests then .locked else .unlocked

namespace Cell.Keeps

variable {field : Field} {address : Nat} {requests : List Request} {cell : Cell}

theorem of_reset (valid : field.Valid)
    (template : cell.template = .stored (field.has .readClear) (field.has .writeOnce))
    (bits : cell.bits = field.bits) (initial : cell.initial = field.initial) :
    cell.reset.Keeps field address [] ∧ cell.reset.value = field.initial := by
  have value : cell.reset.value = field.initial := by
    show cell.resetValue = field.initial
    unfold Cell.resetValue
    rw [template, ← initial]
  refine ⟨⟨template, bits, ?_, ?_⟩, value⟩
  · rw [value]
    exact valid.initial_lt
  · show WriteOnceState.unlocked = _
    rw [Bool.and_comm]
    rfl

theorem narrow (keeps : cell.Keeps field address requests) (valid : field.Valid) :
    cell.bits.above ≤ Bits.wordWidth := by
  rw [keeps.bits]
  exact valid.above_le

/-- A write is let through exactly if it is accepted. -/
theorem accepts (keeps : cell.Keeps field address requests) (valid : field.Valid)
    (request : Request) :
    (cell.isStrobed (request.writeAt? address) &&
        (!field.has .writeOnce || cell.writeOnce.acceptsWrite)) =
      (acceptedWrite? field address requests request).isSome := by
  have strobed : cell.isStrobed (request.writeAt? address) = _ := isStrobed_writeAt (keeps.narrow valid)
  rw [strobed, keeps.bits, keeps.lock]
  unfold acceptedWrite?
  cases field.has .writeOnce with
  | false => exact Bool.and_true _
  | true =>
    cases anyHit address field.bits requests with
    | false => exact Bool.and_true _
    | true => exact Bool.and_false _

/-- A clock edge does to the value what `Level` says. -/
theorem step_value (keeps : cell.Keeps field address requests) (valid : field.Valid)
    (request : Request) :
    (cell.step (request.writeAt? address) (request.reads address)).value =
      match acceptedWrite? field address requests request with
      | some write => write.mergedInto field.bits cell.value
      | none => if field.has .readClear && request.reads address then 0 else cell.value := by
  have bound : cell.value < 2 ^ cell.bits.width := by
    rw [keeps.bits]
    exact keeps.value_lt
  rw [step_stored _ _ keeps.template, keeps.accepts valid request]
  cases taken : acceptedWrite? field address requests request with
  | some write =>
    have hit := (fieldWrite?_of_accepted taken).1
    rw [← keeps.bits] at hit ⊢
    exact loaded_writeAt (keeps.narrow valid) bound hit
  | none =>
    rw [Option.isSome_none, if_neg Bool.false_ne_true]
    cases field.has .readClear && request.reads address with
    | true => rfl
    | false => rfl

theorem step_lock (keeps : cell.Keeps field address requests) (valid : field.Valid)
    (request : Request) :
    (cell.step (request.writeAt? address) (request.reads address)).writeOnce =
      if field.has .writeOnce && anyHit address field.bits (requests ++ [request]) then .locked
      else .unlocked := by
  rw [step_stored _ _ keeps.template, keeps.accepts valid request]
  have lock := keeps.lock
  cases taken : acceptedWrite? field address requests request with
  | some write =>
    obtain ⟨hit, free⟩ := fieldWrite?_of_accepted taken
    rw [free] at lock
    rw [anyHit_append, anyHit_singleton, hit, Option.isSome_some, Bool.or_true, Bool.and_true,
      if_pos rfl]
    dsimp only
    rw [lock]
    cases field.has .writeOnce with
    | true => rfl
    | false => rfl
  | none =>
    rw [anyHit_of_refused taken, ← lock, Option.isSome_none, if_neg Bool.false_ne_true]
    cases field.has .readClear && request.reads address with
    | true => rfl
    | false => rfl

theorem step (keeps : cell.Keeps field address requests) (valid : field.Valid)
    (request : Request) :
    (cell.step (request.writeAt? address) (request.reads address)).Keeps field address
      (requests ++ [request]) := by
  obtain ⟨value, selfClear, writeOnce, stepped⟩ :=
    cell.step_frame (request.writeAt? address) (request.reads address)
  have lock := keeps.step_lock valid request
  have stored := keeps.step_value valid request
  rw [stepped] at lock stored ⊢
  refine ⟨keeps.template, keeps.bits, ?_, lock⟩
  rw [stored]
  split
  · exact Nat.ofBits_lt_two_pow _
  · split
    · exact Nat.two_pow_pos _
    · exact keeps.value_lt

theorem serve (keeps : cell.Keeps field address []) (valid : field.Valid)
    (requests : List Request) : (cell.serve address requests).Keeps field address requests := by
  induction requests using List.reverseRecOn with
  | nil => exact keeps
  | append_singleton before request ih =>
    rw [serve_append_singleton]
    exact ih.step valid request

/-- The value of a stored cell is a level. -/
theorem level (keeps : cell.Keeps field address []) (valid : field.Valid)
    (start : cell.value = field.initial) :
    Level field address fun requests => (cell.serve address requests).value where
  start := start
  next := by
    intro earlier request
    rw [serve_append_singleton]
    exact (keeps.serve valid earlier).step_value valid request

end Cell.Keeps

/-! ## Accepted layouts -/

/-- A field that reads clear or that is written once does not go back to zero by
itself. -/
theorem reverts_eq_false {field : Field} (valid : field.Valid) {modifier : Modifier}
    (kind : modifier = .readClear ∨ modifier = .writeOnce) (has : field.has modifier = true) :
    field.reverts = false := by
  have lacks : ∀ other, (other, modifier) ∈ Modifier.exclusivePairs → field.has other = false := by
    intro other listed
    rw [← Bool.not_eq_true]
    exact fun both => valid.exclusive (other, modifier) listed ⟨both, has⟩
  unfold Field.reverts
  rcases kind with rfl | rfl
  · rw [lacks .selfClear (by decide), lacks .writePulse (by decide)]
    rfl
  · rw [lacks .selfClear (by decide), lacks .writePulse (by decide)]
    rfl

theorem Template.isWriteOnce_ofField_iff {field : Field} (valid : field.Valid) :
    (ofField field).isWriteOnce = true ↔ field.has .writeOnce = true := by
  constructor
  · intro once
    unfold ofField at once
    revert once
    cases field.has .writePulse <;> cases field.has .selfClear <;>
      cases field.isHardwareDriven <;> cases field.access.isWritable <;> simp [isWriteOnce]
  · intro once
    have writable : field.access.isWritable = true := valid.access .writeOnce once
    rw [Template.ofField_stored writable (reverts_eq_false valid (.inr rfl) once)]
    exact once

/-- Whether a field does not take writes any more. -/
def Machine.isLocked (machine : Machine) (register field : String) : Bool :=
  (machine.cell? register field).any fun cell => cell.writeOnce == .locked

section Layouts

variable {map : RegisterMap} {layout : Layout} {protocol : Bus.Protocol} {plan : Plan}
  (accepted : Accepted map layout protocol plan) {placed : PlacedRegister}
  (listed : placed ∈ layout.registers) {field : Field} (declared : field ∈ placed.register.fields)
  (writable : field.access.isWritable = true) (steady : field.reverts = false)

include accepted listed declared writable steady

/-- In any run, a field that the bus writes and that keeps what is written is a
level of the requests since reset, and so is its lock. -/
theorem exists_level :
    ∃ value, Level field placed.address value ∧ ∀ actions,
      ∃ cell, ((Machine.make plan layout.dataWidth layout.config.readFiller).after actions).Holds
          (Seat.of placed field) cell ∧
        cell.Keeps field placed.address (requestsOf actions) ∧
        cell.value = value (requestsOf actions) := by
  have valid := accepted.field_valid listed declared
  have template := Template.ofField_stored writable steady
  have output : (Template.ofField field).direction = .output := by
    rw [template]
    rfl
  obtain ⟨fresh, start⟩ : (Cell.ofPlan (planField layout.config placed.register field)).reset.Keeps
      field placed.address [] ∧ _ := Cell.Keeps.of_reset valid template rfl rfl
  refine ⟨_, fresh.level valid start, ?_⟩
  intro actions
  exact ⟨_, holds_serve accepted listed declared output actions,
    fresh.serve valid (requestsOf actions), rfl⟩

end Layouts

end RegisterBank.Bank
