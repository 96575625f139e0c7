import RegisterBank.Proofs.Bank.StoredFields

/-!
# Fields that are written once

The first write that reaches a field which is written once closes its lock, and
only a reset opens it again.  The refused writes are the delicate ones: in a
cycle that also reads the register, a field that reads clear is cleared beside
a refused write, but not beside the first.  `WrittenOnce` says what this makes
of the value: the first write takes effect, every other might as well not be
there, and where reads do not clear the value stays for ever after.
-/

namespace RegisterBank.Bank

/-- A request without its write. -/
def Request.withoutWrite : Request → Request
  | .idle | .write _ _ _ => .idle
  | .read address | .writeRead _ _ _ address => .read address

theorem Request.readAddress?_withoutWrite (request : Request) :
    request.withoutWrite.readAddress? = request.readAddress? := by
  cases request <;> rfl

theorem Request.fieldWrite?_withoutWrite (request : Request) (address : Nat) (bits : BitRange) :
    request.withoutWrite.fieldWrite? address bits = none := by
  cases request <;> rfl

/-- As long as no write has reached a field, every write is accepted. -/
theorem acceptedWrite?_of_free {field : Field} {address : Nat} {earlier : List Request}
    (free : anyHit address field.bits earlier = false) (request : Request) :
    acceptedWrite? field address earlier request = request.fieldWrite? address field.bits := by
  unfold acceptedWrite?
  rw [free, Bool.and_false, if_neg Bool.false_ne_true]

/-- A field that is written once accepts the first write only. -/
theorem acceptedWrite?_of_other {field : Field} {address : Nat} {earlier : List Request}
    {request : Request} (once : field.has .writeOnce = true)
    (other : anyHit address field.bits earlier = true ∨
      request.fieldWrite? address field.bits = none) :
    acceptedWrite? field address earlier request = none := by
  unfold acceptedWrite?
  rcases other with hit | misses
  · rw [once, hit]
    rfl
  · rw [misses, ite_self]

/-- The value of a field that is written once, as a function of the requests
since reset. -/
structure WrittenOnce (field : Field) (address : Nat) (value : List Request → Nat) : Prop where
  /-- The first write that reaches the field takes effect, also beside a
  read. -/
  first : ∀ earlier request write, anyHit address field.bits earlier = false →
    request.fieldWrite? address field.bits = some write →
    value (earlier ++ [request]) = write.mergedInto field.bits (value earlier)
  /-- Every other write might as well not be there. -/
  dropped : ∀ earlier request later,
    anyHit address field.bits earlier = true ∨ request.fieldWrite? address field.bits = none →
    value (earlier ++ request :: later) = value (earlier ++ request.withoutWrite :: later)
  /-- Any change but that of the first write is a clearing read. -/
  cleared : ∀ earlier request,
    anyHit address field.bits earlier = true ∨ request.fieldWrite? address field.bits = none →
    value (earlier ++ [request]) ≠ value earlier →
    value (earlier ++ [request]) = 0 ∧ field.has .readClear = true ∧
      request.readAddress? = some address
  /-- Where reads do not clear, the initial value stays until the first
  write, … -/
  untouched : field.has .readClear = false → ∀ requests,
    anyHit address field.bits requests = false → value requests = field.initial
  /-- … and what the first write makes of it stays for ever after. -/
  settled : field.has .readClear = false → ∀ earlier request write later,
    anyHit address field.bits earlier = false →
    request.fieldWrite? address field.bits = some write →
    value (earlier ++ request :: later) = write.mergedInto field.bits field.initial

namespace Level

variable {field : Field} {address : Nat} {value : List Request → Nat}
  (level : Level field address value)

include level

/-- Requests do the same after two histories with the same value and the same
lock. -/
theorem append_congr {first second : List Request} (same : value first = value second)
    (hits : anyHit address field.bits first = anyHit address field.bits second)
    (later : List Request) : value (first ++ later) = value (second ++ later) := by
  induction later using List.reverseRecOn with
  | nil =>
    rw [List.append_nil, List.append_nil]
    exact same
  | append_singleton later request ih =>
    have accepts : acceptedWrite? field address (first ++ later) request =
        acceptedWrite? field address (second ++ later) request := by
      unfold acceptedWrite?
      rw [anyHit_append, anyHit_append, hits]
    rw [← List.append_assoc, ← List.append_assoc, level.next, level.next, accepts, ih]

/-- Where neither a read nor a write changes it, the initial value stays. -/
theorem eq_initial (keeps : field.has .readClear = false) {requests : List Request}
    (free : anyHit address field.bits requests = false) : value requests = field.initial := by
  have held := level.append_of_refuses (refuses_of_quiet [] free)
  rw [keeps, level.start] at held
  exact held

theorem writtenOnce (once : field.has .writeOnce = true) : WrittenOnce field address value := by
  constructor
  case first =>
    intro earlier request write free hit
    exact level.next_of_some ((acceptedWrite?_of_free free request).trans hit)
  case dropped =>
    intro earlier request later other
    have bare := request.fieldWrite?_withoutWrite address field.bits
    have value_eq : value (earlier ++ [request]) = value (earlier ++ [request.withoutWrite]) := by
      rw [level.next_of_none (acceptedWrite?_of_other once other),
        level.next_of_none (acceptedWrite?_of_other once (.inr bare))]
      unfold Request.reads
      rw [request.readAddress?_withoutWrite]
    have hits : anyHit address field.bits (earlier ++ [request]) =
        anyHit address field.bits (earlier ++ [request.withoutWrite]) := by
      rw [anyHit_append, anyHit_append]
      rcases other with hit | misses
      · rw [hit, Bool.true_or, Bool.true_or]
      · rw [anyHit_singleton, anyHit_singleton, misses, bare]
    rw [List.append_cons earlier request, List.append_cons earlier request.withoutWrite]
    exact level.append_congr value_eq hits later
  case cleared =>
    intro earlier request other changed
    rw [level.next_of_none (acceptedWrite?_of_other once other)] at changed ⊢
    cases clearing : field.has .readClear && request.reads address with
    | false =>
      rw [clearing] at changed
      exact absurd rfl changed
    | true =>
      obtain ⟨clears, reads⟩ := Bool.and_eq_true_iff.mp clearing
      exact ⟨rfl, clears, beq_iff_eq.mp reads⟩
  case untouched => exact fun keeps _ free => level.eq_initial keeps free
  case settled =>
    intro keeps earlier request write later free hit
    have taken := level.next_of_some ((acceptedWrite?_of_free free request).trans hit)
    have closed : anyHit address field.bits (earlier ++ [request]) = true := by
      rw [anyHit_append, anyHit_singleton, hit]
      exact Bool.or_true _
    have held := level.append_of_refuses (refuses_of_hit once closed later)
    rw [keeps, taken, level.eq_initial keeps free] at held
    rw [List.append_cons]
    exact held

end Level

/-! ## Accepted layouts -/

section Accepted

variable {map : RegisterMap} {layout : Layout} {protocol : Bus.Protocol} {plan : Plan}
  (accepted : Accepted map layout protocol plan) {placed : PlacedRegister}
  (listed : placed ∈ layout.registers) {field : Field} (declared : field ∈ placed.register.fields)
  (once : field.has .writeOnce = true)

include accepted listed declared once

/-- In any run the lock is closed exactly if a write has reached the field since
reset. -/
theorem isLocked_after (actions : List Action) :
    ((Machine.make plan layout.dataWidth layout.config.readFiller).after actions).isLocked
      placed.name field.name = anyHit placed.address field.bits (requestsOf actions) := by
  have valid := accepted.field_valid listed declared
  have writable : field.access.isWritable = true := valid.access .writeOnce once
  have steady := reverts_eq_false valid (.inr rfl) once
  obtain ⟨_, -, holds⟩ := exists_level accepted listed declared writable steady
  obtain ⟨cell, here, keeps, -⟩ := holds actions
  have found : Machine.cell? _ placed.name field.name = some cell := here.cell?
  unfold Machine.isLocked
  rw [found]
  show (cell.writeOnce == .locked) = _
  rw [keeps.lock, once, Bool.true_and]
  cases anyHit placed.address field.bits (requestsOf actions) with
  | true => rfl
  | false => rfl

/-- No action but a reset opens the lock. -/
theorem eq_reset_of_opened {actions : List Action} {action : Action}
    (closed : ((Machine.make plan layout.dataWidth layout.config.readFiller).after
      actions).isLocked placed.name field.name = true)
    (opened : ((Machine.make plan layout.dataWidth layout.config.readFiller).after
      (actions ++ [action])).isLocked placed.name field.name = false) :
    action = .reset := by
  rw [isLocked_after accepted listed declared once] at closed opened
  rw [requestsOf_append_singleton] at opened
  cases action with
  | reset => rfl
  | setInput register name value =>
    change anyHit placed.address field.bits (requestsOf actions) = false at opened
    rw [closed] at opened
    cases opened
  | cycle request =>
    change anyHit placed.address field.bits (requestsOf actions ++ [request]) = false at opened
    rw [anyHit_append, closed] at opened
    cases opened

/-- **A field that is written once is locked by its first write until reset.**
In any run it is locked exactly if a write has reached it since reset, no
action but a reset opens the lock, and what it holds is what the first write
made of it, reads that clear it aside. -/
theorem writeOnce_locks :
    ∃ machine, layout.buildMachine = .ok (some (machine, protocol)) ∧
      ∃ value, WrittenOnce field placed.address value ∧ ∀ actions,
        (machine.after actions).output? placed.name field.name =
            some (value (requestsOf actions)) ∧
          (machine.after actions).isLocked placed.name field.name =
            anyHit placed.address field.bits (requestsOf actions) ∧
          ∀ action, (machine.after actions).isLocked placed.name field.name = true →
            (machine.after (actions ++ [action])).isLocked placed.name field.name = false →
            action = .reset := by
  have valid := accepted.field_valid listed declared
  have writable : field.access.isWritable = true := valid.access .writeOnce once
  have steady := reverts_eq_false valid (.inr rfl) once
  obtain ⟨value, level, holds⟩ := exists_level accepted listed declared writable steady
  refine ⟨_, accepted.buildMachine, value, level.writtenOnce once, ?_⟩
  intro actions
  refine ⟨?_, isLocked_after accepted listed declared once actions, ?_⟩
  · obtain ⟨cell, here, -, same⟩ := holds actions
    rw [← same]
    exact here.output?
  · intro action closed opened
    exact eq_reset_of_opened accepted listed declared once closed opened

end Accepted

/-- The token is read, which clears it, and then written in part. -/
def tokenActions : List Action := [.cycle (.read 4), .cycle (.write 4 0xabc0000 4)]

theorem writeOnce_locks_commands :
    ∃ machine, commandLayout.buildMachine = .ok (some (machine, .axil)) ∧
      (∃ value, WrittenOnce commandLayout.registers[1].register.fields[1] 4 value ∧
        (machine.after tokenActions).output? "evt" "token" =
          some (value [.read 4, .write 4 0xabc0000 4]) ∧
        value [.read 4, .write 4 0xabc0000 4, .writeRead 4 0x5550000 15 4] =
          value [.read 4, .write 4 0xabc0000 4, .read 4]) ∧
      (machine.after tokenActions).isLocked "evt" "token" = true ∧
      (machine.after tokenActions).output? "evt" "token" = some 0xbc ∧
      (machine.after (tokenActions ++ [.cycle (.writeRead 4 0x5550000 15 0)])).output?
          "evt" "token" = some 0xbc := by
  have listed : commandLayout.registers[1] ∈ commandLayout.registers :=
    List.getElem_mem (by decide)
  have declared : commandLayout.registers[1].register.fields[1] ∈
      commandLayout.registers[1].register.fields := List.getElem_mem (by decide)
  rcases writeOnce_locks accepted_commands listed declared rfl with
    ⟨machine, built, value, once, shows⟩
  obtain ⟨shown, locked, -⟩ := shows tokenActions
  refine ⟨machine, built, ⟨value, once, shown, ?_⟩, locked, ?_, ?_⟩
  · exact once.dropped [.read 4, .write 4 0xabc0000 4] (.writeRead 4 0x5550000 15 4) []
      (.inl rfl)
  · rw [accepted_commands.buildMachine] at built
    cases built
    rfl
  · rw [accepted_commands.buildMachine] at built
    cases built
    rfl

end RegisterBank.Bank
