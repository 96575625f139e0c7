import RegisterBank.Proofs.Bank.StoredFields

/-!
# Levels that reading clears

A field that the bus writes and that reads clear holds each value until the
first read after the write, and zero from then on.  A write and a read of the
same cycle do not get into each other's way: the read gives what was there
before, and what is written waits for the next read.  `HandedOver` says so for
the value as a function of the requests since reset, and `Level.handedOver`
has it from the law of all levels.
-/

namespace RegisterBank.Bank

/-- The value of a field that reading clears, as a function of the requests
since reset. -/
structure HandedOver (field : Field) (address : Nat) (value : List Request → Nat) : Prop where
  /-- Before any write takes effect, the initial value waits for the first
  read. -/
  sinceReset : ∀ requests, Refuses field address [] requests →
    value requests = if requests.any (Request.reads address) then 0 else field.initial
  /-- After a write that takes effect, what it made of the value waits for the
  first read that comes later. -/
  sinceWrite : ∀ earlier request write later,
    acceptedWrite? field address earlier request = some write →
    Refuses field address (earlier ++ [request]) later →
    value (earlier ++ request :: later) =
      if later.any (Request.reads address) then 0
      else write.mergedInto field.bits (value earlier)
  /-- A write beside a read of the same cycle is not cleared. -/
  beside : ∀ earlier request write,
    acceptedWrite? field address earlier request = some write →
    request.reads address = true →
    value (earlier ++ [request]) = write.mergedInto field.bits (value earlier)

/-- A level that is cleared by reads is handed over to the read that clears
it. -/
theorem Level.handedOver {field : Field} {address : Nat} {value : List Request → Nat}
    (level : Level field address value) (clears : field.has .readClear = true) :
    HandedOver field address value where
  sinceReset := by
    intro requests refuses
    have held := level.append_of_refuses refuses
    rw [clears, Bool.true_and, level.start] at held
    exact held
  sinceWrite := by
    intro earlier request write later taken refuses
    have held := level.append_of_refuses refuses
    rw [clears, Bool.true_and, level.next_of_some taken] at held
    rw [List.append_cons]
    exact held
  beside := fun _ _ _ taken _ => level.next_of_some taken

section Accepted

variable {map : RegisterMap} {layout : Layout} {protocol : Bus.Protocol} {plan : Plan}
  (accepted : Accepted map layout protocol plan) {placed : PlacedRegister}
  (listed : placed ∈ layout.registers) {field : Field} (declared : field ∈ placed.register.fields)
  (writable : field.access.isWritable = true) (clears : field.has .readClear = true)

include accepted listed declared writable clears

/-- **A level that reading clears hands each value over exactly once.**  In any
run it holds what the latest accepted write made of it until its register is
read, and zero from then on; a read gives what it held before the edge of the
read's own cycle. -/
theorem readClear_hands_over :
    ∃ machine, layout.buildMachine = .ok (some (machine, protocol)) ∧
      ∃ value, HandedOver field placed.address value ∧
        (∀ actions, (machine.after actions).output? placed.name field.name =
          some (value (requestsOf actions))) ∧
        ∀ (actions : List Action) (request : Request) (drives : List Action) (later : Request),
          request.readAddress? = some placed.address →
          (∀ action ∈ drives, ∃ register field value, action = .setInput register field value) →
          ((machine.after (actions ++ .cycle request :: drives)).cycle later).1.readValid = true ∧
            Bits.extract
                ((machine.after (actions ++ .cycle request :: drives)).cycle later).1.readData
                field.bits.lsb field.bits.width =
              value (requestsOf actions) := by
  have valid := accepted.field_valid listed declared
  have steady := reverts_eq_false valid (.inl rfl) clears
  obtain ⟨value, level, holds⟩ := exists_level accepted listed declared writable steady
  refine ⟨_, accepted.buildMachine, value, level.handedOver clears, ?_, ?_⟩
  · intro actions
    obtain ⟨cell, here, -, same⟩ := holds actions
    rw [← same]
    exact here.output?
  · intro actions request drives later read only
    obtain ⟨cell, here, keeps, same⟩ := holds actions
    obtain ⟨answered, data⟩ :=
      ((Machine.make plan layout.dataWidth layout.config.readFiller).after
        actions).observe_after_read read only later
    have readable : readsBack field = true := by
      unfold readsBack
      rw [Template.ofField_stored writable steady, Bool.and_eq_true]
      exact ⟨valid.access .readClear clears, rfl⟩
    have reachable := (Machine.Reachable.built accepted.buildMachine).after actions
    have extracted := here.extract_readWord accepted listed declared reachable readable
    rw [Machine.after_append, data, extracted, ← same]
    refine ⟨answered, ?_⟩
    unfold Cell.readValue
    rw [keeps.template]

end Accepted

/-- The count is read, and then written in part in the very cycle of another
read. -/
def countActions : List Action := [.cycle (.read 4), .cycle (.writeRead 4 0xab0 1 4)]

/-- A write beside a read is not cleared by it, and the next read hands it over. -/
theorem readClear_hands_over_commands :
    ∃ machine, commandLayout.buildMachine = .ok (some (machine, .axil)) ∧
      (∃ value, HandedOver commandLayout.registers[1].register.fields[0] 4 value ∧
        value [.read 4, .writeRead 4 0xab0 1 4] =
          StrobedWrite.mergedInto ⟨4, 8⟩ (value [.read 4]) ⟨4, 0xab0, 1⟩ ∧
        Bits.extract ((machine.after (countActions ++ [.cycle (.read 4)])).cycle .idle).1.readData
            4 8 =
          value [.read 4, .writeRead 4 0xab0 1 4]) ∧
      Bits.extract ((machine.after (countActions ++ [.cycle (.read 4)])).cycle .idle).1.readData
          4 8 = 0xb ∧
      (machine.after (countActions ++ [.cycle (.read 4)])).output? "evt" "count" = some 0 := by
  have listed : commandLayout.registers[1] ∈ commandLayout.registers :=
    List.getElem_mem (by decide)
  have declared : commandLayout.registers[1].register.fields[0] ∈
      commandLayout.registers[1].register.fields := List.getElem_mem (by decide)
  rcases readClear_hands_over accepted_commands listed declared rfl rfl with
    ⟨machine, built, value, handed, -, delivers⟩
  refine ⟨machine, built, ⟨value, handed, ?_, ?_⟩, ?_, ?_⟩
  · exact handed.beside [.read 4] (.writeRead 4 0xab0 1 4) ⟨4, 0xab0, 1⟩ rfl rfl
  · exact (delivers countActions (.read 4) [] .idle rfl (List.forall_mem_nil _)).2
  · rw [accepted_commands.buildMachine] at built
    cases built
    rfl
  · rw [accepted_commands.buildMachine] at built
    cases built
    rfl

end RegisterBank.Bank
