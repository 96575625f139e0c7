import RegisterBank.Proofs.Construction.Fields
import RegisterBank.Proofs.Construction.Options
import RegisterBank.Proofs.Results
import RegisterBank.RegisterMap

/-!
# Register maps that the constructors build

`RegisterMap.Built` is what a sequence of calls on an empty map leads to, with
any reachable configuration and any built registers.  The map's rules about a
new register fall into two: `Register.Allowed` speaks of the register and the
configuration, `Register.Apart` of the register and one that is already there.
`RegisterMap.problem?_eq_none_iff` says that these two are all there is, so
`RegisterMap.Valid` is kept by every call, and a list of registers that
satisfies it can be added once more from the empty map
(`RegisterMap.addRegister_prefix`).
-/

namespace RegisterBank

/-! ## Rules about a new register -/

namespace Register

/-- A register that a configuration takes: its fields lie on the data bus, and
an explicit address is a multiple of the increment on the address bus. -/
structure Allowed (config : Configuration) (register : Register) : Prop where
  above_le : ∀ field ∈ register.fields, field.bits.above ≤ config.dataWidth
  aligned : ∀ address, register.address = some address →
    address % config.addressIncrement = 0
  address_lt : ∀ address, register.address = some address → address < 2 ^ config.addressWidth

/-- Two registers that may stand in one map. -/
def Apart (register other : Register) : Prop :=
  register.name ≠ other.name ∧ ∀ address, other.address = some address →
    register.address ≠ some address

end Register

namespace RegisterMap

theorem register?_isSome_iff {map : RegisterMap} {name : String} :
    (map.register? name).isSome = true ↔ ∃ register ∈ map.registers, register.name = name := by
  unfold register?
  rw [List.find?_isSome]
  simp only [beq_iff_eq]

/-- A field must end inside the data bus. -/
theorem fieldProblem?_eq_none_iff {map : RegisterMap} {added : Register} {field : Field}
    (positive : 0 < field.bits.width) :
    map.fieldProblem? added field = none ↔ field.bits.above ≤ map.config.dataWidth := by
  unfold fieldProblem? BitRange.msb BitRange.above
  by_cases wide : field.bits.lsb + field.bits.width - 1 ≥ map.config.dataWidth
  · rw [if_pos wide]
    constructor
    · intro none
      cases none
    · intro inside
      omega
  · rw [if_neg wide]
    constructor
    · intro _
      omega
    · intro _
      rfl

/-- A fixed address must be a multiple of the stride, inside the address space
and free. -/
theorem addressProblem?_eq_none_iff {map : RegisterMap} {added : Register}
    (narrow : map.config.addressWidth ≤ Bits.wordWidth) :
    map.addressProblem? added = none ↔
      ∀ address, added.address = some address →
        address % map.config.addressIncrement = 0 ∧ address < 2 ^ map.config.addressWidth ∧
          ∀ register ∈ map.registers, register.address ≠ some address := by
  unfold addressProblem?
  cases added.address with
  | none => simp
  | some address =>
    simp only [Option.some.injEq, forall_eq']
    rw [← Bits.fits_iff narrow]
    by_cases aligned : address % map.config.addressIncrement = 0
    · cases Bits.fits address map.config.addressWidth
      · simp [aligned]
      · cases found : map.registers.find? fun register => register.address == some address with
        | none =>
          rw [List.find?_eq_none] at found
          simp only [beq_iff_eq] at found
          simp only [aligned]
          exact ⟨fun _ => ⟨trivial, trivial, found⟩, fun _ => rfl⟩
        | some other =>
          have listed := List.mem_of_find?_eq_some found
          have shared := List.find?_some found
          simp only [beq_iff_eq] at shared
          simp only [aligned]
          constructor
          · intro none
            cases none
          · intro free
            exact absurd shared (free.2.2 other listed)
    · simp [aligned]

/-- A map has nothing against a new register exactly if its configuration
allows the register and all registers that are there keep apart from it. -/
theorem problem?_eq_none_iff {map : RegisterMap} {added : Register}
    (config : map.config.Valid) (valid : added.Valid) :
    map.problem? added = none ↔
      added.Allowed map.config ∧ ∀ register ∈ map.registers, register.Apart added := by
  have narrow : map.config.addressWidth ≤ Bits.wordWidth := by
    have bound := config.addressWidth.2
    unfold Bits.wordWidth
    omega
  have fields : added.fields.findSome? (map.fieldProblem? added) = none ↔
      ∀ field ∈ added.fields, field.bits.above ≤ map.config.dataWidth := by
    rw [List.findSome?_eq_none_iff]
    constructor
    · intro none field listed
      exact (fieldProblem?_eq_none_iff (valid.fields field listed).width_pos).mp
        (none field listed)
    · intro inside field listed
      exact (fieldProblem?_eq_none_iff (valid.fields field listed).width_pos).mpr
        (inside field listed)
  have unfolded : map.problem? added = none ↔
      (∀ register ∈ map.registers, register.name ≠ added.name) ∧
        (∀ field ∈ added.fields, field.bits.above ≤ map.config.dataWidth) ∧
          map.addressProblem? added = none := by
    unfold problem?
    by_cases taken : (map.register? added.name).isSome = true
    · rw [if_pos taken]
      obtain ⟨register, listed, same⟩ := register?_isSome_iff.mp taken
      constructor
      · intro none
        cases none
      · intro free
        exact absurd same (free.1 register listed)
    · rw [if_neg taken, ← fields]
      have free : ∀ register ∈ map.registers, register.name ≠ added.name := by
        intro register listed same
        exact taken (register?_isSome_iff.mpr ⟨register, listed, same⟩)
      cases added.fields.findSome? (map.fieldProblem? added) with
      | some problem => simp
      | none => simp only [true_and, iff_and_self]; exact fun _ => free
  rw [unfolded, addressProblem?_eq_none_iff narrow]
  constructor
  · rintro ⟨names, inside, addresses⟩
    exact
      ⟨{ above_le := inside
         aligned := fun address explicit => (addresses address explicit).1
         address_lt := fun address explicit => (addresses address explicit).2.1 },
        fun register listed => ⟨names register listed,
          fun address explicit => (addresses address explicit).2.2 register listed⟩⟩
  · rintro ⟨allowed, apart⟩
    exact
      ⟨fun register listed => (apart register listed).1, allowed.above_le,
        fun address explicit => ⟨allowed.aligned address explicit,
          allowed.address_lt address explicit,
          fun register listed => (apart register listed).2 address explicit⟩⟩

/-! ## Built maps -/

/-- The maps that some sequence of calls leads to.  Adding a list of registers
leaves those before the first that is refused. -/
inductive Built : RegisterMap → Prop
  | empty {config : Configuration} : config.Reachable → Built (RegisterMap.empty config)
  | addRegister {map next : RegisterMap} {added : Register} :
    Built map → added.Built → map.addRegister added = .ok next → Built next
  | addRegisters {map : RegisterMap} {added : List Register} :
    Built map → (∀ register ∈ added, register.Built) → Built (map.addRegisters added).1

/-- What every built map satisfies. -/
structure Valid (map : RegisterMap) : Prop where
  config : map.config.Valid
  registers : ∀ register ∈ map.registers, register.Valid
  allowed : ∀ register ∈ map.registers, register.Allowed map.config
  apart : map.registers.Pairwise Register.Apart

/-- A valid register is added exactly if it breaks neither rule. -/
theorem addRegister_eq_ok_iff {map next : RegisterMap} {added : Register}
    (config : map.config.Valid) (valid : added.Valid) :
    map.addRegister added = .ok next ↔
      (added.Allowed map.config ∧ ∀ register ∈ map.registers, register.Apart added) ∧
        next = { map with registers := map.registers ++ [added] } := by
  rw [← problem?_eq_none_iff config valid]
  unfold addRegister
  cases map.problem? added with
  | some problem => simp [conflict]
  | none => simp [eq_comm]

/-- Adding a register keeps a map valid. -/
theorem Valid.addRegister {map next : RegisterMap} {added : Register} (valid : map.Valid)
    (addedValid : added.Valid) (done : map.addRegister added = .ok next) : next.Valid := by
  obtain ⟨⟨allowed, apart⟩, rfl⟩ := (addRegister_eq_ok_iff valid.config addedValid).mp done
  refine { config := valid.config, registers := ?_, allowed := ?_, apart := ?_ }
  · intro register listed
    rcases List.mem_append.mp listed with listed | listed
    · exact valid.registers register listed
    · rw [List.mem_singleton] at listed
      rw [listed]
      exact addedValid
  · intro register listed
    rcases List.mem_append.mp listed with listed | listed
    · exact valid.allowed register listed
    · rw [List.mem_singleton] at listed
      rw [listed]
      exact allowed
  · rw [List.pairwise_append]
    refine ⟨valid.apart, List.pairwise_singleton _ _, ?_⟩
    intro existing listed register single
    rw [List.mem_singleton] at single
    rw [single]
    exact apart existing listed

theorem Valid.addRegisters {map : RegisterMap} {added : List Register} (valid : map.Valid)
    (addedValid : ∀ register ∈ added, register.Valid) : (map.addRegisters added).1.Valid := by
  induction added generalizing map with
  | nil => exact valid
  | cons register rest ih =>
    unfold RegisterMap.addRegisters
    cases done : map.addRegister register with
    | error error => exact valid
    | ok next =>
      exact ih (valid.addRegister (addedValid register List.mem_cons_self) done)
        fun other listed => addedValid other (List.mem_cons_of_mem _ listed)

/-- However a map was filled, it is valid. -/
theorem Built.valid {map : RegisterMap} (built : map.Built) : map.Valid := by
  induction built with
  | empty reachable =>
    exact
      { config := reachable.valid
        registers := by intro register listed; cases listed
        allowed := by intro register listed; cases listed
        apart := List.Pairwise.nil }
  | addRegister _ added done valid => exact valid.addRegister added.valid done
  | addRegisters _ added valid =>
    exact valid.addRegisters fun register listed => (added register listed).valid

/-- The registers of a valid map can be added once more: whatever stands before
a register is no reason to refuse it. -/
theorem Valid.addRegister_prefix {map : RegisterMap} (valid : map.Valid)
    {before rest : List Register} {register : Register}
    (split : map.registers = before ++ register :: rest) :
    RegisterMap.addRegister ⟨map.config, before⟩ register =
      .ok ⟨map.config, before ++ [register]⟩ := by
  have listed : register ∈ map.registers := by rw [split]; simp
  have config : (⟨map.config, before⟩ : RegisterMap).config.Valid := valid.config
  refine (addRegister_eq_ok_iff config (valid.registers register listed)).mpr
    ⟨⟨valid.allowed register listed, ?_⟩, rfl⟩
  intro existing earlier
  have apart := valid.apart
  rw [split, List.pairwise_append] at apart
  exact apart.2.2 existing earlier register List.mem_cons_self

/-- A valid map is what adding its registers to an empty one leads to. -/
theorem Valid.addRegisters_empty {map : RegisterMap} (valid : map.Valid) :
    (RegisterMap.empty map.config).addRegisters map.registers = (map, .ok ()) := by
  have onward (before rest : List Register) (split : map.registers = before ++ rest) :
      RegisterMap.addRegisters ⟨map.config, before⟩ rest = (map, .ok ()) := by
    induction rest generalizing before with
    | nil =>
      rw [List.append_nil] at split
      rw [← split]
      rfl
    | cons register rest ih =>
      unfold RegisterMap.addRegisters
      rw [valid.addRegister_prefix split]
      exact ih (before ++ [register]) (by rw [split, List.append_assoc, List.singleton_append])
  exact onward [] map.registers rfl

/-! ## The starter map -/

theorem built_of_spam {register : Register} (made : spam = .ok register) : register.Built := by
  unfold spam at made
  rcases exists_of_bind_eq_ok made with ⟨foo, fooMade, made⟩
  rcases exists_of_bind_eq_ok made with ⟨foo', fooDone, made⟩
  rcases exists_of_bind_eq_ok made with ⟨bar, barMade, made⟩
  rcases exists_of_bind_eq_ok made with ⟨bar', barDone, made⟩
  rcases exists_of_bind_eq_ok made with ⟨start, startMade, made⟩
  rcases exists_of_bind_eq_ok made with ⟨half, halfDone, made⟩
  have fooBuilt : foo'.Built := .withInitial ((Field.Built.make fooMade).withDescription _) fooDone
  have barBuilt : bar'.Built := .withModifier ((Field.Built.make barMade).withDescription _) barDone
  have startBuilt := ((Register.Built.make startMade).withDescription "Register spam").withAddress 0
  exact (startBuilt.addField fooBuilt halfDone).addField barBuilt made

theorem built_of_eggs {register : Register} (made : eggs = .ok register) : register.Built := by
  unfold eggs at made
  rcases exists_of_bind_eq_ok made with ⟨baz, bazMade, made⟩
  rcases exists_of_bind_eq_ok made with ⟨start, startMade, made⟩
  have bazBuilt := (Field.Built.make bazMade).withDescription "Bit field baz"
  have startBuilt := ((Register.Built.make startMade).withDescription "Register eggs").withAddress 4
  exact startBuilt.addField bazBuilt made

/-- The starter map is built as any other. -/
theorem built_of_template {config : Configuration} (reachable : config.Reachable)
    {map : RegisterMap} (made : template config = .ok map) : map.Built := by
  unfold template at made
  rcases exists_of_bind_eq_ok made with ⟨first, firstMade, made⟩
  rcases exists_of_bind_eq_ok made with ⟨second, secondMade, made⟩
  have added : (((empty config).addRegisters [first, second]).1).Built := by
    refine .addRegisters (.empty reachable) ?_
    intro register listed
    simp only [List.mem_cons, List.not_mem_nil, or_false] at listed
    rcases listed with rfl | rfl
    · exact built_of_spam firstMade
    · exact built_of_eggs secondMade
  rcases exists_of_bind_eq_ok made with ⟨_, -, made⟩
  cases made
  exact added

end RegisterMap

end RegisterBank
