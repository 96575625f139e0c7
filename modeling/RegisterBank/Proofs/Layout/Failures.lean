import RegisterBank.Proofs.Construction.Workbench
import RegisterBank.Proofs.Layout.Placement

/-!
# Failures that a layout can meet

The loop checks for more than can go wrong with a map that the constructors
built: explicit addresses were checked when their registers were added, and the
next multiple is never out of reach.  `ComesTo` says where the loop comes to,
`Arrival` what holds there, and `Outcome` lists what can become of the register:
it is placed, or the next multiple is off the address bus, or its explicit
address was given to an earlier register that had none.

The loop counts without bounds.  `Arithmetic` says for each of its sums and
quotients that words of 64 bits hold them, so counting with words is the same.
-/

namespace RegisterBank.Layout

/-! ## Where the loop comes to -/

/-- The loop comes to a register of a map when those before it are placed. -/
def ComesTo (map : RegisterMap) (placed : List PlacedRegister) (register : Register) : Prop :=
  ∃ before rest, map.registers = before ++ register :: rest ∧
    placeAll map.config [] before = (placed, .ok ())

/-- What holds where the loop comes to a register. -/
structure Arrival (config : Configuration) (placed : List PlacedRegister) (register : Register) :
    Prop where
  fields : ∀ field ∈ register.fields, field.Valid
  allowed : register.Allowed config
  bounded : ∀ other ∈ placed, other.address < 2 ^ config.addressWidth
  /-- Those with an explicit address are there. -/
  kept : ∀ other ∈ placed, ∀ address, other.register.address = some address →
    other.address = address
  apart : ∀ other ∈ placed, other.register.Apart register

/-- What can become of a register once it is known where it is to go. -/
inductive Outcome (config : Configuration) (placed : List PlacedRegister) (register : Register)
    (address : Nat) : Result PlacedRegister → Prop
  | placed :
    address < 2 ^ config.addressWidth → (∀ other ∈ placed, other.address ≠ address) →
    Outcome config placed register address (.ok ⟨register, address⟩)
  /-- The next multiple is off the address bus. -/
  | tooLarge :
    register.address = none → 2 ^ config.addressWidth ≤ address →
    Outcome config placed register address
      (conflict (.addressTooLarge register.name address config.addressWidth))
  /-- An earlier register without an explicit address was given this one. -/
  | taken {other : PlacedRegister} :
    register.address = some address → other ∈ placed → other.register.address = none →
    other.address = address →
    Outcome config placed register address
      (conflict (.sameAddress other.name register.name address config.addressWidth))

/-- The sums and quotients at a register, none of which leaves its word. -/
structure Arithmetic (config : Configuration) (placed : List PlacedRegister)
    (register : Register) : Prop where
  /-- Remainders and multiples are of a positive increment. -/
  increment_pos : 0 < config.addressIncrement
  /-- Above the greatest address there is a next one, and the multiple from there
  on is the one that is computed. -/
  next : ∀ highest, (placed.map PlacedRegister.address).max? = some highest →
    highest + 1 < 2 ^ 64 ∧ ∃ next, nextAddress? config.addressIncrement highest = some next ∧
      next < 2 ^ 64 ∧ IsLeast {multiple | config.addressIncrement ∣ multiple ∧
        highest + 1 ≤ multiple} next
  /-- The most significant bit of a field is found without a borrow. -/
  msb : ∀ field ∈ register.fields, 1 ≤ field.bits.lsb + field.bits.width ∧
    field.bits.lsb + field.bits.width ≤ 64
  /-- So is the first bit of a field in the address space, without a carry. -/
  absoluteBit : ∀ address, place config placed register = .ok ⟨register, address⟩ →
    ∀ field ∈ register.fields, PlacedRegister.absoluteBit ⟨register, address⟩ field < 2 ^ 64

section Loop

variable {map : RegisterMap} {config : Configuration} {placed : List PlacedRegister}
  {register : Register}

theorem ComesTo.arrival (valid : map.Valid) (comes : ComesTo map placed register) :
    Arrival map.config placed register := by
  obtain ⟨before, rest, split, done⟩ := comes
  have apart := valid.apart
  rw [split, List.pairwise_append] at apart
  have earlier : ∀ other ∈ before, other ∈ map.registers := by
    intro other listed
    rw [split]
    exact List.mem_append_left _ listed
  have listed : register ∈ map.registers := by
    rw [split]
    exact List.mem_append_right _ List.mem_cons_self
  obtain ⟨addresses, documented⟩ := exists_documented valid.config.increment_pos [] before
  have outcome : AllPlaced map.config [] before addresses ∨ ∃ i stuck wanted cause,
      StopsAt map.config [] before addresses i stuck wanted cause :=
    placeAll_cases valid.config documented
      (fun other listed => valid.allowed other (earlier other listed)) rfl List.nodup_nil
      (List.forall_mem_nil _)
  rcases outcome with all | ⟨i, stuck, wanted, cause, stops⟩
  · have result := all.result
    rw [done, List.nil_append] at result
    cases result
    have length := documented.length_eq
    refine ⟨(valid.registers register listed).fields, valid.allowed register listed, ?_,
      documented.kept, ?_⟩
    · intro other inside
      apply all.bounded
      rw [← zipWith_address length]
      exact List.mem_map_of_mem inside
    · intro other inside
      refine apart.2.2 other.register ?_ register List.mem_cons_self
      rw [← zipWith_register length]
      exact List.mem_map_of_mem inside
  · have result := stops.result
    rw [done] at result
    cases result

/-- A loop that fails does so at a register it comes to. -/
theorem exists_of_placeAll_error {registers : List Register} {start : List PlacedRegister}
    {error : Error} (failed : placeAll config start registers = (placed, .error error)) :
    ∃ before register rest, registers = before ++ register :: rest ∧
      placeAll config start before = (placed, .ok ()) ∧
      place config placed register = .error error := by
  induction registers generalizing start with
  | nil => cases failed
  | cons first rest ih =>
    unfold placeAll at failed
    cases placing : place config start first with
    | error reason =>
      rw [placing] at failed
      cases failed
      exact ⟨[], first, rest, rfl, rfl, placing⟩
    | ok next =>
      rw [placing] at failed
      obtain ⟨before, register, behind, split, done, stopped⟩ := ih failed
      refine ⟨first :: before, register, behind, congrArg (first :: ·) split, ?_, stopped⟩
      rw [placeAll_cons placing]
      exact done

/-- A layout fails at one register, with all before it placed. -/
theorem exists_comesTo_of_resolve_error {error : Error} (failed : resolve map = .error error) :
    ∃ placed register, ComesTo map placed register ∧
      place map.config placed register = .error error := by
  unfold resolve placements at failed
  split at failed
  · rename_i placed reason stopped
    cases failed
    obtain ⟨before, register, rest, split, done, refused⟩ := exists_of_placeAll_error stopped
    exact ⟨placed, register, ⟨before, rest, split, done⟩, refused⟩
  · cases failed

/-! ## What the loop meets -/

namespace Arrival

variable (valid : config.Valid) (arrival : Arrival config placed register)

include valid arrival

theorem highest_lt {highest : Nat}
    (greatest : (placed.map PlacedRegister.address).max? = some highest) : highest < 2 ^ 32 := by
  obtain ⟨other, listed, rfl⟩ := List.mem_map.mp (List.max?_eq_some_iff.mp greatest).1
  exact Nat.lt_of_lt_of_le (arrival.bounded other listed)
    (Nat.pow_le_pow_right (by omega) valid.addressWidth.2)

/-- The next multiple is within reach of 64 bits. -/
theorem next_lt {highest : Nat}
    (greatest : (placed.map PlacedRegister.address).max? = some highest) :
    (highest / config.addressIncrement + 1) * config.addressIncrement < addressLimit := by
  have below := arrival.highest_lt valid greatest
  have step := next_le config.addressIncrement highest
  have small := valid.increment_le
  show _ < 2 ^ 64
  omega

/-- Behind 32 bits of addresses there is no overflow of 64. -/
theorem nextAddress?_eq {highest : Nat}
    (greatest : (placed.map PlacedRegister.address).max? = some highest) :
    nextAddress? config.addressIncrement highest =
      some ((highest / config.addressIncrement + 1) * config.addressIncrement) :=
  if_pos ⟨Nat.ne_of_gt valid.increment_pos, arrival.next_lt valid greatest⟩

/-- There is an address for the register to go to.  An explicit one is on the
address bus, and any other lies above all that are in use. -/
theorem exists_requested : ∃ address, requestedAddress config placed register = .ok address ∧
    ((register.address = some address ∧ address < 2 ^ config.addressWidth) ∨
      (register.address = none ∧ ∀ other ∈ placed, other.address < address)) := by
  cases given : register.address with
  | some address =>
    exact ⟨address, requestedAddress_explicit arrival.allowed given,
      Or.inl ⟨rfl, arrival.allowed.address_lt address given⟩⟩
  | none =>
    unfold requestedAddress
    rw [given]
    cases greatest : (placed.map PlacedRegister.address).max? with
    | none =>
      have empty := List.map_eq_nil_iff.mp (List.max?_eq_none_iff.mp greatest)
      refine ⟨0, rfl, Or.inr ⟨rfl, ?_⟩⟩
      rw [empty]
      exact List.forall_mem_nil _
    | some highest =>
      dsimp only
      rw [arrival.nextAddress?_eq valid greatest]
      refine ⟨_, rfl, Or.inr ⟨rfl, ?_⟩⟩
      intro other listed
      exact (isLeast_next valid.increment_pos greatest).1.2 other.address
        (List.mem_map_of_mem listed)

/-- Placing a register ends in one of three ways, which its address decides. -/
theorem outcome : ∃ address, requestedAddress config placed register = .ok address ∧
    Outcome config placed register address (place config placed register) := by
  obtain ⟨address, requested, either⟩ := arrival.exists_requested valid
  refine ⟨address, requested, ?_⟩
  rw [place_eq valid requested]
  by_cases inside : address < 2 ^ config.addressWidth
  · rw [if_pos inside]
    cases found : placed.find? fun other => other.address == address with
    | none =>
      rw [List.find?_eq_none] at found
      exact .placed inside fun other listed same =>
        found other listed (beq_iff_eq.mpr same)
    | some other =>
      have listed := List.mem_of_find?_eq_some found
      have same := List.find?_some found
      rw [beq_iff_eq] at same
      rcases either with ⟨given, -⟩ | ⟨-, above⟩
      · -- Were the other's address explicit too, the two could not stand in one map.
        have free : other.register.address = none := by
          cases explicit : other.register.address with
          | none => rfl
          | some taken =>
            have there := arrival.kept other listed taken explicit
            refine absurd explicit ((arrival.apart other listed).2 taken ?_)
            rw [given, ← same, there]
        exact .taken given listed free same
      · exact absurd same (Nat.ne_of_lt (above other listed))
  · rw [if_neg inside]
    rcases either with ⟨-, bound⟩ | ⟨free, -⟩
    · exact absurd bound inside
    · exact .tooLarge free (Nat.le_of_not_lt inside)

/-- No step of the address arithmetic leaves 64 bits. -/
theorem arithmetic : Arithmetic config placed register where
  increment_pos := valid.increment_pos
  next := by
    intro highest greatest
    have below := arrival.highest_lt valid greatest
    have least : IsLeast {multiple | config.addressIncrement ∣ multiple ∧
        ∀ used ∈ [highest], used < multiple}
        ((highest / config.addressIncrement + 1) * config.addressIncrement) :=
      isLeast_next valid.increment_pos rfl
    refine ⟨by omega, _, arrival.nextAddress?_eq valid greatest, arrival.next_lt valid greatest, ?_⟩
    -- To lie above the one address is to be at least its successor.
    have above (multiple : Nat) : (∀ used ∈ [highest], used < multiple) ↔
        highest + 1 ≤ multiple := List.forall_mem_singleton
    simp only [above] at least
    exact least
  msb := by
    intro field declared
    have valid := arrival.fields field declared
    have positive := valid.width_pos
    exact ⟨by omega, valid.above_le⟩
  absoluteBit := by
    intro address placing field declared
    obtain ⟨_, -, outcome⟩ := arrival.outcome valid
    rw [placing] at outcome
    cases outcome with
    | placed inside _ => exact absoluteBit_lt valid inside (arrival.fields field declared)

end Arrival

end Loop

/-! ## Whole maps -/

/-- **Only two failures can be met.**  Wherever the loop comes to, there is an
address for the register to go to, no sum leaves its word and no divisor is zero;
and the error of a map without a layout is that of a register with an explicit
address that an earlier one without was given, or of a register without whose
turn is off the address bus. -/
theorem resolve_fails_only {map : RegisterMap} (built : map.Built) :
    (∀ placed register, ComesTo map placed register →
      Arithmetic map.config placed register ∧
        ∃ address, requestedAddress map.config placed register = .ok address ∧
          Outcome map.config placed register address (place map.config placed register)) ∧
    ∀ error, resolve map = .error error →
      ∃ placed register address, ComesTo map placed register ∧
        Outcome map.config placed register address (.error error) := by
  have valid := built.valid
  constructor
  · intro placed register comes
    have arrival := comes.arrival valid
    exact ⟨arrival.arithmetic valid.config, arrival.outcome valid.config⟩
  · intro error failed
    obtain ⟨placed, register, comes, refused⟩ := exists_comesTo_of_resolve_error failed
    obtain ⟨address, -, outcome⟩ := (comes.arrival valid).outcome valid.config
    rw [refused] at outcome
    exact ⟨placed, register, address, comes, outcome⟩

/-- The calls that make a map with two registers, of which the second asks for
the address that the first is given. -/
def crossedCalls : List Workbench.Call :=
  [.newConfiguration, .newRegister "status", .newRegister "control", .onRegister 1 (.withAddress 0),
    .newMap 0, .onMap 0 (.addRegisters [0, 1])]

/-- The map that these calls make. -/
def crossedMap : RegisterMap :=
  (Workbench.empty.run crossedCalls).maps.headD (.empty .default)

/-- The calls that make a map with three registers on an address bus of three
bits. -/
def crowdedCalls : List Workbench.Call :=
  [.newConfiguration, .setOption 0 "address_width" (.int 3), .newRegister "status",
    .newRegister "control", .newRegister "data", .newMap 0, .onMap 0 (.addRegisters [0, 1, 2])]

/-- The map that these calls make. -/
def crowdedMap : RegisterMap :=
  (Workbench.empty.run crowdedCalls).maps.headD (.empty .default)

/-- What the loop has placed when it comes to the last register of this map. -/
def crowdedStart : List PlacedRegister :=
  [⟨⟨"status", "", none, []⟩, 0⟩, ⟨⟨"control", "", none, []⟩, 4⟩]

/-- A fixed address on top of one that was assigned, and a map that leaves no
room. -/
theorem resolve_fails_only_crossed :
    crossedMap.Built ∧ resolve crossedMap = conflict (.sameAddress "status" "control" 0 16) ∧
      (∃ placed register address, ComesTo crossedMap placed register ∧
        Outcome crossedMap.config placed register address
          (conflict (.sameAddress "status" "control" 0 16))) ∧
    crowdedMap.Built ∧ resolve crowdedMap = conflict (.addressTooLarge "data" 8 3) ∧
      (∃ placed register address, ComesTo crowdedMap placed register ∧
        Outcome crowdedMap.config placed register address
          (conflict (.addressTooLarge "data" 8 3))) ∧
      ComesTo crowdedMap crowdedStart ⟨"data", "", none, []⟩ ∧
      Arithmetic crowdedMap.config crowdedStart ⟨"data", "", none, []⟩ := by
  have crossed : crossedMap.Built :=
    Workbench.built_of_mem_run crossedCalls List.mem_cons_self
  have crowded : crowdedMap.Built :=
    Workbench.built_of_mem_run crowdedCalls List.mem_cons_self
  have comes : ComesTo crowdedMap crowdedStart ⟨"data", "", none, []⟩ :=
    ⟨[⟨"status", "", none, []⟩, ⟨"control", "", none, []⟩], [], rfl, rfl⟩
  have failures := resolve_fails_only crowded
  exact ⟨crossed, rfl, (resolve_fails_only crossed).2 _ rfl, crowded, rfl, failures.2 _ rfl, comes,
    (failures.1 _ _ comes).1⟩

end RegisterBank.Layout
