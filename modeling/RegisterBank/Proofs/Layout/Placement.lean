import Mathlib.Data.List.Nodup
import RegisterBank.Proofs.Layout.Documented

/-!
# Placements are the documented ones

`placeAll_cases` runs the loop of the layout beside the documented addresses:
as long as these are distinct and on the address bus the loop places one
register at each, and at the first that is not it stops with the conflict that
names the register.  The invariant is that what has been placed stands at the
documented addresses so far (`placed.map PlacedRegister.address = earlier`), so
the greatest placed address is the greatest documented one; that all of them
are on the address bus keeps the next multiple below 64 bits.

`resolve_documented` states the layout of a whole map.
-/

namespace RegisterBank.Layout

open RegisterMap

/-- The register at index `i` is out of range, or its address is an earlier
one. -/
def Misplaced (addressWidth : Nat) (addresses : List Nat) (i : Nat) : Prop :=
  ∃ address, addresses[i]? = some address ∧
    (2 ^ addressWidth ≤ address ∨ address ∈ addresses.take i)

/-- A layout puts the registers of a map, in their order, at some addresses. -/
structure Puts (layout : Layout) (map : RegisterMap) (addresses : List Nat) : Prop where
  map_eq : layout.map = map
  dataWidth : layout.dataWidth = map.config.dataWidth
  addressWidth : layout.addressWidth = map.config.addressWidth
  registers : layout.registers.map PlacedRegister.register = map.registers
  addresses : layout.registers.map PlacedRegister.address = addresses
  /-- Each field carries its register's address and its own bits. -/
  fields : ∀ placed ∈ layout.registers,
    placed.fields = placed.register.fields.map fun field =>
      ⟨field, placed.address, field.bits.lsb, field.bits.lsb + field.bits.width - 1⟩

/-! ## One register -/

section Place

variable {config : Configuration} {placed : List PlacedRegister} {register : Register}

theorem requestedAddress_explicit {address : Nat} (allowed : register.Allowed config)
    (given : register.address = some address) :
    requestedAddress config placed register = .ok address := by
  unfold requestedAddress
  rw [given]
  simp [allowed.aligned address given]

theorem requestedAddress_first (free : register.address = none) :
    requestedAddress config [] register = .ok 0 := by
  unfold requestedAddress
  rw [free]
  rfl

/-- Above placed addresses on the address bus, the next multiple is below the
limit of 64 bits. -/
theorem requestedAddress_next {address : Nat} (valid : config.Valid)
    (free : register.address = none) (filled : placed ≠ [])
    (bounded : ∀ used ∈ placed.map PlacedRegister.address, used < 2 ^ config.addressWidth)
    (least : IsLeast
      {multiple | config.addressIncrement ∣ multiple ∧
        ∀ used ∈ placed.map PlacedRegister.address, used < multiple} address) :
    requestedAddress config placed register = .ok address := by
  have occupied : placed.map PlacedRegister.address ≠ [] := by
    intro empty
    exact filled (List.map_eq_nil_iff.mp empty)
  rcases exists_max? occupied with ⟨highest, greatest⟩
  have positive := valid.increment_pos
  have computed := least.unique (isLeast_next positive greatest)
  have below : highest < 2 ^ 32 :=
    Nat.lt_of_lt_of_le (bounded highest (List.max?_eq_some_iff.mp greatest).1)
      (Nat.pow_le_pow_right (by omega) valid.addressWidth.2)
  have step := next_le config.addressIncrement highest
  have small := valid.increment_le
  have limit : (highest / config.addressIncrement + 1) * config.addressIncrement
      < addressLimit := by
    show _ < 2 ^ 64
    omega
  unfold requestedAddress nextAddress?
  rw [free]
  simp only [greatest]
  rw [if_pos ⟨by omega, limit⟩, computed]

/-- What `place` does with a register once the address it asks for is known. -/
theorem place_eq {address : Nat} (valid : config.Valid)
    (requested : requestedAddress config placed register = .ok address) :
    place config placed register =
      if address < 2 ^ config.addressWidth then
        match placed.find? fun other => other.address == address with
        | some other =>
          conflict (.sameAddress other.name register.name address config.addressWidth)
        | none => .ok ⟨register, address⟩
      else conflict (.addressTooLarge register.name address config.addressWidth) := by
  have narrow : config.addressWidth ≤ Bits.wordWidth := by
    have bound := valid.addressWidth.2
    unfold Bits.wordWidth
    omega
  have fits : Bits.fits address config.addressWidth = true ↔
      address < 2 ^ config.addressWidth := Bits.fits_iff narrow
  unfold place
  rw [requested]
  by_cases inside : address < 2 ^ config.addressWidth
  · rw [if_pos inside]
    simp only [fits.mpr inside]
    rfl
  · rw [if_neg inside]
    have off : Bits.fits address config.addressWidth = false := by
      rw [← Bool.not_eq_true, fits]
      exact inside
    simp only [off]
    rfl

/-- The bits up to a field of a register on the address bus can be counted with
64 bits. -/
theorem absoluteBit_lt {next : PlacedRegister} {field : Field} (valid : config.Valid)
    (bounded : next.address < 2 ^ config.addressWidth) (fieldValid : field.Valid) :
    next.absoluteBit field < 2 ^ 64 := by
  have narrow : 2 ^ config.addressWidth ≤ 2 ^ 32 :=
    Nat.pow_le_pow_right (by omega) valid.addressWidth.2
  have positive := fieldValid.width_pos
  have above : field.bits.lsb + field.bits.width ≤ 64 := fieldValid.above_le
  unfold PlacedRegister.absoluteBit
  omega

end Place

/-! ## All registers -/

section PlaceAll

variable {config : Configuration} {placed : List PlacedRegister}
  {registers rest : List Register} {addresses : List Nat} {register : Register} {address : Nat}

/-- The loop places every register at its address. -/
structure AllPlaced (config : Configuration) (placed : List PlacedRegister)
    (registers : List Register) (addresses : List Nat) : Prop where
  distinct : (placed.map PlacedRegister.address ++ addresses).Nodup
  bounded : ∀ address ∈ addresses, address < 2 ^ config.addressWidth
  result : placeAll config placed registers =
    (placed ++ List.zipWith PlacedRegister.mk registers addresses, .ok ())

/-- The loop places the registers before index `i` and refuses the one there,
because its address is out of range or taken by one that has been placed. -/
structure StopsAt (config : Configuration) (placed : List PlacedRegister)
    (registers : List Register) (addresses : List Nat) (i : Nat) (register : Register)
    (address : Nat) (cause : Conflict) : Prop where
  register_eq : registers[i]? = some register
  address_eq : addresses[i]? = some address
  distinct : (placed.map PlacedRegister.address ++ addresses.take i).Nodup
  bounded : ∀ address ∈ addresses.take i, address < 2 ^ config.addressWidth
  cause_eq :
    (2 ^ config.addressWidth ≤ address ∧
      cause = .addressTooLarge register.name address config.addressWidth) ∨
    (address < 2 ^ config.addressWidth ∧
      ∃ other ∈ placed ++ (List.zipWith PlacedRegister.mk registers addresses).take i,
        other.address = address ∧
        cause = .sameAddress other.name register.name address config.addressWidth)
  result : placeAll config placed registers =
    (placed ++ (List.zipWith PlacedRegister.mk registers addresses).take i,
      .error (.conflict cause))

theorem placeAll_cons {next : PlacedRegister} (done : place config placed register = .ok next) :
    placeAll config placed (register :: rest) = placeAll config (placed ++ [next]) rest := by
  rw [placeAll, done]

theorem AllPlaced.cons (done : place config placed register = .ok ⟨register, address⟩)
    (bound : address < 2 ^ config.addressWidth)
    (all : AllPlaced config (placed ++ [⟨register, address⟩]) rest addresses) :
    AllPlaced config placed (register :: rest) (address :: addresses) := by
  obtain ⟨distinct, bounded, result⟩ := all
  refine ⟨?_, ?_, ?_⟩
  · simpa using distinct
  · intro other listed
    rcases List.mem_cons.mp listed with rfl | listed
    · exact bound
    · exact bounded other listed
  · rw [placeAll_cons done, result]
    simp

theorem StopsAt.cons {i : Nat} {stuck : Register} {wanted : Nat} {cause : Conflict}
    (done : place config placed register = .ok ⟨register, address⟩)
    (bound : address < 2 ^ config.addressWidth)
    (stops : StopsAt config (placed ++ [⟨register, address⟩]) rest addresses i stuck wanted
      cause) :
    StopsAt config placed (register :: rest) (address :: addresses) (i + 1) stuck wanted
      cause := by
  obtain ⟨registerEq, addressEq, distinct, bounded, causeEq, result⟩ := stops
  refine ⟨registerEq, addressEq, ?_, ?_, ?_, ?_⟩
  · simpa using distinct
  · intro other listed
    rcases List.mem_cons.mp listed with rfl | listed
    · exact bound
    · exact bounded other listed
  · simpa using causeEq
  · rw [placeAll_cons done, result]
    simp

/-- The loop goes on past a register or stops at it; the rest is the same
question with one more register placed. -/
theorem placeAll_cons_cases (valid : config.Valid)
    (requested : requestedAddress config placed register = .ok address)
    (distinct : (placed.map PlacedRegister.address).Nodup)
    (onward : (placed.map PlacedRegister.address ++ [address]).Nodup →
      address < 2 ^ config.addressWidth →
      AllPlaced config (placed ++ [⟨register, address⟩]) rest addresses ∨
        ∃ i stuck wanted cause,
          StopsAt config (placed ++ [⟨register, address⟩]) rest addresses i stuck wanted cause) :
    AllPlaced config placed (register :: rest) (address :: addresses) ∨
      ∃ i stuck wanted cause,
        StopsAt config placed (register :: rest) (address :: addresses) i stuck wanted cause := by
  have placing := place_eq valid requested
  by_cases bound : address < 2 ^ config.addressWidth
  · rw [if_pos bound] at placing
    cases found : placed.find? fun other => other.address == address with
    | none =>
      rw [found] at placing
      rw [List.find?_eq_none] at found
      have fresh : address ∉ placed.map PlacedRegister.address := by
        intro used
        obtain ⟨other, listed, same⟩ := List.mem_map.mp used
        exact found other listed (beq_iff_eq.mpr same)
      have distinct' : (placed.map PlacedRegister.address ++ [address]).Nodup := by
        rw [List.nodup_append]
        refine ⟨distinct, List.nodup_singleton _, ?_⟩
        intro used listed other single same
        rw [List.mem_singleton] at single
        rw [same, single] at listed
        exact fresh listed
      rcases onward distinct' bound with all | ⟨i, stuck, wanted, cause, stops⟩
      · exact Or.inl (all.cons placing bound)
      · exact Or.inr ⟨i + 1, stuck, wanted, cause, stops.cons placing bound⟩
    | some other =>
      rw [found] at placing
      have listed := List.mem_of_find?_eq_some found
      have same := List.find?_some found
      simp only [beq_iff_eq] at same
      refine Or.inr ⟨0, register, address,
        .sameAddress other.name register.name address config.addressWidth, rfl, rfl,
        by simpa using distinct, by simp, ?_, ?_⟩
      · exact Or.inr ⟨bound, other, by simpa using listed, same, rfl⟩
      · rw [placeAll, placing]
        simp [conflict]
  · rw [if_neg bound] at placing
    refine Or.inr ⟨0, register, address,
      .addressTooLarge register.name address config.addressWidth, rfl, rfl,
      by simpa using distinct, by simp, ?_, ?_⟩
    · exact Or.inl ⟨Nat.le_of_not_lt bound, rfl⟩
    · rw [placeAll, placing]
      simp [conflict]

/-- The loop beside the documented addresses, from any registers that have been
placed at the documented addresses so far. -/
theorem placeAll_cases {earlier : List Nat} (valid : config.Valid)
    (documented : Documented config.addressIncrement earlier registers addresses)
    (allowed : ∀ register ∈ registers, register.Allowed config)
    (here : placed.map PlacedRegister.address = earlier) (distinct : earlier.Nodup)
    (bounded : ∀ used ∈ earlier, used < 2 ^ config.addressWidth) :
    AllPlaced config placed registers addresses ∨
      ∃ i stuck wanted cause, StopsAt config placed registers addresses i stuck wanted cause := by
  -- The addresses in `earlier` stay those of the registers placed so far, without repeats.
  induction documented generalizing placed with
  | nil => exact Or.inl ⟨by simpa [here] using distinct, by simp, by simp [placeAll]⟩
  | @explicit earlier addresses register rest address given _ ih =>
    have requested : requestedAddress config placed register = .ok address :=
      requestedAddress_explicit (allowed register List.mem_cons_self) given
    refine placeAll_cons_cases valid requested (by rw [here]; exact distinct) ?_
    intro distinct' bound
    rw [here] at distinct'
    refine ih (fun later listed => allowed later (List.mem_cons_of_mem _ listed))
      (by simp [here]) distinct' ?_
    intro used listed
    rcases List.mem_append.mp listed with listed | single
    · exact bounded used listed
    · rw [List.mem_singleton.mp single]
      exact bound
  | @first addresses register rest free _ ih =>
    cases List.map_eq_nil_iff.mp here
    refine placeAll_cons_cases valid (requestedAddress_first free) List.nodup_nil ?_
    intro distinct' bound
    refine ih (fun later listed => allowed later (List.mem_cons_of_mem _ listed)) rfl
      (List.nodup_singleton _) ?_
    intro used listed
    rw [List.mem_singleton.mp listed]
    exact bound
  | @next earlier addresses register rest address free nonempty least _ ih =>
    subst here
    have occupied : placed ≠ [] := by
      intro empty
      exact nonempty (by rw [empty]; rfl)
    refine placeAll_cons_cases valid (requestedAddress_next valid free occupied bounded least)
      distinct ?_
    intro distinct' bound
    refine ih (fun later listed => allowed later (List.mem_cons_of_mem _ listed)) (by simp)
      distinct' ?_
    intro used listed
    rcases List.mem_append.mp listed with listed | single
    · exact bounded used listed
    · rw [List.mem_singleton.mp single]
      exact bound

end PlaceAll

/-! ## Whole maps -/

section Resolve

variable {map : RegisterMap} {addresses : List Nat}

theorem zipWith_register {registers : List Register}
    (length : addresses.length = registers.length) :
    (List.zipWith PlacedRegister.mk registers addresses).map PlacedRegister.register =
      registers := by
  rw [List.map_zipWith, ← List.map_uncurry_zip_eq_zipWith]
  exact List.map_fst_zip (by omega)

theorem zipWith_address {registers : List Register}
    (length : addresses.length = registers.length) :
    (List.zipWith PlacedRegister.mk registers addresses).map PlacedRegister.address =
      addresses := by
  rw [List.map_zipWith, ← List.map_uncurry_zip_eq_zipWith]
  exact List.map_snd_zip (by omega)

/-- A layout whose addresses differ finds each register at its address. -/
theorem at?_eq_some_iff {layout : Layout} (distinct : (layout.registers.map
    PlacedRegister.address).Nodup) {address : Nat} {placed : PlacedRegister} :
    layout.at? address = some placed ↔ placed ∈ layout.registers ∧ placed.address = address := by
  unfold at?
  constructor
  · intro found
    have same := List.find?_some found
    simp only [beq_iff_eq] at same
    exact ⟨List.mem_of_find?_eq_some found, same⟩
  · rintro ⟨listed, rfl⟩
    cases found : layout.registers.find? fun other => other.address == placed.address with
    | none =>
      rw [List.find?_eq_none] at found
      exact absurd (beq_iff_eq.mpr rfl) (found placed listed)
    | some other =>
      have same := List.find?_some found
      simp only [beq_iff_eq] at same
      rw [List.inj_on_of_nodup_map distinct (List.mem_of_find?_eq_some found) listed same]

/-- The layout of a map beside the documented addresses. -/
structure Resolves (map : RegisterMap) (addresses : List Nat) : Prop where
  /-- There is one list of documented addresses. -/
  documented : ∀ others,
    Documented map.config.addressIncrement [] map.registers others ↔ others = addresses
  /-- The map has a layout if these are distinct and on the address bus. -/
  succeeds : (∃ layout, resolve map = .ok layout) ↔
    addresses.Nodup ∧ ∀ address ∈ addresses, address < 2 ^ map.config.addressWidth
  puts : ∀ layout, resolve map = .ok layout → layout.Puts map addresses
  aligned : ∀ layout, resolve map = .ok layout →
    ∀ placed ∈ layout.registers, map.config.addressIncrement ∣ placed.address
  finds : ∀ layout, resolve map = .ok layout → ∀ address placed,
    layout.at? address = some placed ↔ placed ∈ layout.registers ∧ placed.address = address
  above : ∀ layout, resolve map = .ok layout →
    layout.registers.Pairwise fun before after =>
      after.register.address = none → before.address < after.address
  /-- Else the first register that is misplaced raises a conflict, which says
  where it was to go and what stands there. -/
  fails : ∀ error, resolve map = .error error → ∃ i register address,
    IsLeast {i | Misplaced map.config.addressWidth addresses i} i ∧
    map.registers[i]? = some register ∧ addresses[i]? = some address ∧
    ((2 ^ map.config.addressWidth ≤ address ∧
        error = .conflict (.addressTooLarge register.name address map.config.addressWidth)) ∨
      (address < 2 ^ map.config.addressWidth ∧
        ∃ j other, j < i ∧ map.registers[j]? = some other ∧ addresses[j]? = some address ∧
          error = .conflict
            (.sameAddress other.name register.name address map.config.addressWidth)))

theorem resolves_of_allPlaced (valid : map.Valid)
    (documented : Documented map.config.addressIncrement [] map.registers addresses)
    (all : AllPlaced map.config [] map.registers addresses) : Resolves map addresses := by
  obtain ⟨distinct, bounded, result⟩ := all
  have resolved : resolve map = .ok ⟨map, map.config.dataWidth, map.config.addressWidth,
      List.zipWith PlacedRegister.mk map.registers addresses⟩ := by
    unfold resolve placements
    rw [result]
    rfl
  have length := documented.length_eq
  have located := zipWith_address length
  refine ⟨?_, ?_, ?_, ?_, ?_, ?_, ?_⟩
  · intro others
    constructor
    · exact fun other => other.unique documented
    · rintro rfl
      exact documented
  · exact ⟨fun _ => ⟨distinct, bounded⟩, fun _ => ⟨_, resolved⟩⟩
  · intro layout found
    cases resolved.symm.trans found
    exact ⟨rfl, rfl, rfl, zipWith_register length, located, fun _ _ => rfl⟩
  · intro layout found placed listed
    cases resolved.symm.trans found
    refine documented.dvd ?_ placed.address ?_
    · intro register declared address given
      exact Nat.dvd_of_mod_eq_zero ((valid.allowed register declared).aligned address given)
    · rw [← located]
      exact List.mem_map_of_mem listed
  · intro layout found address placed
    cases resolved.symm.trans found
    exact at?_eq_some_iff (by rw [located]; exact distinct)
  · intro layout found
    cases resolved.symm.trans found
    exact documented.above.2
  · intro error found
    cases resolved.symm.trans found

/-- Before the index at which the loop stops nothing is misplaced. -/
theorem isLeast_misplaced {config : Configuration} {registers : List Register} {i : Nat}
    {register : Register} {address : Nat} {cause : Conflict}
    (stops : StopsAt config [] registers addresses i register address cause)
    (misplaced : Misplaced config.addressWidth addresses i) :
    IsLeast {i | Misplaced config.addressWidth addresses i} i := by
  refine ⟨misplaced, ?_⟩
  rintro k ⟨other, otherAt, wrong⟩
  by_contra earlier
  have before : k < i := Nat.lt_of_not_le earlier
  have taken : (addresses.take i)[k]? = some other := by
    rw [List.getElem?_take_of_lt before]
    exact otherAt
  rcases wrong with large | used
  · exact absurd (stops.bounded other (List.mem_of_getElem? taken)) (Nat.not_lt.mpr large)
  · obtain ⟨j, bound, jAt⟩ := List.mem_take_iff_getElem.mp used
    have jTaken : (addresses.take i)[j]? = some other := by
      rw [List.getElem?_take_of_lt (by omega), ← jAt]
      exact List.getElem?_eq_getElem _
    have length : j < (addresses.take i).length := by
      rw [List.length_take]
      omega
    have same := (List.getElem?_inj length stops.distinct).mp (jTaken.trans taken.symm)
    omega

theorem resolves_of_stopsAt
    (documented : Documented map.config.addressIncrement [] map.registers addresses) {i : Nat}
    {register : Register} {address : Nat} {cause : Conflict}
    (stops : StopsAt map.config [] map.registers addresses i register address cause) :
    Resolves map addresses := by
  have refused : resolve map = .error (.conflict cause) := by
    unfold resolve placements
    rw [stops.result]
  -- A register that stands in the way is one of those before index `i`.
  have earlier : ∀ other ∈ (List.zipWith PlacedRegister.mk map.registers addresses).take i,
      ∃ j, j < i ∧ map.registers[j]? = some other.register ∧
        addresses[j]? = some other.address := by
    intro other listed
    obtain ⟨j, bound, jAt⟩ := List.mem_take_iff_getElem.mp listed
    have jAt' := (List.getElem?_eq_some_iff (a := other)).mpr ⟨by omega, jAt⟩
    obtain ⟨declared, place, declaredAt, placeAt, rfl⟩ := List.getElem?_zipWith_eq_some.mp jAt'
    exact ⟨j, by omega, declaredAt, placeAt⟩
  have misplaced : Misplaced map.config.addressWidth addresses i := by
    refine ⟨address, stops.address_eq, ?_⟩
    rcases stops.cause_eq with ⟨large, -⟩ | ⟨-, other, listed, rfl, -⟩
    · exact Or.inl large
    · rcases earlier other listed with ⟨j, before, -, jAt⟩
      refine Or.inr (List.mem_of_getElem? (i := j) ?_)
      rw [List.getElem?_take_of_lt before]
      exact jAt
  have least := isLeast_misplaced stops misplaced
  refine ⟨?_, ?_, ?_, ?_, ?_, ?_, ?_⟩
  · intro others
    constructor
    · exact fun other => other.unique documented
    · rintro rfl
      exact documented
  · constructor
    · rintro ⟨layout, found⟩
      cases refused.symm.trans found
    · rintro ⟨distinct, bounded⟩
      rcases misplaced with ⟨other, otherAt, large | used⟩
      · exact absurd (bounded other (List.mem_of_getElem? otherAt)) (Nat.not_lt.mpr large)
      · obtain ⟨j, bound, jAt⟩ := List.mem_take_iff_getElem.mp used
        have jAt' := (List.getElem?_eq_some_iff (a := other)).mpr ⟨by omega, jAt⟩
        have length : j < addresses.length := (List.getElem?_eq_some_iff.mp jAt').1
        have same := (List.getElem?_inj length distinct).mp (jAt'.trans otherAt.symm)
        omega
  · intro layout found
    cases refused.symm.trans found
  · intro layout found
    cases refused.symm.trans found
  · intro layout found
    cases refused.symm.trans found
  · intro layout found
    cases refused.symm.trans found
  · intro error found
    cases refused.symm.trans found
    refine ⟨i, register, address, least, stops.register_eq, stops.address_eq, ?_⟩
    rcases stops.cause_eq with ⟨large, rfl⟩ | ⟨inside, other, listed, rfl, rfl⟩
    · exact Or.inl ⟨large, rfl⟩
    · rcases earlier other listed with ⟨j, before, declaredAt, jAt⟩
      exact Or.inr ⟨inside, j, other.register, before, declaredAt, jAt, rfl⟩

/-- A valid map has documented addresses, and the loop meets them or stops at
the first that cannot be had. -/
theorem exists_resolves (valid : map.Valid) : ∃ addresses, Resolves map addresses := by
  obtain ⟨addresses, documented⟩ :=
    exists_documented valid.config.increment_pos [] map.registers
  refine ⟨addresses, ?_⟩
  have outcome : AllPlaced map.config [] map.registers addresses ∨
      ∃ i stuck wanted cause,
        StopsAt map.config [] map.registers addresses i stuck wanted cause :=
    placeAll_cases valid.config documented valid.allowed rfl List.nodup_nil
      (by intro used listed; cases listed)
  rcases outcome with all | ⟨i, stuck, wanted, cause, stops⟩
  · exact resolves_of_allPlaced valid documented all
  · exact resolves_of_stopsAt documented stops

/-- The registers of a map stand at different multiples of the increment on the
address bus. -/
structure Stands (map : RegisterMap) (layout : Layout) : Prop where
  config_eq : layout.config = map.config
  declared : ∀ placed ∈ layout.registers, placed.register ∈ map.registers
  distinct : layout.registers.Pairwise fun before after => before.address ≠ after.address
  aligned : ∀ placed ∈ layout.registers, map.config.addressIncrement ∣ placed.address
  bounded : ∀ placed ∈ layout.registers, placed.address < 2 ^ map.config.addressWidth
  /-- Those with an explicit address are there. -/
  kept : ∀ placed ∈ layout.registers, ∀ address, placed.register.address = some address →
    placed.address = address

theorem Puts.zipWith_eq {layout : Layout} (puts : layout.Puts map addresses) :
    List.zipWith PlacedRegister.mk map.registers addresses = layout.registers := by
  rw [← puts.registers, ← puts.addresses, List.zipWith_map, List.zipWith_self]
  exact List.map_id' _

theorem stands_of_resolve {layout : Layout} (valid : map.Valid)
    (resolved : resolve map = .ok layout) : Stands map layout := by
  obtain ⟨addresses, resolves⟩ := exists_resolves valid
  have puts := resolves.puts layout resolved
  obtain ⟨distinct, bounded⟩ := resolves.succeeds.mp ⟨layout, resolved⟩
  have documented := (resolves.documented addresses).mpr rfl
  refine ⟨congrArg RegisterMap.config puts.map_eq, ?_, ?_, resolves.aligned layout resolved,
    ?_, ?_⟩
  · intro placed listed
    rw [← puts.registers]
    exact List.mem_map_of_mem listed
  · rw [← puts.addresses] at distinct
    exact List.pairwise_map.mp distinct
  · intro placed listed
    apply bounded
    rw [← puts.addresses]
    exact List.mem_map_of_mem listed
  · rw [← puts.zipWith_eq]
    exact documented.kept

/-- **The layout of a built map is the documented one**, or the conflict of the
first register for which there is no place. -/
theorem resolve_documented {map : RegisterMap} (built : map.Built) :
    ∃ addresses, Resolves map addresses :=
  exists_resolves built.valid

/-- A map whose explicit addresses run out of sequence. -/
def outOfSequence : RegisterMap :=
  ((RegisterMap.empty .default).addRegisters
    [⟨"a", "", some 16, []⟩, ⟨"b", "", none, []⟩, ⟨"c", "", some 4, []⟩, ⟨"d", "", none, []⟩]).1

theorem resolve_documented_outOfSequence :
    outOfSequence.Built ∧ Resolves outOfSequence [16, 20, 4, 24] := by
  have free (name : String) (made : Register.make name = .ok ⟨name, "", none, []⟩) :
      Register.Built ⟨name, "", none, []⟩ := .make made
  have built : outOfSequence.Built := by
    refine .addRegisters (.empty .default) ?_
    intro register listed
    simp only [List.mem_cons, List.not_mem_nil, or_false] at listed
    rcases listed with rfl | rfl | rfl | rfl
    · exact (free "a" rfl).withAddress 16
    · exact free "b" rfl
    · exact (free "c" rfl).withAddress 4
    · exact free "d" rfl
  rcases resolve_documented built with ⟨addresses, resolves⟩
  have layout : resolve outOfSequence = .ok ⟨outOfSequence, 32, 16,
      List.zipWith PlacedRegister.mk outOfSequence.registers [16, 20, 4, 24]⟩ := by rfl
  have same : [16, 20, 4, 24] = addresses := (resolves.puts _ layout).addresses
  exact ⟨built, same ▸ resolves⟩

end Resolve

end RegisterBank.Layout
