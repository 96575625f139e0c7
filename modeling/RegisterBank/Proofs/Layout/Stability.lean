import RegisterBank.Proofs.Construction.Workbench
import RegisterBank.Proofs.Layout.Placement

/-!
# Layouts stay where they are

Who has laid out a map may write the addresses that were given into the map, for
all registers or for some, or declare one more register behind the others.
Neither moves a register: a pinned register goes where it went before
(`Documented.pinned`), and what stands behind it is never asked for
(`placeAll_append`).  That a pinned register is taken at all is due to the
resolved addresses, which are distinct multiples of the increment on the address
bus (`pinned_valid`).
-/

namespace RegisterBank.Layout

/-! ## Pinned registers -/

/-- A register at an address of its own, if it is one of the chosen. -/
def pinnedAt (chosen : Register → Bool) (register : Register) (address : Nat) : Register :=
  if chosen register then register.withAddress address else register

/-- The map of a layout with the chosen registers at the addresses they have
there.  For a register with an explicit address this changes nothing. -/
def pinned (layout : Layout) (chosen : Register → Bool) : RegisterMap where
  config := layout.config
  registers := layout.registers.map fun placed =>
    pinnedAt chosen placed.register placed.address

section Pinned

variable {chosen : Register → Bool} {register : Register} {address : Nat}

theorem pinnedAt_frame (chosen : Register → Bool) (register : Register) (address : Nat) :
    ∃ kept, pinnedAt chosen register address = { register with address := kept } ∧
      (kept = register.address ∨ kept = some address) := by
  unfold pinnedAt
  cases chosen register with
  | true => exact ⟨some address, rfl, Or.inr rfl⟩
  | false => exact ⟨register.address, rfl, Or.inl rfl⟩

theorem pinnedAt_address (given : register.address = some address) :
    (pinnedAt chosen register address).address = some address := by
  obtain ⟨kept, same, either⟩ := pinnedAt_frame chosen register address
  rw [same]
  rcases either with rfl | rfl
  · exact given
  · rfl

theorem pinnedAt_cases (free : register.address = none) :
    (pinnedAt chosen register address).address = some address ∨
      (pinnedAt chosen register address).address = none := by
  obtain ⟨kept, same, either⟩ := pinnedAt_frame chosen register address
  rw [same]
  rcases either with rfl | rfl
  · exact Or.inr free
  · exact Or.inl rfl

/-- Registers that are pinned where the rule puts them are put there again. -/
theorem Documented.pinned {increment : Nat} {earlier addresses : List Nat}
    {registers : List Register} (chosen : Register → Bool)
    (documented : Documented increment earlier registers addresses) :
    Documented increment earlier (List.zipWith (pinnedAt chosen) registers addresses)
      addresses := by
  induction documented with
  | nil => exact .nil
  | explicit given _ ih => exact .explicit (pinnedAt_address given) ih
  | first free _ ih =>
    rcases pinnedAt_cases free with given | free
    · exact .explicit given ih
    · exact .first free ih
  | next free occupied least _ ih =>
    rcases pinnedAt_cases free with given | free
    · exact .explicit given ih
    · exact .next free occupied least ih

theorem pinnedAt_valid (valid : register.Valid) : (pinnedAt chosen register address).Valid := by
  obtain ⟨kept, same, -⟩ := pinnedAt_frame chosen register address
  rw [same]
  exact ⟨valid.name, valid.fields, valid.apart⟩

/-- What an explicit address of a register in the pinned map says is where the
register stands. -/
theorem address_of_pinnedAt {placed : PlacedRegister} {explicit : Nat}
    (there : ∀ address, placed.register.address = some address → placed.address = address)
    (given : (pinnedAt chosen placed.register placed.address).address = some explicit) :
    placed.address = explicit := by
  obtain ⟨kept, same, either⟩ := pinnedAt_frame chosen placed.register placed.address
  rw [same] at given
  rcases either with rfl | rfl
  · exact there explicit given
  · exact Option.some.inj given

end Pinned

section Resolved

variable {map : RegisterMap} {layout : Layout} (valid : map.Valid)
  (resolved : resolve map = .ok layout)

include valid resolved

/-- Pinned registers are taken by a map as the free ones were. -/
theorem pinned_valid (chosen : Register → Bool) : (layout.pinned chosen).Valid := by
  have stands := stands_of_resolve valid resolved
  have config : (layout.pinned chosen).config = map.config := stands.config_eq
  refine ⟨?_, ?_, ?_, ?_⟩
  · rw [config]
    exact valid.config
  · intro register listed
    obtain ⟨placed, inside, rfl⟩ := List.mem_map.mp listed
    exact pinnedAt_valid (valid.registers _ (stands.declared placed inside))
  · intro register listed
    obtain ⟨placed, inside, rfl⟩ := List.mem_map.mp listed
    have allowed := valid.allowed _ (stands.declared placed inside)
    rw [config]
    refine ⟨?_, ?_, ?_⟩
    · obtain ⟨_, same, -⟩ := pinnedAt_frame chosen placed.register placed.address
      rw [same]
      exact allowed.above_le
    · intro address given
      rw [← address_of_pinnedAt (stands.kept placed inside) given]
      exact Nat.mod_eq_zero_of_dvd (stands.aligned placed inside)
    · intro address given
      rw [← address_of_pinnedAt (stands.kept placed inside) given]
      exact stands.bounded placed inside
  · have names : layout.registers.Pairwise fun before after =>
        before.register.Apart after.register := by
      obtain ⟨_, resolves⟩ := exists_resolves valid
      have apart := valid.apart
      rw [← (resolves.puts layout resolved).registers] at apart
      exact List.pairwise_map.mp apart
    refine List.pairwise_map.mpr ((names.and stands.distinct).imp_of_mem ?_)
    intro before after listed listed' different
    constructor
    · obtain ⟨_, same, -⟩ := pinnedAt_frame chosen before.register before.address
      obtain ⟨_, same', -⟩ := pinnedAt_frame chosen after.register after.address
      rw [same, same']
      exact different.1.1
    · intro address given given'
      apply different.2
      rw [address_of_pinnedAt (stands.kept before listed) given',
        address_of_pinnedAt (stands.kept after listed') given]

/-- The pinned map has a layout, at the addresses of the free one. -/
theorem exists_resolve_pinned {addresses : List Nat} (resolves : Resolves map addresses)
    (chosen : Register → Bool) :
    ∃ later, resolve (layout.pinned chosen) = .ok later ∧
      later.Puts (layout.pinned chosen) addresses := by
  have puts := resolves.puts layout resolved
  have config : layout.config = map.config := (stands_of_resolve valid resolved).config_eq
  obtain ⟨others, again⟩ := exists_resolves (pinned_valid valid resolved chosen)
  have registers : (layout.pinned chosen).registers =
      List.zipWith (pinnedAt chosen) map.registers addresses := by
    rw [← puts.registers, ← puts.addresses, List.zipWith_map, List.zipWith_self]
    rfl
  have documented : Documented layout.config.addressIncrement []
      (layout.pinned chosen).registers addresses := by
    rw [config, registers]
    exact ((resolves.documented addresses).mpr rfl).pinned chosen
  have same : addresses = others := (again.documented addresses).mp documented
  subst same
  have placed := resolves.succeeds.mp ⟨layout, resolved⟩
  rw [← config] at placed
  obtain ⟨later, laid⟩ := again.succeeds.mpr placed
  exact ⟨later, laid, again.puts later laid⟩

end Resolved

/-! ## Appended registers -/

section Appended

variable {config : Configuration} {first second : List Register}
  {placed after : List PlacedRegister}

/-- What is placed depends on what was placed before, and not on what follows. -/
theorem placeAll_append (done : placeAll config placed first = (after, .ok ())) :
    placeAll config placed (first ++ second) = placeAll config after second := by
  induction first generalizing placed with
  | nil =>
    cases done
    rfl
  | cons register rest ih =>
    unfold placeAll at done
    cases placing : place config placed register with
    | error error =>
      rw [placing] at done
      cases done
    | ok next =>
      rw [placing] at done
      rw [List.cons_append, placeAll_cons placing]
      exact ih done

theorem placements_of_resolve {map : RegisterMap} {layout : Layout}
    (resolved : resolve map = .ok layout) : placements map = (layout.registers, .ok ()) := by
  unfold resolve at resolved
  split at resolved
  · cases resolved
  · rename_i registers placing
    cases resolved
    exact placing

theorem exists_of_place {register : Register} {next : PlacedRegister}
    (done : place config placed register = .ok next) :
    ∃ address, next = ⟨register, address⟩ := by
  unfold place at done
  split at done
  · cases done
  · split at done
    · cases done
    · split at done
      · cases done
      · cases done
        exact ⟨_, rfl⟩

/-- A layout with one register more has the others where they were. -/
theorem exists_registers_of_addRegister {map next : RegisterMap} {layout later : Layout}
    {added : Register} (resolved : resolve map = .ok layout)
    (done : map.addRegister added = .ok next) (resolved' : resolve next = .ok later) :
    ∃ address, later.registers = layout.registers ++ [⟨added, address⟩] := by
  have reached := RegisterMap.eq_extended_of_addRegister done
  subst reached
  have onward : placements (map.extended [added]) =
      placeAll map.config layout.registers [added] :=
    placeAll_append (placements_of_resolve resolved)
  rw [placements_of_resolve resolved'] at onward
  unfold placeAll at onward
  cases last : place map.config layout.registers added with
  | error error =>
    rw [last] at onward
    cases congrArg Prod.snd onward
  | ok next =>
    rw [last] at onward
    obtain ⟨address, rfl⟩ := exists_of_place last
    exact ⟨address, congrArg Prod.fst onward⟩

end Appended

/-! ## Whole maps -/

/-- **A layout is stable.**  Registers of a map with a layout may be given their
resolved addresses, as many of them as one likes: every call is accepted as
before, and all registers get the addresses they had.  So they do in a map with
one register more, if that has a layout. -/
theorem resolve_stable {map : RegisterMap} {layout : Layout} (built : map.Built)
    (resolved : resolve map = .ok layout) :
    ∃ addresses, layout.Puts map addresses ∧
      (∀ chosen : Register → Bool,
        (RegisterMap.empty map.config).addRegisters (layout.pinned chosen).registers =
          (layout.pinned chosen, .ok ()) ∧
        ∃ later, resolve (layout.pinned chosen) = .ok later ∧
          later.Puts (layout.pinned chosen) addresses) ∧
      ∀ added next later, map.addRegister added = .ok next → resolve next = .ok later →
        ∃ address, later.registers = layout.registers ++ [⟨added, address⟩] := by
  have valid := built.valid
  obtain ⟨addresses, resolves⟩ := exists_resolves valid
  have puts := resolves.puts layout resolved
  refine ⟨addresses, puts, ?_, ?_⟩
  · intro chosen
    constructor
    · rw [← puts.map_eq]
      exact (pinned_valid valid resolved chosen).addRegisters_empty
    · exact exists_resolve_pinned valid resolved resolves chosen
  · intro added next later done resolved'
    exact exists_registers_of_addRegister resolved done resolved'

/-- The calls that make a map whose explicit addresses run out of sequence. -/
def scatteredCalls : List Workbench.Call :=
  [.newConfiguration, .newRegister "control", .onRegister 0 (.withAddress 16),
    .newRegister "status", .newRegister "identity", .onRegister 2 (.withAddress 4),
    .newRegister "data", .newMap 0, .onMap 0 (.addRegisters [0, 1, 2, 3])]

/-- The map that these calls make. -/
def scatteredMap : RegisterMap :=
  (Workbench.empty.run scatteredCalls).maps.headD (.empty .default)

/-- The layout of this map. -/
def scatteredLayout : Layout :=
  ⟨scatteredMap, 32, 16, List.zipWith PlacedRegister.mk scatteredMap.registers [16, 20, 4, 24]⟩

theorem resolve_stable_scattered :
    scatteredMap.Built ∧ resolve scatteredMap = .ok scatteredLayout ∧
      (∃ later, resolve (scatteredLayout.pinned fun register => register.name == "data") =
          .ok later ∧
        later.registers.map PlacedRegister.address = [16, 20, 4, 24]) ∧
      ∃ next later address, scatteredMap.addRegister ⟨"error", "", none, []⟩ = .ok next ∧
        resolve next = .ok later ∧
        later.registers = scatteredLayout.registers ++ [⟨⟨"error", "", none, []⟩, address⟩] := by
  have built : scatteredMap.Built :=
    Workbench.built_of_mem_run scatteredCalls List.mem_cons_self
  have resolved : resolve scatteredMap = .ok scatteredLayout := rfl
  obtain ⟨addresses, puts, pinned, appended⟩ := resolve_stable built resolved
  obtain ⟨-, later, laid, puts'⟩ := pinned fun register => register.name == "data"
  obtain ⟨address, kept⟩ := appended ⟨"error", "", none, []⟩ _ _ rfl rfl
  refine ⟨built, resolved, ⟨later, laid, ?_⟩, _, _, address, rfl, rfl, kept⟩
  rw [puts'.addresses, ← puts.addresses]
  rfl

end RegisterBank.Layout
