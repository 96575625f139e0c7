import RegisterBank.Files.Outputs
import RegisterBank.Proofs.Construction.StoredOptions
import RegisterBank.Proofs.Layout.Failures

/-!
# Maps without a bridge

A map whose configuration names no bus family asks for no bridge.  Whether its
files are in memory or on a disk, they are left alone, and no name is needed for
what is not written.  But the layout comes first, so such a map is not always
skipped: if it has no layout it fails, as it would with a bridge
(`skips_iff_placeable`).
-/

namespace RegisterBank.Files

/-! ## The run of a map without a bridge -/

/-- What is told about a map without a bridge: the registers that were placed
and, if these are all, that nothing is generated. -/
def unaskedEvents (map : RegisterMap) : List Event :=
  Event.ofPlacements map.config.addressWidth (Layout.placements map).1 ++
    match Layout.resolve map with
    | .ok _ => [.bridgeSkipped]
    | .error _ => []

section Unasked

variable {map : RegisterMap} {directory : Path} {input : Option Path} {session : Session}

/-- Without a bus family the run is over as soon as the layout is known. -/
theorem run_generateBridge (unasked : map.config.protocol = none) :
    (generateBridge map directory input).run.run session =
      ((Layout.resolve map).map fun _ => none,
        ⟨session.store, session.events ++ unaskedEvents map⟩) := by
  unfold generateBridge resolve unaskedEvents
  rw [unasked]
  cases Layout.resolve map with
  | error error =>
    rw [List.append_nil]
    rfl
  | ok layout =>
    rw [← List.append_assoc]
    rfl

theorem protocol_eq_none (unasked : map.config.bridgeWord = "none") :
    map.config.protocol = none := by
  rw [← ofWord?_bridgeWord, unasked]
  decide

/-- What comes of a map without a bridge, where its registers have their
documented addresses. -/
structure Skips (map : RegisterMap) (addresses : List Nat) (before : Session)
    (done : Result (Option Path) × Session) : Prop where
  store_eq : done.2.store = before.store
  skipped : done.1 = .ok none ↔
    addresses.Nodup ∧ ∀ address ∈ addresses, address < 2 ^ map.config.addressWidth
  /-- Else the error is that of a register for which there is no place. -/
  failed : done.1 ≠ .ok none → ∃ error placed register address, done.1 = .error error ∧
    Layout.ComesTo map placed register ∧
    Layout.Outcome map.config placed register address (.error error)

theorem skips_of_resolves {addresses : List Nat} (valid : map.Valid)
    (unasked : map.config.protocol = none) (resolves : Layout.Resolves map addresses) :
    Skips map addresses session ((generateBridge map directory input).run.run session) := by
  rw [run_generateBridge unasked]
  have placeable := resolves.succeeds
  cases resolved : Layout.resolve map with
  | ok layout =>
    have placed := placeable.mp ⟨layout, resolved⟩
    exact ⟨rfl, ⟨fun _ => placed, fun _ => rfl⟩, fun other => absurd rfl other⟩
  | error error =>
    obtain ⟨placed, register, comes, refused⟩ := Layout.exists_comesTo_of_resolve_error resolved
    obtain ⟨address, -, outcome⟩ := (comes.arrival valid).outcome valid.config
    rw [refused] at outcome
    refine ⟨rfl, ⟨nofun, ?_⟩, fun _ => ⟨error, placed, register, address, rfl, comes, outcome⟩⟩
    intro fit
    obtain ⟨layout, resolved'⟩ := placeable.mpr fit
    rw [resolved] at resolved'
    cases resolved'

end Unasked

/-- **A map without a bridge is skipped if it has a layout.**  Whatever the
files, the directory and the path that the map came from, no file changes, and
the map is skipped exactly if its documented addresses are distinct and on the
address bus.  A map with other addresses fails like any map without a layout. -/
theorem skips_iff_placeable {map : RegisterMap} (built : map.Built)
    (unasked : map.config.bridgeWord = "none") :
    ∃ addresses,
      (∀ others, Layout.Documented map.config.addressIncrement [] map.registers others ↔
        others = addresses) ∧
      ∀ (directory : Path) (input : Option Path) (session : Session),
        Skips map addresses session ((generateBridge map directory input).run.run session) := by
  obtain ⟨addresses, resolves⟩ := Layout.exists_resolves built.valid
  exact ⟨addresses, resolves.documented, fun _ _ _ =>
    skips_of_resolves built.valid (protocol_eq_none unasked) resolves⟩

/-- The calls that make a map with one register. -/
def lonelyCalls : List Workbench.Call :=
  [.newConfiguration, .newRegister "status", .newMap 0, .onMap 0 (.addRegisters [0])]

/-- The map that these calls make. -/
def lonelyMap : RegisterMap :=
  (Workbench.empty.run lonelyCalls).maps.headD (.empty .default)

/-- One map that is skipped and one that is not, neither with a name. -/
theorem skips_iff_placeable_lonely :
    lonelyMap.Built ∧ lonelyMap.config.bridgeWord = "none" ∧
      ((generateBridge lonelyMap ⟨"out"⟩ none).run.run ⟨.disk .empty, []⟩).1 = .ok none ∧
      Layout.crossedMap.Built ∧ Layout.crossedMap.config.bridgeWord = "none" ∧
      Skips Layout.crossedMap [0, 0] ⟨.memory .empty, []⟩
        ((generateBridge Layout.crossedMap ⟨"out"⟩ none).run.run ⟨.memory .empty, []⟩) := by
  have lonely : lonelyMap.Built := Workbench.built_of_mem_run lonelyCalls List.mem_cons_self
  have crossed : Layout.crossedMap.Built :=
    Workbench.built_of_mem_run Layout.crossedCalls List.mem_cons_self
  obtain ⟨addresses, documented, skips⟩ := skips_iff_placeable lonely rfl
  obtain ⟨crossings, documented', skips'⟩ := skips_iff_placeable crossed rfl
  have alone : [0] = addresses := (documented [0]).mp (.first rfl .nil)
  have both : [0, 0] = crossings := (documented' [0, 0]).mp (.first rfl (.explicit rfl .nil))
  subst alone both
  exact ⟨lonely, rfl, (skips ⟨"out"⟩ none ⟨.disk .empty, []⟩).skipped.mpr (by decide), crossed, rfl,
    skips' ⟨"out"⟩ none ⟨.memory .empty, []⟩⟩

/-- The second register of this map asks for the address that the first was
given.  No bridge is asked for, and the run fails all the same. -/
theorem crossed_not_skipped :
    Layout.crossedMap.Built ∧ Layout.crossedMap.config.bridgeWord = "none" ∧
      ((generateBridge Layout.crossedMap ⟨"out"⟩ none).run.run ⟨.memory .empty, []⟩).1 =
        conflict (.sameAddress "status" "control" 0 16) := by
  have crossed : Layout.crossedMap.Built :=
    Workbench.built_of_mem_run Layout.crossedCalls List.mem_cons_self
  exact ⟨crossed, rfl, rfl⟩

end RegisterBank.Files
