import RegisterBank.Proofs.Bank.FieldRequests

/-!
# Bytes that a write does not select

A machine takes data and strobes of any width.  Of a write, a field sees its own
part of the spread strobes and the data under it (`Cell.step_eq_of_masked`), and
fields lie on the data bus.  So two writes that select the same bytes of the bus
and bring the same there are one write to every field: the cycles show the same
and leave the same machine (`Machine.cycle_eq_of_alike`), and runs of such
requests cannot be told apart.
-/

namespace RegisterBank.Bank

/-! ## Writes that select the same -/

/-- Two writes to one address that select the same bytes of a data bus and bring
the same there. -/
structure StrobedWrite.AgreesOn (dataWidth : Nat) (first second : StrobedWrite) : Prop where
  address : first.address = second.address
  strobe : ∀ byte < dataWidth / 8, first.strobe.testBit byte = second.strobe.testBit byte
  data : ∀ byte < dataWidth / 8, first.strobe.testBit byte = true →
    Bits.extract first.data (8 * byte) 8 = Bits.extract second.data (8 * byte) 8

/-- Requests that differ at most in what they write, and there only in what the
bus does not carry or the strobes leave out. -/
inductive Request.Alike (dataWidth : Nat) : Request → Request → Prop
  | same (request : Request) : Alike dataWidth request request
  | write {address data strobe data' strobe' : Nat} :
    StrobedWrite.AgreesOn dataWidth ⟨address, data, strobe⟩ ⟨address, data', strobe'⟩ →
    Alike dataWidth (.write address data strobe) (.write address data' strobe')
  | writeRead {address data strobe data' strobe' source : Nat} :
    StrobedWrite.AgreesOn dataWidth ⟨address, data, strobe⟩ ⟨address, data', strobe'⟩ →
    Alike dataWidth (.writeRead address data strobe source)
      (.writeRead address data' strobe' source)

/-- Actions that are the same but for such requests. -/
inductive Action.Alike (dataWidth : Nat) : Action → Action → Prop
  | same (action : Action) : Alike dataWidth action action
  | cycle {first second : Request} :
    first.Alike dataWidth second → Alike dataWidth (.cycle first) (.cycle second)

namespace StrobedWrite.AgreesOn

variable {dataWidth : Nat} {first second : StrobedWrite} (agrees : first.AgreesOn dataWidth second)

include agrees

/-- A bit of the bus is strobed by both or by neither. -/
theorem testBit_strobe {bit : Nat} (byte : bit / 8 < dataWidth / 8) :
    (Bits.strobeMask first.strobe).testBit bit = (Bits.strobeMask second.strobe).testBit bit := by
  rw [Bits.testBit_strobeMask, Bits.testBit_strobeMask, agrees.strobe _ byte]

/-- A strobed bit of the bus is the same in both. -/
theorem testBit_data {bit : Nat} (byte : bit / 8 < dataWidth / 8)
    (strobed : (Bits.strobeMask first.strobe).testBit bit = true) :
    first.data.testBit bit = second.data.testBit bit := by
  rw [Bits.testBit_strobeMask, Bool.and_eq_true] at strobed
  have same := congrArg (fun word => word.testBit (bit % 8)) (agrees.data _ byte strobed.2)
  have inside : bit % 8 < min 8 Bits.wordWidth := Nat.mod_lt _ (by decide)
  rw [Bits.testBit_extract, Bits.testBit_extract, Nat.div_add_mod, decide_eq_true inside,
    Bool.and_true, Bool.and_true] at same
  exact same

variable {lsb width : Nat} (inside : ∀ i < width, (lsb + i) / 8 < dataWidth / 8)

include inside

theorem extract_mask :
    Bits.extract (Bits.strobeMask first.strobe) lsb width =
      Bits.extract (Bits.strobeMask second.strobe) lsb width := by
  apply Nat.eq_of_testBit_eq
  intro i
  rw [Bits.testBit_extract, Bits.testBit_extract]
  by_cases within : i < width
  · rw [agrees.testBit_strobe (inside i within)]
  · have outside : ¬ i < min width Bits.wordWidth := by omega
    rw [decide_eq_false outside, Bool.and_false, Bool.and_false]

theorem extract_data :
    Bits.extract first.data lsb width &&& Bits.extract (Bits.strobeMask first.strobe) lsb width =
      Bits.extract second.data lsb width &&&
        Bits.extract (Bits.strobeMask second.strobe) lsb width := by
  rw [← agrees.extract_mask inside]
  apply Nat.eq_of_testBit_eq
  intro i
  rw [Nat.testBit_and, Nat.testBit_and, Bits.testBit_extract, Bits.testBit_extract,
    Bits.testBit_extract]
  by_cases within : i < width
  · cases strobed : (Bits.strobeMask first.strobe).testBit (lsb + i) with
    | false => rw [Bool.false_and, Bool.and_false, Bool.and_false]
    | true => rw [agrees.testBit_data (inside i within) strobed]
  · have outside : ¬ i < min width Bits.wordWidth := by omega
    simp only [decide_eq_false outside, Bool.and_false]

end StrobedWrite.AgreesOn

/-! ## Fields -/

namespace Cell

variable {cell : Cell} {first second : BusWrite}
  (data : cell.extract first.data &&& cell.extract first.mask =
    cell.extract second.data &&& cell.extract second.mask)

include data

/-- At a clock edge, a field goes by its part of the mask and by the data under
it. -/
theorem step_eq_of_masked (mask : cell.extract first.mask = cell.extract second.mask)
    (isRead : Bool) :
    cell.step (some first) isRead = cell.step (some second) isRead := by
  have strobed : cell.isStrobed (some first) = cell.isStrobed (some second) := by
    unfold isStrobed
    dsimp only
    rw [mask]
  have written : cell.writtenBits (some first) = cell.writtenBits (some second) := data
  have loaded : cell.loaded (some first) = cell.loaded (some second) := by
    unfold Cell.loaded Bits.merge
    dsimp only
    rw [data, mask]
  unfold step
  rw [strobed, written, loaded]

/-- A port shows nothing else of a write either. -/
theorem output_eq_of_masked : cell.output (some first) = cell.output (some second) := by
  unfold output
  cases cell.template with
  | pulse => exact data
  | hardwareDriven => rfl
  | sticky => rfl
  | stored readClear writeOnce => rfl
  | selfClearing => rfl

end Cell

section Within

variable {dataWidth : Nat} (whole : 8 ∣ dataWidth) {cell : Cell}
  (within : cell.bits.above ≤ dataWidth)

include whole within

/-- A field on the bus tells no alike requests apart. -/
theorem Cell.eq_of_alike {first second : Request} (alike : first.Alike dataWidth second)
    (register : RegisterCell) (isRead : Bool) :
    cell.step (register.write? first) isRead = cell.step (register.write? second) isRead ∧
      cell.output (register.write? first) = cell.output (register.write? second) := by
  have inside : ∀ i < cell.bits.width, (cell.bits.lsb + i) / 8 < dataWidth / 8 := by
    intro i low
    unfold BitRange.above at within
    exact Nat.div_lt_div_of_lt_of_dvd whole (by omega)
  have both {address data strobe data' strobe' : Nat} (agrees : StrobedWrite.AgreesOn dataWidth
      ⟨address, data, strobe⟩ ⟨address, data', strobe'⟩) :
      cell.step (register.write? (.write address data strobe)) isRead =
          cell.step (register.write? (.write address data' strobe')) isRead ∧
        cell.output (register.write? (.write address data strobe)) =
          cell.output (register.write? (.write address data' strobe')) := by
    have carried (data strobe : Nat) : register.write? (.write address data strobe) =
        if address == register.address then
          some ⟨address, data, Bits.strobeMask strobe⟩ else none := Option.filter_some
    rw [carried, carried]
    cases address == register.address with
    | false => exact ⟨rfl, rfl⟩
    | true =>
      have masks : cell.extract (Bits.strobeMask strobe) = cell.extract (Bits.strobeMask strobe') :=
        agrees.extract_mask inside
      have masked : cell.extract data &&& cell.extract (Bits.strobeMask strobe) =
          cell.extract data' &&& cell.extract (Bits.strobeMask strobe') :=
        agrees.extract_data inside
      exact ⟨step_eq_of_masked masked masks isRead, output_eq_of_masked masked⟩
  cases alike with
  | same request => exact ⟨rfl, rfl⟩
  | write agrees => exact both agrees
  | writeRead agrees => exact both agrees

end Within

/-! ## Machines -/

theorem Request.Alike.readAddress? {dataWidth : Nat} {first second : Request}
    (alike : first.Alike dataWidth second) : first.readAddress? = second.readAddress? := by
  cases alike with
  | same request => rfl
  | write agrees => rfl
  | writeRead agrees => rfl

namespace Machine

variable {dataWidth : Nat} {machine : Machine}

/-- Alike requests are one request to a machine whose fields all lie on the
bus. -/
theorem cycle_eq_of_alike (whole : 8 ∣ dataWidth)
    (within : ∀ register ∈ machine.registers, ∀ cell ∈ register.cells,
      cell.bits.above ≤ dataWidth)
    {first second : Request} (alike : first.Alike dataWidth second) :
    machine.cycle first = machine.cycle second := by
  have reads (register : RegisterCell) : register.isRead first = register.isRead second := by
    unfold RegisterCell.isRead
    rw [alike.readAddress?]
  have outputs : machine.registers.flatMap (fun register => register.outputs first) =
      machine.registers.flatMap fun register => register.outputs second := by
    refine List.flatMap_congr fun register listed => ?_
    unfold RegisterCell.outputs
    refine List.map_congr_left fun cell kept => ?_
    have member := (List.mem_filter.mp kept).1
    rw [(Cell.eq_of_alike whole (within register listed cell member) alike register true).2]
  have registers : machine.registers.map (fun register => register.step first) =
      machine.registers.map fun register => register.step second := by
    refine List.map_congr_left fun register listed => ?_
    unfold RegisterCell.step
    rw [reads]
    refine congrArg (RegisterCell.mk register.name register.address) ?_
    refine List.map_congr_left fun cell member => ?_
    exact (Cell.eq_of_alike whole (within register listed cell member) alike register _).1
  unfold cycle observe step
  rw [outputs, registers, alike.readAddress?]

end Machine

section Accepted

variable {map : RegisterMap} {layout : Layout} {protocol : Bus.Protocol} {plan : Plan}
  (accepted : Accepted map layout protocol plan)

include accepted

theorem Accepted.eight_dvd_dataWidth : 8 ∣ layout.dataWidth := by
  have widths := accepted.dataWidth_mem
  simp only [List.mem_cons, List.not_mem_nil, or_false] at widths
  omega

namespace Machine.Reachable

variable {machine : Machine} (reachable : machine.Reachable layout)

include reachable

theorem above_le : ∀ register ∈ machine.registers, ∀ cell ∈ register.cells,
    cell.bits.above ≤ layout.dataWidth := by
  intro register listed cell inside
  have implements := reachable.implements accepted
  obtain ⟨planned, member, kept⟩ := exists_of_mem_right implements.registers listed
  exact kept.above_le (accepted.sound planned member) cell inside

theorem act_eq_of_alike {first second : Action} (alike : first.Alike layout.dataWidth second) :
    machine.act first = machine.act second := by
  cases alike with
  | same action => rfl
  | cycle alike =>
    have same := Machine.cycle_eq_of_alike accepted.eight_dvd_dataWidth
      (reachable.above_le accepted) alike
    unfold Machine.act
    dsimp only
    rw [same]

/-- Runs of alike actions are seen to do the same, and do so. -/
theorem run_eq_of_alike {first second : List Action}
    (alike : List.Forall₂ (Action.Alike layout.dataWidth) first second) :
    machine.run first = machine.run second ∧ machine.after first = machine.after second := by
  induction alike generalizing machine with
  | nil => exact ⟨rfl, rfl⟩
  | @cons action other rest rest' alike _ ih =>
    have same := reachable.act_eq_of_alike accepted alike
    have later := ih (reachable.act action)
    unfold Machine.run
    rw [Machine.after_cons, Machine.after_cons, ← same]
    exact ⟨congrArg (List.cons _) later.1, later.2⟩

end Machine.Reachable

/-- **What a write does not select never matters.**  In every state, two writes to
one address that select the same bytes of the bus and bring the same there make
for the same trace and the same machine, whether something is read beside them or
not; and so do whole runs that differ in nothing else. -/
theorem unselected_ignored :
    ∃ machine, layout.buildMachine = .ok (some (machine, protocol)) ∧
      (∀ actions first second, first.Alike layout.dataWidth second →
        (machine.after actions).cycle first = (machine.after actions).cycle second) ∧
      ∀ first second, List.Forall₂ (Action.Alike layout.dataWidth) first second →
        machine.run first = machine.run second ∧ machine.after first = machine.after second := by
  have built := Machine.Reachable.built accepted.buildMachine
  refine ⟨_, accepted.buildMachine, ?_, ?_⟩
  · intro actions first second alike
    exact Machine.cycle_eq_of_alike accepted.eight_dvd_dataWidth
      ((built.after actions).above_le accepted) alike
  · exact fun first second alike => built.run_eq_of_alike accepted alike

end Accepted

/-- The second byte of the mask is written beside a read of the key, and once more
with a strobe beyond the bus and with other data in all other bytes. -/
theorem unselected_ignored_interrupts :
    Request.Alike 32 (.writeRead 0 0xabcdef 0b10 4) (.writeRead 0 0x123400cd56 0b10010 4) ∧
      ∃ machine, interruptLayout.buildMachine = .ok (some (machine, .apb)) ∧
        machine.cycle (.writeRead 0 0xabcdef 0b10 4) =
          machine.cycle (.writeRead 0 0x123400cd56 0b10010 4) ∧
        (machine.cycle (.writeRead 0 0x123400cd56 0b10010 4)).2.output? "irq" "mask" =
          some 0xfc := by
  have alike : Request.Alike 32 (.writeRead 0 0xabcdef 0b10 4)
      (.writeRead 0 0x123400cd56 0b10010 4) :=
    .writeRead { address := rfl, strobe := by decide, data := by decide }
  obtain ⟨machine, built, same, -⟩ := unselected_ignored accepted_interrupts
  refine ⟨alike, machine, built, same [] _ _ alike, ?_⟩
  rw [accepted_interrupts.buildMachine] at built
  cases built
  rfl

end RegisterBank.Bank
