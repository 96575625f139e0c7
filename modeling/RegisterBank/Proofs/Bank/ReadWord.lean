import RegisterBank.Proofs.Bank.Invariant
import RegisterBank.Proofs.Bank.Segments

/-!
# Read words

A machine builds a read word by inserting its fields into the filler in the
order of their declaration; the hardware description puts segments side by
side.  Both words are compared bit by bit: every bit that a readable field
covers comes from that field, since no other field covers it, and every other
bit comes from the filler.
-/

namespace RegisterBank.Bank

/-! ## Inserted fields -/

/-- A word into which cells are inserted one after the other shows each of them
where it lies, and itself where none does. -/
theorem testBit_foldl_insert {cells : List Cell}
    (bounded : ∀ cell ∈ cells, cell.readValue < 2 ^ cell.bits.width)
    (narrow : ∀ cell ∈ cells, cell.bits.width ≤ Bits.wordWidth)
    (apart : cells.Pairwise fun cell other => cell.bits.Apart other.bits) (word i : Nat) :
    (∀ cell ∈ cells, cell.bits.Covers i →
      (cells.foldl
        (fun word cell => Bits.insert word cell.readValue cell.bits.lsb cell.bits.width)
        word).testBit i = cell.readValue.testBit (i - cell.bits.lsb)) ∧
    ((∀ cell ∈ cells, ¬ cell.bits.Covers i) →
      (cells.foldl
        (fun word cell => Bits.insert word cell.readValue cell.bits.lsb cell.bits.width)
        word).testBit i = word.testBit i) := by
  induction cells generalizing word with
  | nil =>
    constructor
    · intro cell listed
      cases listed
    · intro _
      rfl
  | cons first rest ih =>
    obtain ⟨away, apart⟩ := List.pairwise_cons.mp apart
    obtain ⟨inside, outside⟩ := ih
      (fun cell listed => bounded cell (List.mem_cons_of_mem _ listed))
      (fun cell listed => narrow cell (List.mem_cons_of_mem _ listed)) apart
      (Bits.insert word first.readValue first.bits.lsb first.bits.width)
    have inserted := Bits.testBit_insert (bounded first List.mem_cons_self)
      (narrow first List.mem_cons_self) word first.bits.lsb i
    rw [List.foldl_cons]
    constructor
    · intro cell listed covers
      rcases List.mem_cons.mp listed with rfl | behind
      · -- No later cell touches the bit again.
        have untouched := outside fun other later => (away other later).not_covers covers
        rw [untouched, inserted]
        exact if_pos covers
      · exact inside cell behind covers
    · intro none
      rw [outside fun cell listed => none cell (List.mem_cons_of_mem _ listed), inserted]
      exact if_neg (none first List.mem_cons_self)

theorem foldl_insert_lt {cells : List Cell} {total : Nat}
    (bounded : ∀ cell ∈ cells, cell.readValue < 2 ^ cell.bits.width)
    (inside : ∀ cell ∈ cells, cell.bits.above ≤ total) (narrow : total ≤ Bits.wordWidth)
    {word : Nat} (small : word < 2 ^ total) :
    cells.foldl (fun word cell => Bits.insert word cell.readValue cell.bits.lsb cell.bits.width)
      word < 2 ^ total := by
  induction cells generalizing word with
  | nil => exact small
  | cons first rest ih =>
    have above := inside first List.mem_cons_self
    unfold BitRange.above at above
    exact ih (fun cell listed => bounded cell (List.mem_cons_of_mem _ listed))
      (fun cell listed => inside cell (List.mem_cons_of_mem _ listed))
      (Bits.insert_lt (by omega) small (bounded first List.mem_cons_self) above)

/-! ## The value of a field -/

/-- A field is looked for in the register of the name. -/
theorem Machine.cell?_eq {machine : Machine} {register : String} {found : RegisterCell}
    (here : machine.registers.find? (fun other => other.name == register) = some found)
    (field : String) :
    machine.cell? register field = found.cells.find? fun cell => cell.name == field := by
  unfold Machine.cell?
  rw [here]
  rfl

/-- What a read of a field gives, which is found by its names. -/
def Machine.fieldValue (machine : Machine) (register : RegisterPlan) (field : FieldPlan) : Nat :=
  ((machine.cell? register.name field.field.name).map Cell.readValue).getD 0

namespace Machine.Implements

variable {plan : Plan} {dataWidth readFiller : Nat} {machine : Machine} {register : RegisterPlan}

theorem names_eq (implements : machine.Implements plan dataWidth readFiller) :
    machine.registers.map RegisterCell.name = plan.registers.map RegisterPlan.name :=
  map_eq_of_forall₂ (fun _ _ kept => kept.name) implements.registers

/-- The register of a machine that a name or an address leads to. -/
theorem exists_register (implements : machine.Implements plan dataWidth readFiller)
    (names : (plan.registers.map RegisterPlan.name).Nodup)
    (addresses : (plan.registers.map fun register => register.placed.address).Nodup)
    (listed : register ∈ plan.registers) :
    ∃ found : RegisterCell, found.Implements register ∧
      machine.registers.find? (fun other => other.name == register.name) = some found ∧
      machine.registers.find? (fun other => other.address == register.placed.address) =
        some found := by
  obtain ⟨named, byName, kept⟩ :=
    find?_of_forall₂ (fun _ _ kept => kept.name) implements.registers names listed
  obtain ⟨found, byAddress, kept'⟩ :=
    find?_of_forall₂ (fun _ _ kept => kept.address) implements.registers addresses listed
  have distinct : (machine.registers.map RegisterCell.name).Nodup := by
    rw [implements.names_eq]
    exact names
  have same : named = found :=
    List.inj_on_of_nodup_map distinct (List.mem_of_find?_eq_some byName)
      (List.mem_of_find?_eq_some byAddress) (kept.name.trans kept'.name.symm)
  subst same
  exact ⟨named, kept, byName, byAddress⟩

/-- Where no register is, a read gives the filler. -/
theorem readWord_of_missing (implements : machine.Implements plan dataWidth readFiller)
    {address : Nat} (missing : ∀ register ∈ plan.registers, register.placed.address ≠ address) :
    machine.readWord address = readFiller := by
  unfold Machine.readWord
  rw [find?_eq_none_of_forall₂ (fun _ _ kept => kept.address) implements.registers missing]
  exact implements.readFiller

/-- The value of a field is that of the one cell which stands for it. -/
theorem exists_cell {found : RegisterCell} (kept : found.Implements register)
    (byName : machine.registers.find? (fun other => other.name == register.name) = some found)
    (names : (register.fields.map fun field => field.field.name).Nodup) {field : FieldPlan}
    (declared : field ∈ register.fields) :
    ∃ cell ∈ found.cells, cell.Implements field ∧
      machine.fieldValue register field = cell.readValue := by
  obtain ⟨cell, here, implements⟩ :=
    find?_of_forall₂ (fun _ _ kept => kept.name) kept.cells names declared
  refine ⟨cell, List.mem_of_find?_eq_some here, implements, ?_⟩
  have reached : machine.cell? register.name field.field.name = some cell :=
    (Machine.cell?_eq byName _).trans here
  unfold Machine.fieldValue
  rw [reached]
  rfl

end Machine.Implements

/-! ## The word of a register -/

namespace RegisterCell.Implements

variable {register : RegisterPlan} {found : RegisterCell} {dataWidth : Nat}

theorem above_le (kept : found.Implements register) (sound : register.Sound dataWidth) :
    ∀ cell ∈ found.cells, cell.bits.above ≤ dataWidth := by
  intro cell listed
  rcases exists_of_mem_right kept.cells listed with ⟨field, declared, implements⟩
  rw [implements.bits]
  exact (sound.fields field declared).above_le

theorem readValue_lt (kept : found.Implements register) :
    ∀ cell ∈ found.cells, cell.readValue < 2 ^ cell.bits.width := by
  intro cell listed
  rcases exists_of_mem_right kept.cells listed with ⟨field, declared, implements⟩
  exact implements.readValue_lt

theorem apart (kept : found.Implements register) (sound : register.Sound dataWidth) :
    found.cells.Pairwise fun cell other => cell.bits.Apart other.bits := by
  refine pairwise_of_forall₂ ?_ kept.cells sound.apart
  intro field cell field' cell' implements implements' apart
  rw [implements.bits, implements'.bits]
  exact apart.2

theorem readWord_lt (kept : found.Implements register) (sound : register.Sound dataWidth)
    (narrow : dataWidth ≤ Bits.wordWidth) {filler : Nat} (small : filler < 2 ^ dataWidth) :
    found.readWord filler < 2 ^ dataWidth := by
  refine foldl_insert_lt ?_ ?_ narrow small
  · exact fun cell listed => kept.readValue_lt cell (List.mem_filter.mp listed).1
  · exact fun cell listed => kept.above_le sound cell (List.mem_filter.mp listed).1

/-- Bit by bit, the word is that of the readable fields over the filler. -/
theorem testBit_readWord (kept : found.Implements register) (sound : register.Sound dataWidth)
    (narrow : dataWidth ≤ Bits.wordWidth) (filler i : Nat) :
    (∀ cell ∈ found.cells, cell.isReadable = true → cell.bits.Covers i →
      (found.readWord filler).testBit i = cell.readValue.testBit (i - cell.bits.lsb)) ∧
    ((∀ cell ∈ found.cells, cell.isReadable = true → ¬ cell.bits.Covers i) →
      (found.readWord filler).testBit i = filler.testBit i) := by
  have bits := @testBit_foldl_insert (found.cells.filter Cell.isReadable)
    (fun cell listed => kept.readValue_lt cell (List.mem_filter.mp listed).1)
    (by
      intro cell listed
      have above := kept.above_le sound cell (List.mem_filter.mp listed).1
      unfold BitRange.above at above
      omega)
    ((kept.apart sound).filter _) filler i
  constructor
  · intro cell listed readable covers
    exact bits.1 cell (List.mem_filter.mpr ⟨listed, readable⟩) covers
  · intro none
    refine bits.2 ?_
    intro cell listed
    obtain ⟨member, readable⟩ := List.mem_filter.mp listed
    exact none cell member readable

end RegisterCell.Implements

/-! ## Both ways of reading -/

/-- What reading a register of a bank gives. -/
structure ReadsRegister (layout : Layout) (machine : Machine) (register : RegisterPlan) :
    Prop where
  tiles : Tiles layout.dataWidth (register.readSegments layout.dataWidth)
  widths : ((register.readSegments layout.dataWidth).map fun segment =>
    segment.bits.width).sum = layout.dataWidth
  /-- The segments side by side are the machine's word. -/
  concatenated : concatenate
      (Segment.value (machine.fieldValue register) layout.config.readFiller)
      (register.readSegments layout.dataWidth) =
    machine.readWord register.placed.address
  covered : ∀ i < layout.dataWidth, ∀ field ∈ register.fields, readsBack field.field = true →
    field.field.bits.Covers i →
    (machine.readWord register.placed.address).testBit i =
      (machine.fieldValue register field).testBit (i - field.field.bits.lsb)
  uncovered : ∀ i < layout.dataWidth,
    (∀ field ∈ register.fields, readsBack field.field = true → ¬ field.field.bits.Covers i) →
    (machine.readWord register.placed.address).testBit i = layout.config.readFiller.testBit i

section Read

variable {map : RegisterMap} {layout : Layout} {protocol : Bus.Protocol} {plan : Plan}
  {machine : Machine}

theorem RegisterPlan.Sound.tiles {register : RegisterPlan} {dataWidth : Nat}
    (sound : register.Sound dataWidth) : Tiles dataWidth (register.readSegments dataWidth) := by
  refine RegisterPlan.tiles_segmentsBelow ?_ ?_ ?_
  · intro field listed
    have member := (RegisterPlan.mem_readableFields_iff.mp listed).1
    exact (sound.fields field member).valid.width_pos
  · intro field listed
    have member := (RegisterPlan.mem_readableFields_iff.mp listed).1
    exact (sound.fields field member).above_le
  · exact RegisterPlan.descending_readableFields
      (fun field member => (sound.fields field member).valid.width_pos) sound.apart

section Register

variable (accepted : Accepted map layout protocol plan)
  (implements : machine.Implements plan layout.dataWidth layout.config.readFiller)
  {register : RegisterPlan} (listed : register ∈ plan.registers)

include accepted implements listed

/-- The machine's register at the address, whose word a read gives. -/
theorem exists_readWord : ∃ found : RegisterCell, found.Implements register ∧
    machine.registers.find? (fun other => other.name == register.name) = some found ∧
    machine.readWord register.placed.address = found.readWord layout.config.readFiller := by
  obtain ⟨found, kept, byName, byAddress⟩ :=
    implements.exists_register accepted.names_nodup accepted.addresses_nodup listed
  refine ⟨found, kept, byName, ?_⟩
  unfold Machine.readWord
  rw [byAddress, implements.readFiller]

theorem fieldValue_lt {field : FieldPlan} (declared : field ∈ register.fields) :
    machine.fieldValue register field < 2 ^ field.field.bits.width := by
  rcases exists_readWord accepted implements listed with ⟨found, kept, byName, -⟩
  obtain ⟨cell, -, stands, value⟩ :=
    Machine.Implements.exists_cell kept byName (accepted.sound register listed).names_nodup
      declared
  rw [value, ← stands.bits]
  exact stands.readValue_lt

theorem machine_readWord_lt :
    machine.readWord register.placed.address < 2 ^ layout.dataWidth := by
  rcases exists_readWord accepted implements listed with ⟨found, kept, -, word⟩
  rw [word]
  exact kept.readWord_lt (accepted.sound register listed) accepted.dataWidth_le
    accepted.readFiller_lt

theorem testBit_readWord_covered {field : FieldPlan} (declared : field ∈ register.fields)
    (readable : readsBack field.field = true) {i : Nat} (covers : field.field.bits.Covers i) :
    (machine.readWord register.placed.address).testBit i =
      (machine.fieldValue register field).testBit (i - field.field.bits.lsb) := by
  have sound := accepted.sound register listed
  rcases exists_readWord accepted implements listed with ⟨found, kept, byName, word⟩
  obtain ⟨cell, member, stands, value⟩ :=
    Machine.Implements.exists_cell kept byName sound.names_nodup declared
  rw [word, value, ← stands.bits]
  refine (kept.testBit_readWord sound accepted.dataWidth_le _ i).1 cell member ?_ ?_
  · rw [stands.isReadable]
    exact readable
  · rw [stands.bits]
    exact covers

/-- The bits of a readable field in the word are its value. -/
theorem extract_readWord {field : FieldPlan} (declared : field ∈ register.fields)
    (readable : readsBack field.field = true) :
    Bits.extract (machine.readWord register.placed.address) field.field.bits.lsb
        field.field.bits.width =
      machine.fieldValue register field := by
  have bound := fieldValue_lt accepted implements listed declared
  have reach := ((accepted.sound register listed).fields field declared).lsb_add_width_le
  have narrow := accepted.dataWidth_le
  apply Nat.eq_of_testBit_eq
  intro i
  rw [Bits.testBit_extract, Nat.min_eq_left (by omega)]
  by_cases inside : i < field.field.bits.width
  · have covers : field.field.bits.Covers (field.field.bits.lsb + i) := by
      unfold BitRange.Covers BitRange.above
      omega
    rw [testBit_readWord_covered accepted implements listed declared readable covers,
      Nat.add_sub_cancel_left, decide_eq_true inside, Bool.and_true]
  · rw [decide_eq_false inside, Bool.and_false, Bits.testBit_of_lt bound (Nat.le_of_not_lt inside)]

theorem testBit_readWord_uncovered {i : Nat} (uncovered : ∀ field ∈ register.fields,
    readsBack field.field = true → ¬ field.field.bits.Covers i) :
    (machine.readWord register.placed.address).testBit i =
      layout.config.readFiller.testBit i := by
  have sound := accepted.sound register listed
  rcases exists_readWord accepted implements listed with ⟨found, kept, -, word⟩
  rw [word]
  refine (kept.testBit_readWord sound accepted.dataWidth_le _ i).2 ?_
  intro cell member readable
  rcases exists_of_mem_right kept.cells member with ⟨field, declared, stands⟩
  rw [stands.isReadable] at readable
  rw [stands.bits]
  exact uncovered field declared readable

/-- A bit under a filler belongs to no readable field: that field would be a
segment of its own over the same bit. -/
theorem testBit_filler {lsb width : Nat}
    (member : .filler lsb width ∈ register.readSegments layout.dataWidth) {i : Nat}
    (covers : (Segment.filler lsb width).bits.Covers i) :
    (Bits.extract layout.config.readFiller lsb width).testBit (i - lsb) =
      (machine.readWord register.placed.address).testBit i := by
  have tiles := (accepted.sound register listed).tiles
  have narrow := accepted.dataWidth_le
  have reach := tiles.above_le _ member
  rw [testBit_readWord_uncovered accepted implements listed, Bits.testBit_extract]
  · change lsb ≤ i ∧ i < lsb + width at covers
    change lsb + width ≤ layout.dataWidth at reach
    have inside : i - lsb < min width Bits.wordWidth := by omega
    have position : lsb + (i - lsb) = i := by omega
    rw [decide_eq_true inside, position, Bool.and_true]
  · intro field declared readable fieldCovers
    have segment : .field field ∈ register.readSegments layout.dataWidth :=
      RegisterPlan.mem_segmentsBelow_of_mem _
        (RegisterPlan.mem_readableFields_iff.mpr ⟨declared, readable⟩)
    have same := tiles.eq_of_covers segment member fieldCovers covers
    cases same

theorem concatenate_readSegments :
    concatenate (Segment.value (machine.fieldValue register) layout.config.readFiller)
      (register.readSegments layout.dataWidth) = machine.readWord register.placed.address := by
  have tiles := (accepted.sound register listed).tiles
  have bounded : ∀ segment ∈ register.readSegments layout.dataWidth,
      Segment.value (machine.fieldValue register) layout.config.readFiller segment
        < 2 ^ segment.bits.width := by
    intro segment member
    cases segment with
    | filler lsb width => exact Bits.extract_lt _ _ _
    | field field =>
      have readable := RegisterPlan.mem_of_mem_segmentsBelow member
      have declared := (RegisterPlan.mem_readableFields_iff.mp readable).1
      exact fieldValue_lt accepted implements listed declared
  apply Nat.eq_of_testBit_eq
  intro i
  by_cases inside : i < layout.dataWidth
  · rcases tiles.exists_covers inside with ⟨segment, member, covers⟩
    rw [tiles.testBit_concatenate bounded member covers]
    cases segment with
    | filler lsb width => exact testBit_filler accepted implements listed member covers
    | field field =>
      have readable := RegisterPlan.mem_of_mem_segmentsBelow member
      obtain ⟨declared, readsBack⟩ := RegisterPlan.mem_readableFields_iff.mp readable
      exact (testBit_readWord_covered accepted implements listed declared readsBack covers).symm
  · have high : layout.dataWidth ≤ i := Nat.le_of_not_lt inside
    rw [Bits.testBit_of_lt (tiles.concatenate_lt bounded) high,
      Bits.testBit_of_lt (machine_readWord_lt accepted implements listed) high]

end Register

/-- **Both ways of reading a register agree, bit by bit**, in every state that
the machine of an accepted layout comes to; where no register is, a read gives
the filler. -/
theorem readWord_eq_segments (accepted : Accepted map layout protocol plan)
    (reachable : machine.Reachable layout) :
    (∀ register ∈ plan.registers, ReadsRegister layout machine register) ∧
    (∀ address, (∀ register ∈ plan.registers, register.placed.address ≠ address) →
      machine.readWord address = layout.config.readFiller) := by
  have implements := reachable.implements accepted
  constructor
  · intro register listed
    have tiles := (accepted.sound register listed).tiles
    exact
      { tiles := tiles
        widths := tiles.sum_eq
        concatenated := concatenate_readSegments accepted implements listed
        covered := fun i _ field declared readable covers =>
          testBit_readWord_covered accepted implements listed declared readable covers
        uncovered := fun i _ uncovered =>
          testBit_readWord_uncovered accepted implements listed uncovered }
  · intro address missing
    exact implements.readWord_of_missing missing

theorem readWord_eq_segments_starter :
    ∃ machine : Machine, machine.Reachable starterLayout ∧
      (∀ register ∈ (Plan.draft starterLayout).registers,
        ReadsRegister starterLayout machine register) ∧
      machine.readWord 0 = 42 ∧ machine.readWord 4 = 0xabc0000 ∧ machine.readWord 8 = 0 := by
  have driven : (Machine.make (Plan.draft starterLayout) 32 0).setInput? "eggs" "baz" 0xabc =
      some _ := rfl
  have reachable : Machine.Reachable starterLayout _ :=
    .setInput (.built accepted_starter.buildMachine) driven
  have reads := readWord_eq_segments accepted_starter reachable
  refine ⟨_, reachable, reads.1, rfl, rfl, ?_⟩
  exact reads.2 8 (by decide)

end Read

end RegisterBank.Bank
