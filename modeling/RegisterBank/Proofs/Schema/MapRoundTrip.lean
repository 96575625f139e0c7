import RegisterBank.Proofs.Construction.Maps
import RegisterBank.Proofs.Document.RoundTrip
import RegisterBank.Proofs.Results
import RegisterBank.Proofs.Text.Integers
import RegisterBank.Schema.MapDocument

/-!
# Register maps read back

Reading a written map makes the same calls that built it, but in an order of
its own: a field gets its initial value before its modifiers, and the modifiers
come all at once.
-/

namespace RegisterBank.Schema

open RegisterBank.Document

/-! ## Sorted trees -/

theorem sorted_intTree (value : Nat) : (intTree value).sorted = intTree value := by
  unfold intTree
  split
  · rfl
  · rfl

/-- The entries of a field in key order. -/
theorem sorted_fieldTree (field : Field) : (fieldTree field).sorted =
    .table
      [("access", .text field.access.word), ("description", .text field.description),
        ("initial", intTree field.initial), ("lsb", .int field.bits.lsb),
        ("modifiers", .list (field.modifiers.words.map .text)), ("name", .text field.name),
        ("width", .int field.bits.width)] := by
  show Tree.ofEntries
    [("name", .text field.name), ("description", .text field.description),
      ("lsb", .int field.bits.lsb), ("width", .int field.bits.width),
      ("access", .text field.access.word), ("initial", (intTree field.initial).sorted),
      ("modifiers", .list (sortedItems (field.modifiers.words.map .text)))] = _
  rw [sorted_intTree, sortedItems_map_text]
  simp [Tree.ofEntries, insertEntry, Text.order, Text.orderChars]

/-- The entries of a register in key order, the address only where there is
one. -/
theorem sorted_registerTree (register : Register) : (registerTree register).sorted =
    .table
      ((match register.address with
        | some address => [("address", intTree address)]
        | none => []) ++
        [("bitfields", .list (register.fields.map fun field => (fieldTree field).sorted)),
          ("description", .text register.description), ("name", .text register.name)]) := by
  have fields : sortedItems (register.fields.map fieldTree) =
      register.fields.map fun field => (fieldTree field).sorted := by
    rw [sortedItems_eq_map, List.map_map]
    rfl
  unfold registerTree
  cases register.address with
  | none =>
    show Tree.ofEntries
      [("name", .text register.name), ("description", .text register.description),
        ("bitfields", .list (sortedItems (register.fields.map fieldTree)))] = _
    rw [fields]
    simp [Tree.ofEntries, insertEntry, Text.order, Text.orderChars]
  | some address =>
    show Tree.ofEntries
      [("name", .text register.name), ("description", .text register.description),
        ("address", (intTree address).sorted),
        ("bitfields", .list (sortedItems (register.fields.map fieldTree)))] = _
    rw [sorted_intTree, fields]
    simp [Tree.ofEntries, insertEntry, Text.order, Text.orderChars]

/-! ## Integers and modifiers -/

/-- An integer is read back from a number and from hexadecimal text alike. -/
theorem unsigned?_intTree {value : Nat} (small : value < Text.integerLimit) :
    unsigned? (intTree value) = some value := by
  unfold intTree
  by_cases short : value < Nat.pow 2 63
  · rw [if_pos short]
    rfl
  · rw [if_neg short]
    unfold unsigned?
    exact Text.integer?_hexPlain small

theorem expectUnsigned_intTree (place : Place) {value : Nat} (small : value < Text.integerLimit) :
    expectUnsigned place (intTree value) = .ok value := by
  have read := unsigned?_intTree small
  unfold expectUnsigned
  split
  · rw [read]
  · rw [read]
  · rw [read]
  · rename_i noInt noFloat noText
    unfold intTree at noInt noText
    by_cases short : value < Nat.pow 2 63
    · rw [if_pos short] at noInt
      exact absurd rfl (noInt value)
    · rw [if_neg short] at noText
      exact absurd rfl (noText _)

/-- Bit positions and widths are below 2^32 and written as numbers. -/
theorem expectSmall_int (place : Place) {value : Nat} (small : value < 2 ^ 32) :
    expectSmall place (.int value) = .ok value := by
  have read : expectUnsigned place (.int value) = .ok value := rfl
  unfold expectSmall
  rw [read]
  exact if_pos small

theorem ofWord?_access (access : Access) : Access.ofWord? access.word = some access := by
  cases access <;> decide

theorem ofWord?_modifier (modifier : Modifier) : Modifier.ofWord? modifier.word = some modifier := by
  cases modifier <;> decide

/-- Modifiers are read back from their words. -/
theorem readModifiers_map_word (base : Place) (index : Nat) (modifiers : List Modifier) :
    readModifiers base index ((modifiers.map Modifier.word).map .text) = .ok modifiers := by
  induction modifiers generalizing index with
  | nil => rfl
  | cons modifier rest ih =>
    rw [List.map_cons, List.map_cons, readModifiers]
    simp only [expectText, ok_bind, ofWord?_modifier, orConfigError, ih]
    rfl

/-- The listed modifiers of a set make up the set. -/
theorem insertAll_toList (modifiers : Modifiers) :
    Modifiers.none.insertAll modifiers.toList = modifiers :=
  Modifiers.none_insertAll_eq_iff.mpr fun _ => Modifiers.mem_toList_iff.symm

/-! ## Fields -/

section Fields

variable {field : Field}

/-- The name, bits and access of a valid field make a field. -/
theorem make_field (valid : field.Valid) :
    Field.make field.name field.bits.lsb field.bits.width field.access =
      .ok ⟨field.name, "", field.bits, field.access, 0, .none⟩ :=
  Field.make_eq_ok_iff.mpr ⟨valid.name, valid.width_pos, valid.above_le, rfl⟩

/-- Without modifiers, an initial value only has to fit. -/
theorem withInitial_field (valid : field.Valid) :
    Field.withInitial ⟨field.name, field.description, field.bits, field.access, 0, .none⟩
        field.initial =
      .ok ⟨field.name, field.description, field.bits, field.access, field.initial, .none⟩ := by
  have bare (modifier : Modifier) : Modifiers.none.has modifier = false := by
    cases modifier <;> rfl
  have rules : Field.problem?
      ⟨field.name, field.description, field.bits, field.access, field.initial, .none⟩ = none := by
    refine (Field.problem?_eq_none_iff ?_).mpr ⟨valid.initial_lt, ?_, ?_, ?_⟩
    · exact valid.width_le
    · intro modifier has
      rw [Field.has, bare] at has
      cases has
    · intro pair listed has
      rw [Field.has, bare] at has
      cases has.1
    · intro reverts
      cases reverts
  exact Field.checked_eq_ok_iff.mpr ⟨rfl, rules⟩

/-- Adding the modifiers of a valid field at once is accepted, with its initial
value in place. -/
theorem withModifiers_field (valid : field.Valid) :
    Field.withModifiers
        ⟨field.name, field.description, field.bits, field.access, field.initial, .none⟩
        field.modifiers.toList = .ok field := by
  unfold Field.withModifiers
  rw [insertAll_toList]
  exact Field.checked_eq_ok_iff.mpr ⟨rfl, valid.problem?_eq_none⟩

/-- A written field is read by the calls above, in their order. -/
theorem readField_sorted (valid : field.Valid) (base : Place) (index : Nat) :
    readField base index (fieldTree field).sorted = .ok field := by
  have above := valid.above_le
  have narrow := valid.width_le
  unfold BitRange.above Bits.wordWidth at above
  unfold Bits.wordWidth at narrow
  have lsb (place : Place) : expectSmall place (.int field.bits.lsb) = .ok field.bits.lsb :=
    expectSmall_int place (by omega)
  have width (place : Place) : expectSmall place (.int field.bits.width) = .ok field.bits.width :=
    expectSmall_int place (by omega)
  have initial (place : Place) :
      expectUnsigned place (intTree field.initial) = .ok field.initial :=
    expectUnsigned_intTree place
      (Nat.lt_of_lt_of_le valid.initial_lt (Nat.pow_le_pow_right (by decide) narrow))
  have modifiers (base : Place) :
      readModifiers base 0 (field.modifiers.words.map .text) = .ok field.modifiers.toList :=
    readModifiers_map_word base 0 field.modifiers.toList
  rw [sorted_fieldTree]
  unfold readField
  simp [ok_bind, expectTable, checkKeys, fieldKeys, required, lookup?, expectText, expectList,
    readDescription, orConfigError, lsb, width, ofWord?_access, make_field valid,
    Field.withDescription, initial, withInitial_field valid, modifiers, withModifiers_field valid]

end Fields

/-! ## Registers -/

section Registers

variable {register : Register}

/-- The fields that follow `before` in a valid register are read and added. -/
theorem readFields_sorted (valid : register.Valid) (base : Place) (index : Nat)
    {before rest : List Field} (split : register.fields = before ++ rest) :
    readFields base { register with fields := before } index
      (rest.map fun field => (fieldTree field).sorted) = .ok register := by
  induction rest generalizing index before with
  | nil =>
    rw [List.append_nil] at split
    rw [List.map_nil, readFields, ← split]
  | cons field rest ih =>
    have listed : field ∈ register.fields := by rw [split]; simp
    have onward : register.fields = (before ++ [field]) ++ rest := by
      rw [split, List.append_assoc]
      rfl
    rw [List.map_cons, readFields, readField_sorted (valid.fields field listed), ok_bind,
      valid.addField_prefix split, ok_bind]
    exact ih (index + 1) onward

/-- A register is read back from the tree that it is written to. -/
theorem readRegister_sorted (valid : register.Valid) {config : Configuration}
    (narrow : config.addressWidth ≤ 32) (allowed : register.Allowed config) (index : Nat) :
    readRegister index (registerTree register).sorted = .ok register := by
  have made : Register.make register.name = .ok ⟨register.name, "", none, []⟩ :=
    Register.make_eq_ok_iff.mpr ⟨valid.name, rfl⟩
  have fields (base : Place) : readFields base { register with fields := [] } 0
      (register.fields.map fun field => (fieldTree field).sorted) = .ok register :=
    readFields_sorted valid base 0 rfl
  rw [sorted_registerTree]
  unfold readRegister
  cases given : register.address with
  | none =>
    rw [given] at fields
    simp [ok_bind, expectTable, checkKeys, registerKeys, required, lookup?, expectText, expectList,
      readDescription, made, Register.withDescription, fields]
  | some address =>
    have small : address < Text.integerLimit :=
      Nat.lt_of_lt_of_le (allowed.address_lt address given)
        (Nat.pow_le_pow_right (by decide) (by omega))
    rw [given] at fields
    simp [ok_bind, expectTable, checkKeys, registerKeys, required, lookup?, expectText, expectList,
      readDescription, made, Register.withDescription, Register.withAddress,
      expectUnsigned_intTree _ small, fields]

end Registers

/-! ## Maps -/

section Maps

variable {map : RegisterMap}

/-- The registers that follow `before` in a valid map are read and added. -/
theorem readRegisters_sorted (valid : map.Valid) (index : Nat) {before rest : List Register}
    (split : map.registers = before ++ rest) :
    readRegisters ⟨map.config, before⟩ index
      (rest.map fun register => (registerTree register).sorted) = (map, .ok ()) := by
  induction rest generalizing index before with
  | nil =>
    rw [List.append_nil] at split
    rw [List.map_nil, readRegisters, ← split]
  | cons register rest ih =>
    have listed : register ∈ map.registers := by rw [split]; simp
    have onward : map.registers = (before ++ [register]) ++ rest := by
      rw [split, List.append_assoc]
      rfl
    rw [List.map_cons, readRegisters,
      readRegister_sorted (valid.registers register listed) valid.config.addressWidth.2
        (valid.allowed register listed),
      ok_bind, valid.addRegister_prefix split]
    exact ih (index + 1) onward

/-- Sorting keeps the order of registers and of fields. -/
theorem sorted_mapTree (map : RegisterMap) : (mapTree map).sorted =
    .table [(registersKey,
      .list (map.registers.map fun register => (registerTree register).sorted))] := by
  show Tree.ofEntries
    [(registersKey, .list (sortedItems (map.registers.map registerTree)))] = _
  rw [sortedItems_eq_map, List.map_map]
  rfl

/-- The tree of a valid map, as a reader lists it, describes the map. -/
theorem readMapTree_sorted (valid : map.Valid) (document : String) :
    readMapTree document map.config (mapTree map).sorted = (map, .ok ()) := by
  have read := readRegisters_sorted valid 0 (List.nil_append map.registers).symm
  rw [sorted_mapTree]
  unfold readMapTree RegisterMap.empty
  simp [ok_bind, expectTable, checkKeys, lookup?, expectList, read]

/-! ## Where the tables of written maps stand -/

/-- The keys of all tables of a register map can be written as they stand. -/
theorem bare_keys : ∀ key ∈ registersKey :: registerKeys ++ fieldKeys, IsBare key := by
  have checked : (registersKey :: registerKeys ++ fieldKeys).all
      (fun key => decide (IsBare key)) = true := by decide
  intro key listed
  exact of_decide_eq_true (List.all_eq_true.mp checked key listed)

theorem inline_intTree (value : Nat) : (intTree value).Inline := by
  unfold intTree
  by_cases short : value < Nat.pow 2 63
  · rw [if_pos short]
    exact .int short
  · rw [if_neg short]
    exact .text _

theorem inline_texts (words : List String) : (Tree.list (words.map .text)).Inline := by
  refine .list ?_
  intro item listed
  obtain ⟨word, -, rfl⟩ := List.mem_map.mp listed
  exact .text word

theorem placed_fieldTree {field : Field} (valid : field.Valid) : (fieldTree field).Placed := by
  have above := valid.above_le
  unfold BitRange.above Bits.wordWidth at above
  have wide : ∀ {count : Nat}, count ≤ 64 → count < Nat.pow 2 63 := by
    intro count few
    exact Nat.lt_of_le_of_lt few (by decide)
  refine .table (.of_keys fieldKeys rfl ?_ (by decide)) ?_
  · intro key listed
    exact bare_keys key (List.mem_append_right _ listed)
  · intro entry listed
    simp only [List.mem_cons, List.not_mem_nil, or_false] at listed
    rcases listed with rfl | rfl | rfl | rfl | rfl | rfl | rfl
    · exact .inline (.text _)
    · exact .inline (.text _)
    · exact .inline (.int (wide (by omega)))
    · exact .inline (.int (wide (by omega)))
    · exact .inline (.text _)
    · exact .inline (inline_intTree _)
    · exact .inline (inline_texts _)

theorem placed_fields {fields : List Field} (valid : ∀ field ∈ fields, field.Valid) :
    (Tree.list (fields.map fieldTree)).Placed := by
  refine placed_tables ?_
  intro item listed
  obtain ⟨field, declared, rfl⟩ := List.mem_map.mp listed
  exact ⟨rfl, placed_fieldTree (valid field declared)⟩

theorem placed_registerTree {register : Register} (valid : register.Valid) :
    (registerTree register).Placed := by
  have bare : ∀ key ∈ registerKeys, IsBare key := fun key listed =>
    bare_keys key (List.mem_append_left _ (List.mem_cons_of_mem _ listed))
  have fields := placed_fields valid.fields
  unfold registerTree
  cases register.address with
  | none =>
    refine .table (.of_keys ["name", "description", "bitfields"] rfl ?_ (by decide)) ?_
    · intro key listed
      simp only [List.mem_cons, List.not_mem_nil, or_false] at listed
      rcases listed with rfl | rfl | rfl <;> exact bare _ (by decide)
    · intro entry listed
      simp only [List.append_nil, List.cons_append, List.nil_append, List.mem_cons,
        List.not_mem_nil, or_false] at listed
      rcases listed with rfl | rfl | rfl
      · exact .inline (.text _)
      · exact .inline (.text _)
      · exact fields
  | some address =>
    refine .table (.of_keys registerKeys rfl bare (by decide)) ?_
    intro entry listed
    simp only [List.cons_append, List.nil_append, List.mem_cons, List.not_mem_nil,
      or_false] at listed
    rcases listed with rfl | rfl | rfl | rfl
    · exact .inline (.text _)
    · exact .inline (.text _)
    · exact .inline (inline_intTree address)
    · exact fields

/-- A map's tree has the shape that both formats can write. -/
theorem placed_mapTree (valid : map.Valid) : (mapTree map).Placed := by
  refine .table (.of_keys [registersKey] rfl ?_ (by decide)) ?_
  · intro key listed
    rw [List.mem_singleton.mp listed]
    exact bare_keys _ List.mem_cons_self
  · intro entry listed
    rw [List.mem_singleton.mp listed]
    refine placed_tables ?_
    intro item member
    obtain ⟨register, declared, rfl⟩ := List.mem_map.mp member
    exact ⟨rfl, placed_registerTree (valid.registers register declared)⟩

/-! ## How deep written maps are -/

theorem depth_intTree (value : Nat) : (intTree value).depth = 0 := by
  unfold intTree
  by_cases short : value < Nat.pow 2 63
  · rw [if_pos short]
    rfl
  · rw [if_neg short]
    rfl

theorem depth_texts (words : List String) : itemsDepth (words.map .text) = 0 := by
  refine Nat.le_zero.mp (itemsDepth_le_of_forall ?_)
  intro item listed
  obtain ⟨word, -, rfl⟩ := List.mem_map.mp listed
  exact Nat.le_refl 0

theorem depth_fieldTree (field : Field) : (fieldTree field).depth = 2 := by
  unfold fieldTree
  simp only [Tree.depth, entriesDepth, depth_intTree, depth_texts]
  rfl

theorem depth_registerTree_le (register : Register) : (registerTree register).depth ≤ 4 := by
  have fields : itemsDepth (register.fields.map fieldTree) ≤ 2 := by
    refine itemsDepth_le_of_forall ?_
    intro item listed
    obtain ⟨field, -, rfl⟩ := List.mem_map.mp listed
    exact Nat.le_of_eq (depth_fieldTree field)
  unfold registerTree
  cases register.address with
  | none =>
    simp only [Tree.depth, entriesDepth, List.append_nil, List.cons_append, List.nil_append]
    omega
  | some address =>
    simp only [Tree.depth, entriesDepth, List.cons_append, List.nil_append, depth_intTree]
    omega

/-- A map's tree has lists of registers, of fields and of modifiers. -/
theorem depth_mapTree_le (map : RegisterMap) : (mapTree map).depth ≤ 6 := by
  have registers : itemsDepth (map.registers.map registerTree) ≤ 4 := by
    refine itemsDepth_le_of_forall ?_
    intro item listed
    obtain ⟨register, -, rfl⟩ := List.mem_map.mp listed
    exact depth_registerTree_le register
  unfold mapTree
  simp only [Tree.depth, entriesDepth]
  omega

/-- What is written for a valid map is a document, with which a faithful codec
is trusted. -/
theorem isDocument_mapTree (valid : map.Valid) : (mapTree map).IsDocument where
  table := rfl
  placed := placed_mapTree valid
  shallow := depth_mapTree_le map

/-! ## Round trips -/

/-- What any codec gives back as the sorted tree of a valid map describes the map. -/
theorem readMap_of_read {codec : Codec} {format : Format} {text : String} (valid : map.Valid)
    (read : codec.read format text = .ok (mapTree map).sorted) (document : String) :
    readMap codec format text document map.config = .ok map := by
  unfold readMap readTree
  rw [read]
  simp only [ok_bind, readMapTree_sorted valid document]
  rfl

/-- **A register map is read back from its document.**  A map that was built is
made of values that every format holds, its tree describes it again, and a
faithful codec writes the map and reads it from the text. -/
theorem readMap_writeMap (built : map.Built) {codec : Codec} (faithful : codec.Faithful)
    (format : Format) (document : String) :
    (mapTree map).Plain ∧ readMapTree document map.config (mapTree map).sorted = (map, .ok ()) ∧
      ∃ text, writeMap codec format map = .ok text ∧
        readMap codec format text document map.config = .ok map := by
  have valid := built.valid
  obtain ⟨text, rendered, read⟩ := faithful.render format (isDocument_mapTree valid)
  have written : writeMap codec format map = .ok text := by
    unfold writeMap renderTree
    rw [rendered]
    rfl
  refine ⟨plain_of_placed (placed_mapTree valid), readMapTree_sorted valid document, text, written, ?_⟩
  exact readMap_of_read valid read document

/-- The starter map goes to TOML and back. -/
theorem readMap_writeMap_starter : Codec.standard.Faithful ∧
    ∃ map, RegisterMap.template Configuration.default = .ok map ∧ map.Built ∧
      map.registers.length = 2 ∧
      ∃ text, writeMap .standard .toml map = .ok text ∧
        readMap .standard .toml text "map.toml" map.config = .ok map := by
  obtain ⟨map, made, two⟩ : ∃ map, RegisterMap.template Configuration.default = .ok map ∧
    map.registers.length = 2 := ⟨_, rfl, rfl⟩
  have built := RegisterMap.built_of_template .default made
  have faithful := Codec.faithful_standard
  obtain ⟨-, -, back⟩ := readMap_writeMap built faithful .toml "map.toml"
  exact ⟨faithful, map, made, built, two, back⟩

end Maps

end RegisterBank.Schema
