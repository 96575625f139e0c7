import RegisterBank.Proofs.Schema.Locations
import RegisterBank.Proofs.Schema.MapReading

/-!
# Where register map documents are at fault

A document that does not follow its schema is refused at a location that is at
fault, and at the first entry of the list of registers where there is something
to refuse: cut off before that entry, the document is accepted, with the
registers that were read so far.

Each reader is gone through once, step by step.  A step that expects something
blames the location it is at (`Expects.blamed`), a step that makes or adds a
value never fails for the schema (`Unblamed`), and a reader of a list fails with
one of the items, after those before it.
-/

namespace RegisterBank.Schema

open RegisterBank.Document

/-! ## Steps that expect something -/

/-- A failure that is blamed on a location in the same register as a table. -/
def Blamed (document : String) (tree : Tree) (holder : Holder) (spot : Place)
    (problem : SchemaProblem) : Prop :=
  ∃ location : Location, location.register? = holder.register? ∧
    Blames document tree spot problem location

/-- A step that expects a kind of node fails at its own place, for the reasons of
the kind. -/
def Expects {α : Type} (kind : Kind) (expect : Place → Tree → Result α) : Prop :=
  ∀ place found error, expect place found = .error error →
    ∃ problem, error = .schema place problem ∧ kind.Refuses found problem

theorem expects_table : Expects .table expectTable := by
  intro place found error failed
  cases found with
  | table entries => cases failed
  | _ =>
    cases failed
    exact ⟨_, rfl, .wrongKind rfl⟩

theorem expects_list : Expects .list expectList := by
  intro place found error failed
  cases found with
  | list items => cases failed
  | _ =>
    cases failed
    exact ⟨_, rfl, .wrongKind rfl⟩

theorem expects_text : Expects .text expectText := by
  intro place found error failed
  cases found with
  | text value => cases failed
  | _ =>
    cases failed
    exact ⟨_, rfl, .wrongKind rfl⟩

/-- What is refused as an integer is no number and no text, or it is one that
stands for no integer. -/
theorem exists_of_expectUnsigned_error {place : Place} {found : Tree} {error : Error}
    (failed : expectUnsigned place found = .error error) :
    (Kind.integer.fits found = false ∧ error = .schema place (.wrongKind "an integer" found)) ∨
      (Kind.integer.fits found = true ∧ unsigned? found = none ∧
        error = .schema place (.notUnsigned found)) := by
  have unread : unsigned? found = none := by
    cases read : unsigned? found with
    | none => rfl
    | some value =>
      rw [expectUnsigned_eq_ok_iff.mpr read] at failed
      cases failed
  unfold expectUnsigned at failed
  rw [unread] at failed
  cases found with
  | int value =>
    cases failed
    exact .inr ⟨rfl, unread, rfl⟩
  | float value =>
    cases failed
    exact .inr ⟨rfl, unread, rfl⟩
  | text value =>
    cases failed
    exact .inr ⟨rfl, unread, rfl⟩
  | _ =>
    cases failed
    exact .inl ⟨rfl, rfl⟩

theorem expects_integer : Expects .integer expectUnsigned := by
  intro place found error failed
  rcases exists_of_expectUnsigned_error failed with ⟨wrong, rfl⟩ | ⟨fits, unread, rfl⟩
  · exact ⟨_, rfl, .wrongKind wrong⟩
  · exact ⟨_, rfl, .notUnsigned (by decide) fits unread⟩

theorem fits_small (found : Tree) : Kind.small.fits found = Kind.integer.fits found := by
  cases found <;> rfl

/-- A number of 32 bits is expected as an integer is, and refused if it is
larger. -/
theorem expects_small : Expects .small expectSmall := by
  intro place found error failed
  unfold expectSmall at failed
  cases read : expectUnsigned place found with
  | error first =>
    rw [read] at failed
    cases failed
    rcases exists_of_expectUnsigned_error read with ⟨wrong, rfl⟩ | ⟨fits, unread, rfl⟩
    · exact ⟨_, rfl, .wrongKind ((fits_small found).trans wrong)⟩
    · exact ⟨_, rfl, .notUnsigned (by decide) ((fits_small found).trans fits) unread⟩
  | ok value =>
    rw [read] at failed
    have large : ¬ value < Nat.pow 2 32 := by
      intro small
      simp only [if_pos small] at failed
      cases failed
    simp only [if_neg large] at failed
    cases failed
    exact ⟨_, rfl, .outOfRange (expectUnsigned_eq_ok_iff.mp read) (Nat.le_of_not_lt large)⟩

section Walk

variable {document : String} {tree : Tree} {place spot : Place} {problem : SchemaProblem}
  {found : Tree} {holder : Holder} {entries : List (String × Tree)}

/-- A node that is refused for its kind takes the blame. -/
theorem Expects.blamed {α : Type} {kind : Kind} {expect : Place → Tree → Result α}
    (expects : Expects kind expect) {location : Location}
    (sited : Sited document tree place location found) (expected : location.kind? = some kind)
    (within : location.register? = holder.register?)
    (failed : expect place found = .error (.schema spot problem)) :
    Blamed document tree holder spot problem := by
  obtain ⟨reason, same, refused⟩ := expects place found _ failed
  cases same
  exact ⟨location, within, sited.blames expected refused⟩

/-! ## Keys -/

/-- A key that is not allowed is blamed on the table that has it. -/
theorem blamed_of_checkKeys
    (sited : Sited document tree place (.whole holder) (.table entries))
    (failed : checkKeys place holder.allowed entries = .error (.schema spot problem)) :
    Blamed document tree holder spot problem := by
  unfold checkKeys at failed
  cases first : entries.find? fun entry => !holder.allowed.contains entry.1 with
  | none =>
    rw [first] at failed
    cases failed
  | some entry =>
    obtain ⟨key, value⟩ := entry
    rw [first] at failed
    cases failed
    have outside : key ∉ holder.allowed := by
      have unlisted := List.find?_some first
      rw [Bool.not_eq_true', List.contains_eq_mem] at unlisted
      exact of_decide_eq_false unlisted
    obtain ⟨node, given⟩ := exists_lookup?_of_mem (List.mem_of_find?_eq_some first)
    have here := sited.under given fun atRoot same =>
      outside (by rw [atRoot, same]; exact List.mem_cons_self)
    exact ⟨.under holder key, rfl, here.path, .unknown here.node outside⟩

/-- A step for a key that must be there, and what is expected under it. -/
theorem blamed_of_required {α β : Type} {kind : Kind} {expect : Place → Tree → Result α}
    (expects : Expects kind expect) (key : String) {next : α → Result β}
    (sited : Sited document tree place (.whole holder) (.table entries))
    (inner : holder ≠ .root) (needed : key ∈ holder.required)
    (expected : lookup? key holder.kinds = some kind)
    (failed : (required place key entries >>= fun found =>
      expect (place.member key) found >>= next) = .error (.schema spot problem)) :
    Blamed document tree holder spot problem ∨
      ∃ value, next value = .error (.schema spot problem) := by
  rcases exists_of_bind_eq_error failed with absent | ⟨found, given, failed⟩
  · left
    unfold required at absent
    cases given : lookup? key entries with
    | some found =>
      rw [given] at absent
      cases absent
    | none =>
      rw [given] at absent
      cases absent
      exact ⟨.whole holder, rfl, sited.path, .missing sited.node needed given⟩
  · have here := sited.under (required_eq_ok_iff.mp given) fun atRoot => absurd atRoot inner
    rcases exists_of_bind_eq_error failed with refused | ⟨value, -, failed⟩
    · exact .inl (expects.blamed here expected rfl refused)
    · exact .inr ⟨value, failed⟩

/-! ## Steps that are never blamed -/

/-- A step that does not fail for the schema. -/
def Unblamed {α : Type} (step : Result α) : Prop :=
  ∀ spot problem, step ≠ .error (.schema spot problem)

theorem unblamed_ok {α : Type} (value : α) : Unblamed (.ok value) := by
  intro spot problem same
  cases same

theorem unblamed_conflict {α : Type} (cause : Conflict) : Unblamed (conflict cause : Result α) := by
  intro spot problem same
  cases same

theorem unblamed_orConfigError {α : Type} (cause : ConfigProblem) (read : Option α) :
    Unblamed (orConfigError cause read) := by
  intro spot problem same
  cases read <;> cases same

theorem unblamed_checked (field : Field) : Unblamed field.checked := by
  unfold Field.checked
  cases field.problem? with
  | none => exact unblamed_ok field
  | some cause => exact unblamed_conflict cause

/-- Making a field refuses its values, which is no error of the schema. -/
theorem unblamed_makeField (name : String) (lsb width : Nat) (access : Access) :
    Unblamed (Field.make name lsb width access) := by
  unfold Field.make
  split
  · exact unblamed_conflict _
  split
  · exact unblamed_conflict _
  split
  · exact unblamed_conflict _
  · exact unblamed_ok _

theorem unblamed_makeRegister (name : String) : Unblamed (Register.make name) := by
  unfold Register.make
  split
  · exact unblamed_ok _
  · exact unblamed_conflict _

/-- Fields that clash are no error of the schema. -/
theorem unblamed_addField (register : Register) (added : Field) :
    Unblamed (register.addField added) := by
  unfold Register.addField
  split
  · exact unblamed_conflict _
  · exact unblamed_ok _

/-- Registers that clash are no error of the schema. -/
theorem unblamed_addRegister (map : RegisterMap) (added : Register) :
    Unblamed (map.addRegister added) := by
  unfold RegisterMap.addRegister
  split
  · exact unblamed_conflict _
  · exact unblamed_ok _

/-- Where the last of two steps is never blamed, the first of them fails. -/
theorem Unblamed.first {α β : Type} {first : Result α} {next : α → Result β}
    (unblamed : ∀ value, Unblamed (next value))
    (failed : (first >>= next) = .error (.schema spot problem)) :
    first = .error (.schema spot problem) := by
  rcases exists_of_bind_eq_error failed with here | ⟨value, -, later⟩
  · exact here
  · exact absurd later (unblamed value spot problem)

/-- Where the first of two steps is never blamed, the second fails. -/
theorem Unblamed.second {α β : Type} {first : Result α} {next : α → Result β}
    (unblamed : Unblamed first) (failed : (first >>= next) = .error (.schema spot problem)) :
    ∃ value, first = .ok value ∧ next value = .error (.schema spot problem) := by
  rcases exists_of_bind_eq_error failed with here | later
  · exact absurd here (unblamed spot problem)
  · exact later

/-! ## Modifiers and fields -/

/-- The modifiers are refused with the first of them that is. -/
theorem exists_of_readModifiers_error {base : Place} {index : Nat} {items : List Tree}
    (failed : readModifiers base index items = .error (.schema spot problem)) :
    ∃ k found, items[k]? = some found ∧
      expectText (base.entry (index + k) none) found = .error (.schema spot problem) := by
  induction items generalizing index with
  | nil => cases failed
  | cons found rest ih =>
    unfold readModifiers at failed
    rcases exists_of_bind_eq_error failed with refused | ⟨word, -, failed⟩
    · exact ⟨0, found, rfl, refused⟩
    obtain ⟨modifier, -, failed⟩ := (unblamed_orConfigError _ _).second failed
    have later := Unblamed.first (fun _ => unblamed_ok _) failed
    obtain ⟨k, item, listed, refused⟩ := ih later
    refine ⟨k + 1, item, listed, ?_⟩
    rw [← Nat.add_assoc, Nat.add_right_comm]
    exact refused

/-- A description that is no text is blamed at its key. -/
theorem blamed_of_readDescription
    (sited : Sited document tree place (.whole holder) (.table entries))
    (inner : holder ≠ .root) (expected : lookup? "description" holder.kinds = some .text)
    (failed : readDescription place entries = .error (.schema spot problem)) :
    Blamed document tree holder spot problem := by
  unfold readDescription at failed
  cases given : lookup? "description" entries with
  | none =>
    rw [given] at failed
    cases failed
  | some found =>
    rw [given] at failed
    have here := sited.under given fun atRoot => absurd atRoot inner
    exact expects_text.blamed here expected rfl failed

/-- The step of the modifiers, which is the last one. -/
theorem blamed_of_modifiers {i j : Nat} {field : Field}
    (sited : Sited document tree place (.whole (.field i j)) (.table entries))
    (failed : (match lookup? "modifiers" entries with
      | some found => do
        let items ← expectList (place.member "modifiers") found
        let modifiers ← readModifiers (place.member "modifiers") 0 items
        field.withModifiers modifiers
      | none => .ok field) = .error (.schema spot problem)) :
    Blamed document tree (.field i j) spot problem := by
  cases given : lookup? "modifiers" entries with
  | none =>
    rw [given] at failed
    cases failed
  | some found =>
    rw [given] at failed
    have here := sited.under given nofun
    rcases exists_of_bind_eq_error failed with refused | ⟨items, listing, failed⟩
    · exact expects_list.blamed here rfl rfl refused
    obtain rfl := expectList_eq_ok_iff.mp listing
    obtain ⟨k, item, listed, refused⟩ :=
      exists_of_readModifiers_error (Unblamed.first (fun _ => unblamed_checked _) failed)
    rw [Nat.zero_add] at refused
    exact expects_text.blamed (here.modifier listed) rfl rfl refused

/-- All that the schema refuses in a field is blamed inside the field. -/
theorem blamed_of_readField {i j : Nat} {base : Place} {items : List Tree}
    (sited : Sited document tree base (.under (.register i) "bitfields") (.list items))
    (listed : items[j]? = some found)
    (failed : readField base j found = .error (.schema spot problem)) :
    Blamed document tree (.field i j) spot problem := by
  have here := sited.field listed
  have needed {key : String} (listed : key ∈ ["name", "lsb", "width", "access"]) :
      key ∈ (Holder.field i j).required := listed
  unfold readField at failed
  rcases exists_of_bind_eq_error failed with refused | ⟨entries, opened, failed⟩
  · exact expects_table.blamed here rfl rfl refused
  obtain rfl := expectTable_eq_ok_iff.mp opened
  rcases exists_of_bind_eq_error failed with refused | ⟨_, -, failed⟩
  · exact blamed_of_checkKeys here refused
  rcases blamed_of_required expects_text "name" here nofun (needed (by decide)) rfl failed with
    blamed | ⟨name, failed⟩
  · exact blamed
  rcases blamed_of_required expects_small "lsb" here nofun (needed (by decide)) rfl failed with
    blamed | ⟨lsb, failed⟩
  · exact blamed
  rcases blamed_of_required expects_small "width" here nofun (needed (by decide)) rfl failed with
    blamed | ⟨width, failed⟩
  · exact blamed
  rcases blamed_of_required expects_text "access" here nofun (needed (by decide)) rfl failed with
    blamed | ⟨accessWord, failed⟩
  · exact blamed
  obtain ⟨access, -, failed⟩ := (unblamed_orConfigError _ _).second failed
  obtain ⟨bare, -, failed⟩ := (unblamed_makeField _ _ _ _).second failed
  rcases exists_of_bind_eq_error failed with refused | ⟨description, -, failed⟩
  · exact blamed_of_readDescription here nofun rfl refused
  dsimp only at failed
  cases given : lookup? "initial" entries with
  | none =>
    rw [given] at failed
    exact blamed_of_modifiers here failed
  | some initial =>
    rw [given] at failed
    rcases exists_of_bind_eq_error failed with refused | ⟨value, -, failed⟩
    · exact expects_integer.blamed (here.under given nofun) rfl rfl refused
    obtain ⟨field, -, failed⟩ := Unblamed.second (unblamed_checked _) failed
    exact blamed_of_modifiers here failed

/-- The bit fields are refused with the first of them that is. -/
theorem exists_of_readFields_error {base : Place} {register : Register} {index : Nat}
    {items : List Tree} (failed : readFields base register index items =
      .error (.schema spot problem)) :
    ∃ j found, items[j]? = some found ∧
      readField base (index + j) found = .error (.schema spot problem) := by
  induction items generalizing index register with
  | nil => cases failed
  | cons found rest ih =>
    unfold readFields at failed
    rcases exists_of_bind_eq_error failed with refused | ⟨field, -, failed⟩
    · exact ⟨0, found, rfl, refused⟩
    obtain ⟨grown, -, later⟩ := (unblamed_addField _ _).second failed
    obtain ⟨j, item, listed, refused⟩ := ih later
    refine ⟨j + 1, item, listed, ?_⟩
    rw [← Nat.add_assoc, Nat.add_right_comm]
    exact refused

/-! ## Registers -/

/-- The step of the bit fields, which is the last one. -/
theorem blamed_of_fields {i : Nat} {register : Register}
    (sited : Sited document tree place (.whole (.register i)) (.table entries))
    (failed : (match lookup? "bitfields" entries with
      | some found => do
        let items ← expectList (place.member "bitfields") found
        readFields (place.member "bitfields") register 0 items
      | none => .ok register) = .error (.schema spot problem)) :
    Blamed document tree (.register i) spot problem := by
  cases given : lookup? "bitfields" entries with
  | none =>
    rw [given] at failed
    cases failed
  | some found =>
    rw [given] at failed
    have here := sited.under given nofun
    rcases exists_of_bind_eq_error failed with refused | ⟨items, listing, failed⟩
    · exact expects_list.blamed here rfl rfl refused
    obtain rfl := expectList_eq_ok_iff.mp listing
    obtain ⟨j, item, listed, refused⟩ := exists_of_readFields_error failed
    rw [Nat.zero_add] at refused
    exact blamed_of_readField here listed refused

/-- All that the schema refuses in a register is blamed inside the register. -/
theorem blamed_of_readRegister {i : Nat} {items : List Tree}
    (sited : Sited document tree (.named registersKey) (.under .root registersKey) (.list items))
    (listed : items[i]? = some found)
    (failed : readRegister i found = .error (.schema spot problem)) :
    Blamed document tree (.register i) spot problem := by
  have here := sited.register listed
  unfold readRegister at failed
  rcases exists_of_bind_eq_error failed with refused | ⟨entries, opened, failed⟩
  · exact expects_table.blamed here rfl rfl refused
  obtain rfl := expectTable_eq_ok_iff.mp opened
  rcases exists_of_bind_eq_error failed with refused | ⟨_, -, failed⟩
  · exact blamed_of_checkKeys here refused
  rcases blamed_of_required expects_text "name" here nofun List.mem_cons_self rfl failed with
    blamed | ⟨name, failed⟩
  · exact blamed
  obtain ⟨bare, -, failed⟩ := (unblamed_makeRegister _).second failed
  rcases exists_of_bind_eq_error failed with refused | ⟨description, -, failed⟩
  · exact blamed_of_readDescription here nofun rfl refused
  dsimp only at failed
  cases given : lookup? "address" entries with
  | none =>
    rw [given] at failed
    exact blamed_of_fields here failed
  | some address =>
    rw [given] at failed
    rcases exists_of_bind_eq_error failed with refused | ⟨value, -, failed⟩
    · exact expects_integer.blamed (here.under given nofun) rfl rfl refused
    exact blamed_of_fields here failed

/-- The registers are refused with the first of them that is; those before it
can be read without it. -/
theorem exists_of_readRegisters_error {map next : RegisterMap} {index : Nat} {items : List Tree}
    (failed : readRegisters map index items = (next, .error (.schema spot problem))) :
    ∃ i found, items[i]? = some found ∧
      readRegisters map index (items.take i) = (next, .ok ()) ∧
      readRegister (index + i) found = .error (.schema spot problem) := by
  induction items generalizing index map with
  | nil => cases failed
  | cons found rest ih =>
    unfold readRegisters at failed
    cases step : readRegister index found >>= map.addRegister with
    | error error =>
      rw [step] at failed
      cases failed
      exact ⟨0, found, rfl, rfl, Unblamed.first (unblamed_addRegister _) step⟩
    | ok grown =>
      rw [step] at failed
      obtain ⟨i, item, listed, before, refused⟩ := ih failed
      refine ⟨i + 1, item, listed, ?_, ?_⟩
      · rw [List.take_succ_cons, readRegisters, step]
        exact before
      · rw [← Nat.add_assoc, Nat.add_right_comm]
        exact refused

end Walk

/-! ## Documents cut off -/

/-- The first few items of a list. -/
def takeItems (count : Nat) : Tree → Tree
  | .list items => .list (items.take count)
  | other => other

/-- The document with the first few of its registers. -/
def takeRegisters (count : Nat) : Tree → Tree
  | .table entries => .table (entries.map fun entry =>
    if entry.1 = registersKey then (entry.1, takeItems count entry.2) else entry)
  | other => other

theorem lookup?_takeRegisters (count : Nat) (entries : List (String × Tree)) :
    lookup? registersKey (entries.map fun entry =>
      if entry.1 = registersKey then (entry.1, takeItems count entry.2) else entry) =
      (lookup? registersKey entries).map (takeItems count) := by
  induction entries with
  | nil => rfl
  | cons entry rest ih =>
    obtain ⟨key, value⟩ := entry
    rw [List.map_cons]
    by_cases same : key = registersKey
    · rw [if_pos same, same, lookup?_cons_self, lookup?_cons_self]
      rfl
    · rw [if_neg same, lookup?_cons_of_ne same, lookup?_cons_of_ne same]
      exact ih

/-- What is read of a document that is cut off. -/
theorem readMapTree_takeRegisters {document : String} {config : Configuration} {map : RegisterMap}
    {entries : List (String × Tree)} {items : List Tree} {count : Nat}
    (keys : ∀ entry ∈ entries, entry.1 ∈ [registersKey])
    (given : lookup? registersKey entries = some (.list items))
    (read : readRegisters (.empty config) 0 (items.take count) = (map, .ok ())) :
    readMapTree document config (takeRegisters count (.table entries)) = (map, .ok ()) := by
  have cutKeys : checkKeys (.named document) [registersKey] (entries.map fun entry =>
      if entry.1 = registersKey then (entry.1, takeItems count entry.2) else entry) = .ok () := by
    refine checkKeys_eq_ok_iff.mpr ?_
    intro entry listed
    obtain ⟨source, member, rfl⟩ := List.mem_map.mp listed
    split
    · exact keys source member
    · exact keys source member
  have cutList : lookup? registersKey (entries.map fun entry =>
      if entry.1 = registersKey then (entry.1, takeItems count entry.2) else entry) =
        some (.list (items.take count)) := by
    rw [lookup?_takeRegisters, given]
    rfl
  unfold readMapTree takeRegisters
  simp only [expectTable, ok_bind, cutKeys, cutList, expectList]
  exact read

/-! ## Maps -/

/-- A failure is explained by a location that is at fault.  If it is in a
register, the document that ends before that register is accepted, and the map is
what is read of it. -/
def Explained (document : String) (config : Configuration) (tree : Tree) (map : RegisterMap)
    (spot : Place) (problem : SchemaProblem) : Prop :=
  ∃ location : Location, Blames document tree spot problem location ∧
    ∀ i, location.register? = some i →
      readMapTree document config (takeRegisters i tree) = (map, .ok ())

section Maps

variable {document : String} {config : Configuration} {tree : Tree} {map : RegisterMap}
  {spot : Place} {problem : SchemaProblem}

/-- Blame at the top of the document explains its error at once. -/
theorem Blamed.explained (blamed : Blamed document tree .root spot problem) :
    Explained document config tree map spot problem := by
  obtain ⟨location, within, blames⟩ := blamed
  refine ⟨location, blames, ?_⟩
  intro i inside
  rw [within] at inside
  cases inside

/-- Elements before the blamed one are read without error, so that cutting the
list there is accepted. -/
theorem explained_of_readMapTree
    (failed : readMapTree document config tree = (map, .error (.schema spot problem))) :
    Explained document config tree map spot problem := by
  unfold readMapTree at failed
  dsimp only at failed
  split at failed
  · rename_i items parsed
    obtain ⟨i, found, listed, before, refused⟩ := exists_of_readRegisters_error failed
    rw [Nat.zero_add] at refused
    simp only [bind_eq_ok_iff, expectTable_eq_ok_iff, checkKeys_eq_ok_iff] at parsed
    obtain ⟨entries, rfl, _, keys, listing⟩ := parsed
    cases given : lookup? registersKey entries with
    | none =>
      rw [given] at listing
      cases listing
      cases listed
    | some node =>
      rw [given] at listing
      obtain rfl := expectList_eq_ok_iff.mp listing
      obtain ⟨location, within, blames⟩ :=
        blamed_of_readRegister (Sited.registers given) listed refused
      refine ⟨location, blames, ?_⟩
      intro index inside
      rw [within] at inside
      cases inside
      exact readMapTree_takeRegisters keys given before
  · rename_i error parsed
    cases failed
    apply Blamed.explained
    rcases exists_of_bind_eq_error parsed with refused | ⟨entries, opened, inside⟩
    · exact expects_table.blamed .root rfl rfl refused
    obtain rfl := expectTable_eq_ok_iff.mp opened
    rcases exists_of_bind_eq_error inside with refused | ⟨_, -, listing⟩
    · exact blamed_of_checkKeys .root refused
    cases given : lookup? registersKey entries with
    | none =>
      rw [given] at listing
      cases listing
    | some node =>
      rw [given] at listing
      exact expects_list.blamed (.registers given) rfl rfl listing

end Maps

/-- **Schema errors point at the node that is at fault**, and at the first
register with such a node. -/
theorem schemaErrors_explained (document : String) (config : Configuration) :
    (∀ tree map spot problem,
      readMapTree document config tree = (map, .error (.schema spot problem)) →
        Explained document config tree map spot problem) ∧
    ∀ codec format text spot problem,
      readMap codec format text document config = .error (.schema spot problem) →
        ∃ tree map, Codec.read codec format text = .ok tree ∧
          Explained document config tree map spot problem := by
  refine ⟨fun _ _ _ _ failed => explained_of_readMapTree failed, ?_⟩
  intro codec format text spot problem failed
  unfold readMap at failed
  rcases exists_of_bind_eq_error failed with unread | ⟨tree, parsed, failed⟩
  · unfold readTree at unread
    split at unread
    · cases unread
    · cases unread
  · have read : codec.read format text = .ok tree := by
      unfold readTree at parsed
      split at parsed
      · cases parsed
        assumption
      · cases parsed
    cases outcome : readMapTree document config tree with
    | mk map result =>
      rw [outcome] at failed
      have refused : result = .error (.schema spot problem) := by
        cases result with
        | ok done => cases failed
        | error error =>
          cases failed
          rfl
      rw [refused] at outcome
      exact ⟨tree, map, read, explained_of_readMapTree outcome⟩

/-- A document whose second register has a bit field without an integer for its
width. -/
def wideField : Tree :=
  .table [(registersKey, .list [.table [("name", .text "spam")],
    .table [("name", .text "eggs"), ("bitfields", .list [.table [("name", .text "baz"),
      ("lsb", .int 0), ("width", .text "wide"), ("access", .text "ro")]])]])]

/-- A width of the starter's second register that is too large is shown by
indices and names. -/
theorem schemaErrors_explained_wideField : ∃ map spot problem,
    readMapTree "map.json" .default wideField = (map, .error (.schema spot problem)) ∧
      spot.text = "regmap[1](eggs).bitfields[0](baz).width" ∧
      Explained "map.json" .default wideField map spot problem := by
  obtain ⟨map, spot, problem, failed, shown⟩ : ∃ map spot problem,
      readMapTree "map.json" .default wideField = (map, .error (.schema spot problem)) ∧
        spot.text = "regmap[1](eggs).bitfields[0](baz).width" :=
    ⟨_, _, _, rfl, rfl⟩
  have explained := (schemaErrors_explained "map.json" .default).1 wideField map spot problem failed
  exact ⟨map, spot, problem, failed, shown, explained⟩

/-- A location shown with the name of every entry on the way, also of a
modifier. -/
def Location.namedPath (document : String) (tree : Tree) : Location → String
  | .modifier i j k => fieldPath tree i j ++ ".modifiers" ++ indexText k ++
    nameText ((Location.modifier i j k).node? tree)
  | other => other.path document tree

/-- A document that has a table with a name where a modifier should be. -/
def namedModifier : Tree :=
  .table [(registersKey, .list [.table [("name", .text "a"),
    ("bitfields", .list [.table [("name", .text "f"), ("lsb", .int 0), ("width", .int 1),
      ("access", .text "rw"), ("modifiers", .list [.table [("name", .text "x")]])]])]])]

/-- A modifier never goes by a name: no node of the document would be shown as
the place in the error is, if it did. -/
theorem modifier_goes_by_index : ∃ map spot problem,
    readMapTree "map.json" .default namedModifier = (map, .error (.schema spot problem)) ∧
      ∀ location found, Location.node? namedModifier location = some found →
        location.namedPath "map.json" namedModifier ≠ spot.text := by
  refine ⟨_, _, _, rfl, ?_⟩
  intro location found there
  -- There is one entry on each level, and so there are few locations with a node.
  cases location with
  | whole holder =>
    match holder with
    | .root => decide
    | .register 0 => decide
    | .register (_ + 1) => cases there
    | .field 0 0 => decide
    | .field 0 (_ + 1) => cases there
    | .field (_ + 1) _ => cases there
  | under holder key =>
    have listed {entries : List (String × Tree)}
        (given : (Tree.table entries).get? key = some found) : key ∈ entries.map Prod.fst :=
      mem_keys_of_lookup? given
    match holder with
    | .root =>
      have shown : ∀ key ∈ [registersKey], (Location.under .root key).namedPath "map.json"
          namedModifier ≠ "regmap[0](a).bitfields[0](f).modifiers[0]" := by decide
      exact shown key (listed there)
    | .register 0 =>
      have shown : ∀ key ∈ ["name", "bitfields"], (Location.under (.register 0) key).namedPath
          "map.json" namedModifier ≠ "regmap[0](a).bitfields[0](f).modifiers[0]" := by decide
      exact shown key (listed there)
    | .register (_ + 1) => cases there
    | .field 0 0 =>
      have shown : ∀ key ∈ ["name", "lsb", "width", "access", "modifiers"],
          (Location.under (.field 0 0) key).namedPath "map.json" namedModifier ≠
            "regmap[0](a).bitfields[0](f).modifiers[0]" := by decide
      exact shown key (listed there)
    | .field 0 (_ + 1) => cases there
    | .field (_ + 1) _ => cases there
  | modifier i j k =>
    match i, j, k with
    | 0, 0, 0 => decide
    | 0, 0, _ + 1 => cases there
    | 0, _ + 1, _ => cases there
    | _ + 1, _, _ => cases there

end RegisterBank.Schema
