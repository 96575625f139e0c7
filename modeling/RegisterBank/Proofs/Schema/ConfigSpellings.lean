import RegisterBank.Proofs.Schema.ConfigKeys

/-!
# Spellings of configuration documents

An option may stand under its dotted key, in tables, or in any mixture of the
two, and the order in which a document is flattened depends on which.  What is
read does not: it is decided by the values that the document assigns to keys
(`Assigns`), since each value is stored for one option and no other
(`value?_of_setLeaves`), so documents with one assignment are read alike
(`readAlike_of_sameAssignment`).

Keys are joined the way flattening joins them, which skips the empty keys before
all others.  With all keys joined, two documents may assign the same and still be
read differently (`emptyKey_not_readAlike`).  It takes a table under an empty key
at the root.
-/

namespace RegisterBank.Schema

open RegisterBank.Document

/-! ## Assignments -/

/-- A value of a document and the keys that lead to it from the root.  A document
that is no table is the one value in it, under no keys. -/
inductive Holds : Tree → List String → Tree → Prop
  | alone {value : Tree} : value.isTable = false → Holds value [] value
  | inside {entries : List (String × Tree)} {path : List String} {value : Tree} :
    Leads entries path value → value.isTable = false → Holds (.table entries) path value

/-- A document assigns a value to the key that the keys leading to it make when
they are joined. -/
def Assigns (join : List String → String) (tree : Tree) (key : String) (value : Tree) : Prop :=
  ∃ path, Holds tree path value ∧ key = join path

/-- Two documents assign the same values to the same keys, and to no key more
than one. -/
structure SameAssignment (join : List String → String) (first second : Tree) : Prop where
  same : ∀ key value, Assigns join first key value ↔ Assigns join second key value
  once : ∀ key value other, Assigns join first key value → Assigns join first key other →
    value = other

/-- The key under which flattening finds the value at a path. -/
def joined (path : List String) : String := dotted (named path)

/-- No table stands under an empty key at the root. -/
def ClearRoot (tree : Tree) : Prop :=
  ∀ entries, tree = .table entries → ∀ entry ∈ entries, entry.1 = "" → entry.2.isTable = false

/-- Two documents are both refused, or read as the same configuration, in
whatever format they are written. -/
structure ReadAlike (first second : Tree) : Prop where
  tree : ∀ document other config,
    readConfigTree document first = .ok config ↔ readConfigTree other second = .ok config
  text : ∀ (codec : Codec) (format another : Format) (written rewritten : String),
    codec.read format written = .ok first → codec.read another rewritten = .ok second →
      ∀ document other config, readConfig codec format written document = .ok config ↔
        readConfig codec another rewritten other = .ok config

/-! ## Setting the values of a document -/

section Leaves

variable {first second : List (String × Tree)} {config next : Configuration}

/-- No key stands before two different values. -/
def Unambiguous (found : List (String × Tree)) : Prop :=
  ∀ key value other, (key, value) ∈ found → (key, other) ∈ found → value = other

theorem Unambiguous.tail {leaf : String × Tree} {rest : List (String × Tree)}
    (once : Unambiguous (leaf :: rest)) : Unambiguous rest := by
  intro key value other listed otherListed
  exact once key value other (List.mem_cons_of_mem _ listed) (List.mem_cons_of_mem _ otherListed)

/-- Once the values of a document are set, an option has the value that stands
under its key, and what it had before if there is none. -/
theorem value?_of_setLeaves (once : Unambiguous first)
    (done : first.foldlM setLeaf config = .ok next) (setting : Setting) :
    (∀ node, (setting.key, node) ∈ first → ∃ value,
      settingValue setting.key setting.kind node = .ok value ∧
        next.value? setting = some value) ∧
    ((∀ node, (setting.key, node) ∉ first) → next.value? setting = config.value? setting) := by
  induction first generalizing config with
  | nil =>
    cases done
    exact ⟨fun _ listed => (List.not_mem_nil listed).elim, fun _ => rfl⟩
  | cons leaf rest ih =>
    rw [List.foldlM_cons] at done
    obtain ⟨middle, stepped, later⟩ := exists_of_bind_eq_ok done
    obtain ⟨given, kept⟩ := ih once.tail later
    obtain ⟨stored, value, own, read, admitted, rfl⟩ := exists_of_setLeaf_ok stepped
    constructor
    · intro node listed
      by_cases again : ∃ other, (setting.key, other) ∈ rest
      · obtain ⟨other, behind⟩ := again
        have same := once _ _ _ listed (List.mem_cons_of_mem _ behind)
        exact given node (same ▸ behind)
      · -- The option's value is the first leaf, and nothing later changes it.
        have last : ∀ other, (setting.key, other) ∉ rest := fun other behind => again ⟨other, behind⟩
        have here : (setting.key, node) = leaf :=
          (List.mem_cons.mp listed).resolve_right (last node)
        subst here
        obtain rfl : stored = setting := key_injective own
        refine ⟨value, read, ?_⟩
        rw [kept last]
        exact Configuration.value?_store_self admitted
    · intro absent
      have apart : setting ≠ stored := by
        intro same
        apply absent leaf.2
        rw [same, own]
        exact List.mem_cons_self
      rw [kept fun node behind => absent node (List.mem_cons_of_mem _ behind)]
      exact Configuration.value?_store_of_ne apart value

/-- Values are set with the same outcome in any order and as often as they like. -/
theorem setLeaves_of_mem_iff (same : ∀ leaf, leaf ∈ first ↔ leaf ∈ second)
    (once : Unambiguous first) (done : first.foldlM setLeaf config = .ok next) :
    second.foldlM setLeaf config = .ok next := by
  have onceMore : Unambiguous second := by
    intro key value other listed otherListed
    exact once key value other ((same _).mpr listed) ((same _).mpr otherListed)
  have taken : ∀ leaf ∈ second, Takes leaf.1 leaf.2 := by
    intro leaf listed
    exact (exists_foldlM_iff exists_setLeaf_iff first config).mp ⟨next, done⟩ leaf
      ((same leaf).mpr listed)
  obtain ⟨other, otherDone⟩ := (exists_foldlM_iff exists_setLeaf_iff second config).mpr taken
  have alike : next = other := by
    apply Configuration.eq_of_value?
    intro setting
    obtain ⟨given, kept⟩ := value?_of_setLeaves once done setting
    obtain ⟨otherGiven, otherKept⟩ := value?_of_setLeaves onceMore otherDone setting
    by_cases listed : ∃ node, (setting.key, node) ∈ first
    · obtain ⟨node, listed⟩ := listed
      obtain ⟨value, read, stored⟩ := given node listed
      obtain ⟨otherValue, otherRead, otherStored⟩ := otherGiven node ((same _).mp listed)
      rw [read] at otherRead
      rw [stored, otherStored, Except.ok.inj otherRead]
    · rw [kept fun node present => listed ⟨node, present⟩,
        otherKept fun node present => listed ⟨node, (same _).mpr present⟩]
  rw [otherDone, alike]

end Leaves

/-! ## Documents with one assignment -/

section Documents

variable {first second tree value : Tree} {entries : List (String × Tree)} {key : String}

/-- A table assigns what flattening it gives. -/
theorem assigns_table_iff :
    Assigns joined (.table entries) key value ↔ (key, value) ∈ leaves "" entries := by
  rw [mem_leaves_iff]
  constructor
  · intro ⟨path, holds, same⟩
    cases holds with
    | alone value => cases value
    | inside leads value => exact ⟨path, leads, value, same⟩
  · intro ⟨path, leads, value, same⟩
    exact ⟨path, .inside leads value, same⟩

/-- No option has the empty key. -/
theorem not_takes_empty (node : Tree) : ¬ Takes "" node := by
  intro ⟨setting, _, own, _⟩
  have unknown : Setting.ofKey? "" = none := rfl
  rw [ofKey?_eq_some_iff.mpr own] at unknown
  cases unknown

/-- A document with a value under the empty key is refused. -/
theorem refused_of_assigns_empty (assigned : Assigns joined tree "" value) (document : String)
    (config : Configuration) : readConfigTree document tree ≠ .ok config := by
  intro read
  obtain ⟨path, holds, same⟩ := assigned
  cases holds with
  | alone single =>
    cases tree with
    | table entries => cases single
    | _ => cases read
  | inside leads single =>
    have taken := (readConfigTree_accepts_iff document _).mp ⟨config, read⟩ path value leads single
    have key : dotted (named path) = "" := same.symm
    rw [key] at taken
    exact not_takes_empty value taken

theorem assigns_of_value (single : tree.isTable = false) : Assigns joined tree "" tree :=
  ⟨[], .alone single, rfl⟩

/-- Documents with the same assignments are accepted alike and read to the same
configuration. -/
theorem readConfigTree_congr (alike : SameAssignment joined first second)
    (document other : String) (config : Configuration) :
    readConfigTree document first = .ok config ↔ readConfigTree other second = .ok config := by
  have refused (assigned : ∃ value, Assigns joined first "" value) :
      readConfigTree document first = .ok config ↔ readConfigTree other second = .ok config := by
    obtain ⟨value, assigned⟩ := assigned
    exact iff_of_false (refused_of_assigns_empty assigned document config)
      (refused_of_assigns_empty ((alike.same "" value).mp assigned) other config)
  -- A document that is no table gives a value under the empty key to both.
  cases firstTable : first.isTable with
  | false => exact refused ⟨first, assigns_of_value firstTable⟩
  | true =>
    cases secondTable : second.isTable with
    | false => exact refused ⟨second, (alike.same "" second).mpr (assigns_of_value secondTable)⟩
    | true =>
      cases first with
      | table entries =>
        cases second with
        | table others =>
          have same (leaf : String × Tree) : leaf ∈ leaves "" entries ↔ leaf ∈ leaves "" others :=
            assigns_table_iff.symm.trans ((alike.same leaf.1 leaf.2).trans assigns_table_iff)
          have once : Unambiguous (leaves "" entries) := by
            intro key value other listed otherListed
            exact alike.once key value other (assigns_table_iff.mpr listed)
              (assigns_table_iff.mpr otherListed)
          have onceMore : Unambiguous (leaves "" others) := by
            intro key value other listed otherListed
            exact once key value other ((same _).mpr listed) ((same _).mpr otherListed)
          exact ⟨setLeaves_of_mem_iff same once,
            setLeaves_of_mem_iff (fun leaf => (same leaf).symm) onceMore⟩
        | _ => cases secondTable
      | _ => cases firstTable

theorem readConfig_eq {codec : Codec} {format : Format} {written : String}
    (read : codec.read format written = .ok tree) (document : String) :
    readConfig codec format written document = readConfigTree document tree := by
  unfold readConfig readTree
  rw [read, ok_bind]

/-- Joining keys as the reader does, the same assignments are read alike. -/
theorem readAlike_of_joined (alike : SameAssignment joined first second) :
    ReadAlike first second where
  tree := readConfigTree_congr alike
  text := by
    intro codec format another written rewritten read reread document other config
    rw [readConfig_eq read, readConfig_eq reread]
    exact readConfigTree_congr alike document other config

/-- Flattening skips a key only before a table under an empty key. -/
theorem joined_eq_dotted (clear : ClearRoot tree) {path : List String} (holds : Holds tree path value) :
    joined path = dotted path := by
  unfold joined
  cases holds with
  | alone => rfl
  | @inside entries _ _ leads _ =>
    cases leads with
    | @entry _ key _ listed =>
      by_cases empty : key = ""
      · rw [empty]
        rfl
      · rw [named_cons_of_ne empty]
    | @inside _ _ key _ _ listed _ =>
      have solid : key ≠ "" := fun empty => Bool.noConfusion (clear entries rfl _ listed empty)
      rw [named_cons_of_ne solid]

/-- Without an empty key at the root both ways of joining agree. -/
theorem assigns_dotted_iff (clear : ClearRoot tree) :
    Assigns dotted tree key value ↔ Assigns joined tree key value := by
  constructor
  · intro ⟨path, holds, same⟩
    exact ⟨path, holds, same.trans (joined_eq_dotted clear holds).symm⟩
  · intro ⟨path, holds, same⟩
    exact ⟨path, holds, same.trans (joined_eq_dotted clear holds)⟩

/-- **How a configuration document is spelled makes no difference.**  Documents
that assign the same values to the keys that flattening makes are read alike,
and so are those that assign the same values to their dotted keys if neither has
a table under an empty key at its root. -/
theorem readAlike_of_sameAssignment (first second : Tree) :
    (SameAssignment joined first second → ReadAlike first second) ∧
    (SameAssignment dotted first second → ClearRoot first → ClearRoot second →
      ReadAlike first second) := by
  refine ⟨readAlike_of_joined, ?_⟩
  intro alike clear otherClear
  apply readAlike_of_joined
  constructor
  · intro key value
    rw [← assigns_dotted_iff clear, ← assigns_dotted_iff otherClear]
    exact alike.same key value
  · intro key value other assigned otherAssigned
    exact alike.once key value other ((assigns_dotted_iff clear).mpr assigned)
      ((assigns_dotted_iff clear).mpr otherAssigned)

/-- Two options under their dotted keys, and the same with one of them in a table. -/
def dottedSpelling : Tree := .table [("data_width", .int 16), ("lb_bridge.type", .text "apb")]

def nestedSpelling : Tree := .table nestedEntries

theorem readAlike_of_sameAssignment_nested :
    SameAssignment dotted dottedSpelling nestedSpelling ∧ ClearRoot dottedSpelling ∧
      ClearRoot nestedSpelling ∧ ReadAlike dottedSpelling nestedSpelling ∧
      readConfigTree "config" nestedSpelling =
        .ok { Configuration.default with dataWidth := 16, protocol := some .apb } := by
  have clear : ClearRoot dottedSpelling := by
    intro entries same
    cases same
    decide
  have otherClear : ClearRoot nestedSpelling := by
    intro entries same
    cases same
    decide
  have assigned (key : String) (value : Tree) : Assigns dotted dottedSpelling key value ↔
      (key, value) ∈ [("data_width", .int 16), ("lb_bridge.type", .text "apb")] :=
    (assigns_dotted_iff clear).trans assigns_table_iff
  have reassigned (key : String) (value : Tree) : Assigns dotted nestedSpelling key value ↔
      (key, value) ∈ [("data_width", .int 16), ("lb_bridge.type", .text "apb")] :=
    (assigns_dotted_iff otherClear).trans assigns_table_iff
  have alike : SameAssignment dotted dottedSpelling nestedSpelling := by
    constructor
    · intro key value
      exact (assigned key value).trans (reassigned key value).symm
    · intro key value other here there
      have listed := (assigned key value).mp here
      have otherListed := (assigned key other).mp there
      simp only [List.mem_cons, List.not_mem_nil, or_false, Prod.mk.injEq] at listed otherListed
      rcases listed with ⟨rfl, rfl⟩ | ⟨rfl, rfl⟩
      · have same : other = .int 16 := by simpa using otherListed
        exact same.symm
      · have same : other = .text "apb" := by simpa using otherListed
        exact same.symm
  exact ⟨alike, clear, otherClear,
    (readAlike_of_sameAssignment dottedSpelling nestedSpelling).2 alike clear otherClear, rfl⟩

/-- A value in a table under an empty key, and the same under a key that starts
with a dot. -/
def behindEmptyKey : Tree := .table [("", .table [("data_width", .int 16)])]

def startingWithDot : Tree := .table [(".data_width", .int 16)]

theorem assigns_behindEmptyKey :
    Assigns dotted behindEmptyKey key value ↔ key = ".data_width" ∧ value = .int 16 := by
  constructor
  · intro ⟨path, holds, same⟩
    cases holds with
    | alone single => cases single
    | inside leads single =>
      cases leads with
      | entry listed =>
        cases List.mem_singleton.mp listed
        cases single
      | inside listed deeper =>
        cases List.mem_singleton.mp listed
        cases deeper with
        | entry listed =>
          cases List.mem_singleton.mp listed
          exact ⟨same, rfl⟩
        | inside listed _ => cases List.mem_singleton.mp listed
  · intro ⟨same, value⟩
    rw [same, value]
    exact ⟨["", "data_width"],
      .inside (.inside (List.mem_singleton_self _) (.entry (List.mem_singleton_self _))) rfl, rfl⟩

theorem assigns_startingWithDot :
    Assigns dotted startingWithDot key value ↔ key = ".data_width" ∧ value = .int 16 := by
  have clear : ClearRoot startingWithDot := by
    intro entries same
    cases same
    decide
  have listed : Assigns dotted startingWithDot key value ↔
      (key, value) ∈ [(".data_width", Tree.int 16)] :=
    (assigns_dotted_iff clear).trans assigns_table_iff
  rw [listed, List.mem_singleton, Prod.mk.injEq]

/-- Two documents assign one value to one dotted key, and only one of them is
read: flattening drops the empty key that the other has as part of its own. -/
theorem emptyKey_not_readAlike :
    SameAssignment dotted behindEmptyKey startingWithDot ∧
      readConfigTree "config" behindEmptyKey =
        .ok { Configuration.default with dataWidth := 16 } ∧
      readConfigTree "config" startingWithDot =
        .error (.schema (.named ".data_width") (.unknownOption ".data_width")) ∧
      ¬ ReadAlike behindEmptyKey startingWithDot := by
  have read : readConfigTree "config" behindEmptyKey =
      .ok { Configuration.default with dataWidth := 16 } := rfl
  have refused : readConfigTree "config" startingWithDot =
      .error (.schema (.named ".data_width") (.unknownOption ".data_width")) := rfl
  refine ⟨⟨?_, ?_⟩, read, refused, ?_⟩
  · intro key value
    exact assigns_behindEmptyKey.trans assigns_startingWithDot.symm
  · intro key value other assigned otherAssigned
    have first := (assigns_behindEmptyKey.mp assigned).2
    have second := (assigns_behindEmptyKey.mp otherAssigned).2
    exact first.trans second.symm
  · intro alike
    have reread := (alike.tree "config" "config" _).mp read
    rw [refused] at reread
    cases reread

end Documents

end RegisterBank.Schema
