import RegisterBank.Proofs.Schema.ConfigRoundTrip

/-!
# Keys of configuration documents

Reading flattens a document to the values in its tables, each under the keys
that lead to it, and looks at nothing else.  So a document is accepted exactly
if each of its values stands where an option takes it
(`readConfigTree_accepts_iff`).  Two things leave no trace in that: an empty
key before all others, which the joined key skips, and a table that holds no
value at any depth.  Where a document has neither, all of its keys are those of
options or lead to options.
-/

namespace RegisterBank.Schema

open RegisterBank.Document

/-! ## Paths in a document -/

/-- Keys that lead from the entries of a table to a node, through tables. -/
inductive Leads : List (String × Tree) → List String → Tree → Prop
  | entry {entries : List (String × Tree)} {key : String} {node : Tree} :
    (key, node) ∈ entries → Leads entries [key] node
  | inside {entries inner : List (String × Tree)} {key : String} {path : List String}
      {node : Tree} :
    (key, .table inner) ∈ entries → Leads inner path node → Leads entries (key :: path) node

/-- A value, at any depth, among the entries of a table. -/
def HoldsValue (entries : List (String × Tree)) : Prop :=
  ∃ path node, Leads entries path node ∧ node.isTable = false

/-- The keys of a path in one, with dots between them. -/
def dotted (path : List String) : String := ".".intercalate path

/-- The keys of a path from the first that is not empty. -/
def named (path : List String) : List String := path.dropWhile (· == "")

/-- The option with a key takes what a tree stands for. -/
def Takes (key : String) (node : Tree) : Prop :=
  ∃ (setting : Setting) (value : SettingValue), setting.key = key ∧
    settingValue key setting.kind node = .ok value ∧ setting.kind.Admits value

/-- A path is that of an option and leads to a value, or leads to a table and
goes on, behind a dot, to an option. -/
def Recognised (path : List String) (node : Tree) : Prop :=
  if node.isTable then
    ∃ (setting : Setting) (rest : String), setting.key = dotted path ++ "." ++ rest
  else ∃ setting : Setting, setting.key = dotted path

/-! ## Joined keys -/

theorem dotted_cons_cons (first second : String) (rest : List String) :
    dotted (first :: second :: rest) = dotted ((first ++ "." ++ second) :: rest) :=
  rfl

theorem dotted_cons (first : String) {rest : List String} (more : rest ≠ []) :
    dotted (first :: rest) = first ++ "." ++ dotted rest := by
  induction rest generalizing first with
  | nil => exact absurd rfl more
  | cons second rest ih =>
    cases rest with
    | nil => rfl
    | cons third rest =>
      rw [dotted_cons_cons, ih (first ++ "." ++ second) (List.cons_ne_nil _ _),
        ih second (List.cons_ne_nil _ _)]
      simp only [String.append_assoc]

theorem dotted_append {path rest : List String} (some : path ≠ []) (more : rest ≠ []) :
    dotted (path ++ rest) = dotted path ++ "." ++ dotted rest := by
  induction path with
  | nil => exact absurd rfl some
  | cons key path ih =>
    cases path with
    | nil => exact dotted_cons key more
    | cons next path =>
      have more' : next :: path ++ rest ≠ [] := List.cons_ne_nil _ _
      rw [List.cons_append, dotted_cons key more', ih (List.cons_ne_nil _ _),
        dotted_cons key (List.cons_ne_nil _ _)]
      simp only [String.append_assoc]

theorem joinKey_of_ne {outer : String} (inside : outer ≠ "") (key : String) :
    joinKey outer key = outer ++ "." ++ key := by
  unfold joinKey
  rw [if_neg inside]
  rfl

theorem foldl_joinKey_of_ne {outer : String} (inside : outer ≠ "") (path : List String) :
    path.foldl joinKey outer = dotted (outer :: path) := by
  induction path generalizing outer with
  | nil => rfl
  | cons key rest ih =>
    have longer : outer ++ "." ++ key ≠ "" := by
      intro none
      have := congrArg String.length none
      simp at this
    rw [List.foldl_cons, joinKey_of_ne inside, ih longer, dotted_cons_cons]

theorem named_cons_of_ne {key : String} (solid : key ≠ "") (rest : List String) :
    named (key :: rest) = key :: rest :=
  List.dropWhile_cons_of_neg fun same => solid (beq_iff_eq.mp same)

/-- Flattening joins the keys of a path from the first that is not empty. -/
theorem foldl_joinKey (path : List String) : path.foldl joinKey "" = dotted (named path) := by
  induction path with
  | nil => rfl
  | cons key rest ih =>
    have start : joinKey "" key = key := if_pos rfl
    rw [List.foldl_cons, start]
    by_cases empty : key = ""
    · rw [empty]
      exact ih
    · rw [named_cons_of_ne empty]
      exact foldl_joinKey_of_ne empty rest

/-! ## Leaves are what keys lead to -/

theorem leavesUnder_value {node : Tree} (value : node.isTable = false) (key : String) :
    leavesUnder key node = [(key, node)] := by
  cases node with
  | table entries => cases value
  | _ => rfl

theorem mem_leaves_of_entry {entries : List (String × Tree)} {entry leaf : String × Tree}
    {outer : String} (listed : entry ∈ entries)
    (under : leaf ∈ leavesUnder (joinKey outer entry.1) entry.2) : leaf ∈ leaves outer entries := by
  induction entries with
  | nil => cases listed
  | cons other rest ih =>
    rw [leaves, List.mem_append]
    rcases List.mem_cons.mp listed with rfl | behind
    · exact .inl under
    · exact .inr (ih behind)

theorem exists_entry_of_mem_leaves {entries : List (String × Tree)} {leaf : String × Tree}
    {outer : String} (flat : leaf ∈ leaves outer entries) :
    ∃ entry ∈ entries, leaf ∈ leavesUnder (joinKey outer entry.1) entry.2 := by
  induction entries with
  | nil => cases flat
  | cons entry rest ih =>
    rw [leaves, List.mem_append] at flat
    rcases flat with under | behind
    · exact ⟨entry, List.mem_cons_self, under⟩
    · obtain ⟨other, listed, under⟩ := ih behind
      exact ⟨other, List.mem_cons_of_mem _ listed, under⟩

theorem mem_leaves_of_leads {entries : List (String × Tree)} {path : List String} {node : Tree}
    (leads : Leads entries path node) (value : node.isTable = false) (outer : String) :
    (path.foldl joinKey outer, node) ∈ leaves outer entries := by
  induction leads generalizing outer with
  | entry listed =>
    apply mem_leaves_of_entry listed
    rw [leavesUnder_value value]
    exact List.mem_singleton_self _
  | @inside entries inner key path node listed _ ih =>
    apply mem_leaves_of_entry listed
    rw [leavesUnder]
    exact ih value (joinKey outer key)

theorem exists_leads_of_mem_leavesUnder (tree : Tree) :
    ∀ entries, tree = .table entries → ∀ outer leaf, leaf ∈ leaves outer entries →
      ∃ path, Leads entries path leaf.2 ∧ leaf.2.isTable = false ∧
        leaf.1 = path.foldl joinKey outer := by
  induction tree using Tree.induct with
  | step tree ih =>
    intro entries table outer leaf flat
    subst table
    obtain ⟨⟨key, node⟩, listed, under⟩ := exists_entry_of_mem_leaves flat
    cases shape : node.isTable with
    | false =>
      rw [leavesUnder_value shape] at under
      obtain rfl := List.mem_singleton.mp under
      exact ⟨[key], .entry listed, shape, rfl⟩
    | true =>
      cases node with
      | table inner =>
        rw [leavesUnder] at under
        obtain ⟨path, leads, value, joined⟩ :=
          ih (.table inner) (List.mem_map_of_mem listed) inner rfl _ leaf under
        exact ⟨key :: path, .inside listed leads, value, joined⟩
      | _ => cases shape

/-- Flattening a document finds the values that its keys lead to, and nothing
else. -/
theorem mem_leaves_iff {entries : List (String × Tree)} {key : String} {node : Tree} :
    (key, node) ∈ leaves "" entries ↔
      ∃ path, Leads entries path node ∧ node.isTable = false ∧ key = dotted (named path) := by
  constructor
  · intro flat
    obtain ⟨path, leads, value, joined⟩ :=
      exists_leads_of_mem_leavesUnder (.table entries) entries rfl "" _ flat
    exact ⟨path, leads, value, joined.trans (foldl_joinKey path)⟩
  · intro ⟨path, leads, value, joined⟩
    rw [joined, ← foldl_joinKey]
    exact mem_leaves_of_leads leads value ""

/-! ## Accepted documents -/

/-- Setting a value of a document stores what it stands for. -/
theorem exists_of_setLeaf_ok {config next : Configuration} {leaf : String × Tree}
    (done : setLeaf config leaf = .ok next) :
    ∃ (setting : Setting) (value : SettingValue), setting.key = leaf.1 ∧
      settingValue leaf.1 setting.kind leaf.2 = .ok value ∧ setting.kind.Admits value ∧
      next = config.store setting value := by
  unfold setLeaf at done
  split at done
  · cases done
  · rename_i setting found
    obtain ⟨value, read, stored⟩ := exists_of_bind_eq_ok done
    unfold Configuration.set at stored
    rw [found] at stored
    dsimp only at stored
    split at stored
    · rename_i passed
      have admitted := SettingKind.admits_of_check passed
      exact ⟨setting, value, ofKey?_eq_some_iff.mp found, read, admitted,
        (Except.ok.inj stored).symm⟩
    · cases stored

/-- Whether a value can be set does not depend on what was set before. -/
theorem exists_setLeaf_iff (config : Configuration) (leaf : String × Tree) :
    (∃ next, setLeaf config leaf = .ok next) ↔ Takes leaf.1 leaf.2 := by
  constructor
  · intro ⟨next, done⟩
    obtain ⟨setting, value, own, read, admitted, -⟩ := exists_of_setLeaf_ok done
    exact ⟨setting, value, own, read, admitted⟩
  · intro ⟨setting, value, own, read, admitted⟩
    have found := ofKey?_eq_some_iff.mpr own
    refine ⟨config.store setting value, ?_⟩
    unfold setLeaf Configuration.set
    simp only [found, read, ok_bind, SettingKind.check_of_admits admitted]

/-- A document is accepted exactly if each value that keys lead to stands where
an option takes it. -/
theorem readConfigTree_accepts_iff (document : String) (entries : List (String × Tree)) :
    (∃ config, readConfigTree document (.table entries) = .ok config) ↔
      ∀ path node, Leads entries path node → node.isTable = false →
        Takes (dotted (named path)) node := by
  have read : readConfigTree document (.table entries) =
      (leaves "" entries).foldlM setLeaf .default := rfl
  rw [read, exists_foldlM_iff exists_setLeaf_iff]
  constructor
  · intro taken path node leads value
    exact taken (dotted (named path), node) (mem_leaves_iff.mpr ⟨path, leads, value, rfl⟩)
  · intro taken ⟨key, node⟩ flat
    obtain ⟨path, leads, value, rfl⟩ := mem_leaves_iff.mp flat
    exact taken path node leads value

/-! ## Keys that leave no trace -/

theorem Leads.append {entries inner : List (String × Tree)} {path rest : List String}
    {node : Tree} (leads : Leads entries path (.table inner)) (further : Leads inner rest node) :
    Leads entries (path ++ rest) node := by
  generalize reached : Tree.table inner = table at leads
  induction leads with
  | entry listed =>
    subst reached
    exact .inside listed further
  | inside listed _ ih => exact .inside listed (ih reached)

theorem Leads.ne_nil {entries : List (String × Tree)} {path : List String} {node : Tree}
    (leads : Leads entries path node) : path ≠ [] := by
  cases leads <;> exact List.cons_ne_nil _ _

/-- Without an empty key at the root, a path keeps all of its keys. -/
theorem Leads.named_eq {entries : List (String × Tree)} {path : List String} {node : Tree}
    (leads : Leads entries path node) (solid : ∀ entry ∈ entries, entry.1 ≠ "") :
    named path = path := by
  cases leads with
  | entry listed => exact named_cons_of_ne (solid _ listed) _
  | inside listed _ => exact named_cons_of_ne (solid _ listed) _

/-- No option has an empty key, or one that starts with a dot. -/
theorem not_recognised_empty (node : Tree) : ¬ Recognised [""] node := by
  unfold Recognised
  split
  · intro ⟨setting, rest, same⟩
    have head := congrArg (fun key : String => key.toList.head?) same
    cases setting <;> simp [Setting.key, dotted] at head
  · intro ⟨setting, same⟩
    cases setting <;> simp [Setting.key, dotted] at same

section Accepted

variable {document : String} {entries : List (String × Tree)} {config : Configuration}
  (accepted : readConfigTree document (.table entries) = .ok config)

include accepted

/-- A value of an accepted document stands where an option has its own, once
the empty keys before all others are left out. -/
theorem exists_setting_of_value {path : List String} {node : Tree}
    (leads : Leads entries path node) (value : node.isTable = false) :
    ∃ setting : Setting, setting.key = dotted (named path) := by
  have taken := (readConfigTree_accepts_iff document entries).mp ⟨config, accepted⟩
  obtain ⟨setting, -, own, -⟩ := taken path node leads value
  exact ⟨setting, own⟩

/-- Where no key at the root is empty, a table that holds a value leads to an
option. -/
theorem recognised_of_holdsValue (solid : ∀ entry ∈ entries, entry.1 ≠ "") {path : List String}
    {inner : List (String × Tree)} (leads : Leads entries path (.table inner))
    (holds : HoldsValue inner) : Recognised path (.table inner) := by
  obtain ⟨rest, node, found, value⟩ := holds
  have further := leads.append found
  obtain ⟨setting, own⟩ := exists_setting_of_value accepted further value
  rw [further.named_eq solid, dotted_append leads.ne_nil found.ne_nil] at own
  exact ⟨setting, dotted rest, own⟩

/-- **The keys of an accepted configuration document are those of options**, or
lead to options, exactly if no key at its root is empty and every table without
a value is one of those that options stand in.  Its values always stand where
options have theirs, empty keys at the start of a path aside. -/
theorem recognised_iff_of_accepted :
    (∀ path node, Leads entries path node → node.isTable = false →
      ∃ setting : Setting, setting.key = dotted (named path)) ∧
    ((∀ path node, Leads entries path node → Recognised path node) ↔
      (∀ entry ∈ entries, entry.1 ≠ "") ∧
        ∀ path inner, Leads entries path (.table inner) →
          HoldsValue inner ∨ Recognised path (.table inner)) := by
  refine ⟨fun _ _ => exists_setting_of_value accepted, ?_, ?_⟩
  · intro recognised
    constructor
    · intro entry listed empty
      apply not_recognised_empty entry.2
      rw [← empty]
      exact recognised _ _ (.entry listed)
    · intro path inner leads
      exact .inr (recognised path _ leads)
  · intro ⟨solid, tables⟩ path node leads
    cases shape : node.isTable with
    | false =>
      obtain ⟨setting, own⟩ := exists_setting_of_value accepted leads shape
      rw [leads.named_eq solid] at own
      unfold Recognised
      rw [shape]
      exact ⟨setting, own⟩
    | true =>
      cases node with
      | table inner =>
        rcases tables path inner leads with holds | recognised
        · exact recognised_of_holdsValue accepted solid leads holds
        · exact recognised
      | _ => cases shape

end Accepted

/-- A document that sets one option at its root and one in a table. -/
def nestedEntries : List (String × Tree) :=
  [("data_width", .int 16), ("lb_bridge", .table [("type", .text "apb")])]

theorem inner_of_mem_nestedEntries {key : String} {inner : List (String × Tree)}
    (listed : (key, Tree.table inner) ∈ nestedEntries) : inner = [("type", .text "apb")] := by
  rcases List.mem_cons.mp listed with width | behind
  · cases width
  · cases List.mem_singleton.mp behind
    rfl

theorem recognised_iff_of_accepted_nested :
    (∃ config, readConfigTree "config" (.table nestedEntries) = .ok config ∧
      config.dataWidth = 16 ∧ config.protocol = some .apb) ∧
    ∀ path node, Leads nestedEntries path node → Recognised path node := by
  have accepted : readConfigTree "config" (.table nestedEntries) =
      .ok { Configuration.default with dataWidth := 16, protocol := some .apb } := rfl
  refine ⟨⟨_, accepted, rfl, rfl⟩, (recognised_iff_of_accepted accepted).2.mpr ⟨?_, ?_⟩⟩
  · unfold nestedEntries
    decide
  · intro path inner leads
    -- The only table holds the word for the bus family.
    cases leads with
    | entry listed =>
      rw [inner_of_mem_nestedEntries listed]
      exact .inl ⟨["type"], .text "apb", .entry (List.mem_singleton_self _), rfl⟩
    | inside listed deeper =>
      rw [inner_of_mem_nestedEntries listed] at deeper
      cases deeper with
      | entry listed => cases List.mem_singleton.mp listed
      | inside listed _ => cases List.mem_singleton.mp listed

/-- Two documents are accepted although a key of theirs is not that of an option
and leads to none: a table without values, and an empty key at the root. -/
theorem accepts_unrecognised :
    readConfigTree "config" (.table [("bogus", .table [])]) = .ok .default ∧
      Leads [("bogus", .table [])] ["bogus"] (.table []) ∧ ¬ Recognised ["bogus"] (.table []) ∧
    readConfigTree "config" (.table [("", .table [("data_width", .int 16)])]) =
        .ok { Configuration.default with dataWidth := 16 } ∧
      Leads [("", .table [("data_width", .int 16)])] ["", "data_width"] (.int 16) ∧
      ¬ Recognised ["", "data_width"] (.int 16) := by
  refine ⟨rfl, .entry (List.mem_singleton_self _), ?_, rfl,
    .inside (List.mem_singleton_self _) (.entry (List.mem_singleton_self _)), ?_⟩
  · intro ⟨setting, rest, same⟩
    have start := congrArg (fun key : String => key.toList.take 2) same
    cases setting <;> simp [Setting.key, dotted] at start
  · intro ⟨setting, same⟩
    cases setting <;> simp [Setting.key, dotted] at same

end RegisterBank.Schema
