import RegisterBank.Proofs.Document.Entries
import RegisterBank.Proofs.Document.Sorted
import RegisterBank.Proofs.Document.Toml.Statements

/-!
# The tree that statements assemble

While a document is assembled, the table under work stands inside the tables
above it.  A frame is what one of these tables holds besides, so the frames
from the root down say where a table stands, and putting it into its frames
gives the root.  A header puts the current table into its place, so what counts
between two statements is the root that the outline would be finished with.
-/

namespace RegisterBank.Document.Toml

/-! ## Tables in their frames -/

/-- What surrounds a table: its key, the entries beside it, and the elements
before it if it is an element of an array of tables. -/
structure Frame where
  key : String
  beside : Entries
  earlier : Option (List Entries)

/-- The node of a table in its frame. -/
def Frame.node (frame : Frame) (entries : Entries) : Node :=
  match frame.earlier with
  | none => .table .header entries
  | some earlier => .tables (entries :: earlier)

/-- The root table around a table, whose outermost frame stands first. -/
def plug : List Frame → Entries → Entries
  | [], entries => entries
  | frame :: frames, entries => insertEntry frame.key (frame.node (plug frames entries)) frame.beside

/-- The keys that lead to a table. -/
def keysOf (frames : List Frame) : List String := frames.map Frame.key

theorem plug_append (frames others : List Frame) (entries : Entries) :
    plug (frames ++ others) entries = plug frames (plug others entries) := by
  induction frames with
  | nil => rfl
  | cons frame frames ih =>
    rw [List.cons_append, plug, plug, ih]

/-- Changing the table that a path leads to changes it in its frames. -/
theorem changeAt_plug (change : Origin → Entries → Option Entries) (frames : List Frame)
    (entries : Entries) :
    changeAt false change (keysOf frames) .header (plug frames entries) =
      (change .header entries).map (plug frames) := by
  induction frames with
  | nil =>
    show changeAt false change [] .header entries = _
    rw [changeAt]
    exact Option.map_id'.symm
  | cons frame frames ih =>
    obtain ⟨key, beside, earlier⟩ := frame
    show changeAt false change (key :: keysOf frames) .header _ = _
    rw [plug, changeAt, lookup?_insertEntry_self]
    -- The key names a table, or a list whose last table is meant.
    cases earlier with
    | none =>
      simp only [Frame.node, Bool.false_eq_true, false_and, if_false, ih, Option.map_map]
      congr 1
      funext inner
      exact insertEntry_insertEntry key _ _ beside
    | some earlier =>
      simp only [Frame.node, ih, Option.map_map]
      congr 1
      funext inner
      exact insertEntry_insertEntry key _ _ beside

theorem nodeAt?_plug (frames : List Frame) (entries : Entries) (key : String) :
    Outline.nodeAt? (plug frames entries) (keysOf frames) key = lookup? key entries := by
  induction frames with
  | nil => rfl
  | cons frame frames ih =>
    obtain ⟨step, beside, earlier⟩ := frame
    show Outline.nodeAt? _ (step :: keysOf frames) key = _
    rw [plug, Outline.nodeAt?, lookup?_insertEntry_self]
    cases earlier with
    | none => exact ih
    | some earlier => exact ih

/-! ## Outlines between statements -/

/-- The outline would be finished with a table in certain frames. -/
def Shows (outline : Outline) (frames : List Frame) (entries : Entries) : Prop :=
  outline.finish = some (plug frames entries)

/-- The current table of the outline stands in certain frames. -/
def Stands (outline : Outline) (frames : List Frame) : Prop :=
  ∀ current, Shows { outline with current := current } frames current

/-- The outline after some statements. -/
def addAll (outline : Outline) (said : List Statement) : Option Outline :=
  said.foldlM Outline.add outline

theorem addAll_append (outline : Outline) (said more : List Statement) :
    addAll outline (said ++ more) = (addAll outline said).bind fun next => addAll next more := by
  unfold addAll
  rw [List.foldlM_append]
  rfl

theorem addAll_cons {outline next : Outline} {statement : Statement}
    (added : outline.add statement = some next) (more : List Statement) :
    addAll outline (statement :: more) = addAll next more := by
  unfold addAll
  rw [List.foldlM_cons, added]
  rfl

theorem stands_empty : Stands Outline.empty [] := fun _ => rfl

section Steps

variable {outline : Outline} {frames : List Frame} {entries : Entries} {key : String}

/-- The header of a new table opens it in a frame of its own. -/
theorem openTable_shows (shows : Shows outline frames entries) (free : lookup? key entries = none) :
    ∃ next, outline.openTable (keysOf frames) key = some next ∧
      Stands next (frames ++ [⟨key, entries, none⟩]) ∧ next.current = [] := by
  have removed : changeAt false (fun _ entries => some (removeEntry key entries)) (keysOf frames)
      .header (plug frames entries) = some (plug frames entries) := by
    rw [changeAt_plug, removeEntry_of_lookup? free]
    rfl
  refine ⟨⟨plug frames entries, [], some (keysOf frames, key), false⟩, ?_, ?_, rfl⟩
  · unfold Outline.openTable
    rw [show outline.finish = some (plug frames entries) from shows]
    simp only [Option.bind_eq_bind, Option.bind_some, nodeAt?_plug, free, removed]
    rfl
  · intro current
    unfold Shows Outline.finish
    simp only
    rw [changeAt_plug, plug_append]
    simp only [Bool.false_eq_true, if_false, free]
    rfl

/-- The header of an element opens a table after the elements before it. -/
theorem openElement_shows {beside : Entries} {earlier : List Entries}
    (shows : Shows outline frames entries)
    (before : (earlier = [] ∧ entries = beside ∧ lookup? key beside = none) ∨
      entries = insertEntry key (.tables earlier) beside) :
    ∃ next, outline.openElement (keysOf frames) key = some next ∧
      Stands next (frames ++ [⟨key, beside, some earlier⟩]) ∧ next.current = [] := by
  refine ⟨⟨plug frames (insertEntry key (.tables earlier) beside), [], some (keysOf frames, key),
    true⟩, ?_, ?_, rfl⟩
  · unfold Outline.openElement
    rw [show outline.finish = some (plug frames entries) from shows]
    simp only [Option.bind_eq_bind, Option.bind_some, changeAt_plug]
    rcases before with ⟨rfl, rfl, free⟩ | rfl
    · simp only [free]
      rfl
    · simp only [lookup?_insertEntry_self]
      rfl
  · intro current
    unfold Shows Outline.finish
    simp only
    rw [changeAt_plug, plug_append]
    simp only [if_true, lookup?_insertEntry_self, insertEntry_insertEntry]
    rfl

end Steps

/-! ## Finished nodes -/

theorem sorted_table (entries : List (String × Tree)) :
    (Tree.table entries).sorted = .table (extended [] (sortedEntries entries)) := by
  rw [Tree.sorted]
  rfl

theorem entriesTree_eq_map (entries : Entries) :
    entriesTree entries = entries.map (Prod.map id Node.toTree) := by
  induction entries with
  | nil => rw [entriesTree, List.map_nil]
  | cons entry rest ih =>
    rw [entriesTree, ih]
    rfl

theorem entriesTree_insertEntry (key : String) (node : Node) (entries : Entries) :
    entriesTree (insertEntry key node entries) =
      insertEntry key node.toTree (entriesTree entries) := by
  rw [entriesTree_eq_map, entriesTree_eq_map]
  exact insertEntry_map Node.toTree key node entries

theorem entriesTree_extended (done entries : Entries) :
    entriesTree (extended done entries) =
      extended (entriesTree done) (entries.map (Prod.map id Node.toTree)) := by
  induction entries generalizing done with
  | nil => rfl
  | cons entry rest ih =>
    rw [extended_cons, ih, entriesTree_insertEntry]
    rfl

/-- The elements of an array of tables, which an outline has the latest first. -/
theorem elementsTree_eq (elements : List Entries) (done : List Tree) :
    elementsTree elements done =
      elements.reverse.map (fun entries => Tree.table (entriesTree entries)) ++ done := by
  induction elements generalizing done with
  | nil => rw [elementsTree]; rfl
  | cons element rest ih => rw [elementsTree, ih]; simp

theorem sorted_inline {tree : Tree} (inline : tree.Inline) : tree.sorted = tree := by
  induction inline with
  | bool => rw [Tree.sorted]; all_goals simp
  | int => rw [Tree.sorted]; all_goals simp
  | text => rw [Tree.sorted]; all_goals simp
  | list _ ih =>
    rename_i items _
    rw [Tree.sorted, sortedItems_eq_map]
    exact congrArg Tree.list ((List.map_congr_left ih).trans (List.map_id items))

/-! ## Entries -/

theorem setValue_free {entries : Entries} {key : String} (free : lookup? key entries = none)
    (value : Tree) : setValue [] key value entries = some (insertEntry key (.leaf value) entries) := by
  unfold setValue
  rw [changeAt]
  simp [free]

/-- Entries on lines are put into the current table. -/
theorem addAll_entries {lines : List (String × Tree)} (nodup : (lines.map Prod.fst).Nodup)
    (outline : Outline) (free : ∀ entry ∈ lines, lookup? entry.1 outline.current = none) :
    addAll outline (lines.map fun entry => .entry [] entry.1 entry.2) =
      some { outline with
        current := extended outline.current (lines.map (Prod.map id Node.leaf)) } := by
  induction lines generalizing outline with
  | nil => rfl
  | cons entry lines ih =>
    rw [List.map_cons, List.nodup_cons] at nodup
    have added : outline.add (.entry [] entry.1 entry.2) =
        some { outline with current := insertEntry entry.1 (.leaf entry.2) outline.current } := by
      rw [Outline.add, setValue_free (free entry List.mem_cons_self)]
      rfl
    rw [List.map_cons, addAll_cons added, ih nodup.2]
    · rfl
    · intro other listed
      have apart : entry.1 ≠ other.1 := by
        intro same
        rw [same] at nodup
        exact nodup.1 (List.mem_map_of_mem listed)
      rw [lookup?_insertEntry_of_ne apart]
      exact free other (List.mem_cons_of_mem entry listed)

/-! ## Tables and arrays of tables -/

section Trees

variable {outline : Outline} {frames : List Frame} {key : String}

/-- The statements of a tree put its node beside the entries of the table that
the outline shows. -/
def Assembles (tree : Tree) : Prop :=
  needsHeader tree = true → ∀ {outline : Outline} {frames : List Frame} {entries : Entries}
    {key : String}, Shows outline frames entries → lookup? key entries = none →
    ∃ next node, addAll outline (headedSaid (keysOf frames) key tree) = some next ∧
      Shows next frames (insertEntry key node entries) ∧ node.toTree = tree.sorted

/-- The headed entries of a table are put into it one after the other. -/
theorem addAll_saidOf {others : List (String × Tree)}
    (assembles : ∀ entry ∈ others, Assembles entry.2) (nodup : (others.map Prod.fst).Nodup)
    {entries : Entries} (shows : Shows outline frames entries)
    (free : ∀ entry ∈ others, needsHeader entry.2 = true → lookup? entry.1 entries = none) :
    ∃ next grown, addAll outline (saidOf (keysOf frames) others) = some next ∧
      Shows next frames grown ∧
      entriesTree grown = extended (entriesTree entries)
        (sortedEntries (others.filter fun entry => needsHeader entry.2)) := by
  induction others generalizing outline entries with
  | nil => exact ⟨outline, entries, by rw [saidOf]; rfl, shows, rfl⟩
  | cons entry others ih =>
    obtain ⟨key, value⟩ := entry
    rw [List.map_cons, List.nodup_cons] at nodup
    have later : ∀ entry ∈ others, Assembles entry.2 :=
      fun entry listed => assembles entry (List.mem_cons_of_mem _ listed)
    rw [saidOf]
    cases header : needsHeader value with
    | false =>
      rw [List.filter_cons_of_neg (by simp [header])]
      exact ih later nodup.2 shows fun entry listed => free entry (List.mem_cons_of_mem _ listed)
    | true =>
      obtain ⟨middle, node, added, shown, same⟩ := assembles (key, value) List.mem_cons_self header
        shows (free (key, value) List.mem_cons_self header)
      -- The keys that follow differ from this one, so they stay free.
      have still : ∀ entry ∈ others, needsHeader entry.2 = true →
          lookup? entry.1 (insertEntry key node entries) = none := by
        intro entry listed headed
        have apart : key ≠ entry.1 := by
          intro equal
          exact nodup.1 (List.mem_map.mpr ⟨entry, listed, equal.symm⟩)
        rw [lookup?_insertEntry_of_ne apart]
        exact free entry (List.mem_cons_of_mem _ listed) headed
      rcases ih later nodup.2 shown still with ⟨next, grown, addedLater, shownLater, sum⟩
      refine ⟨next, grown, ?_, shownLater, ?_⟩
      · rw [if_pos rfl, addAll_append, added]
        exact addedLater
      · rw [sum, List.filter_cons_of_pos (by simp [header]), sortedEntries, extended_cons,
          entriesTree_insertEntry, same]

/-- A new table takes its entries and what stands under headers below it. -/
theorem addAll_table {entries : List (String × Tree)} (keys : SoundKeys entries)
    (placed : ∀ entry ∈ entries, entry.2.Placed)
    (assembles : ∀ entry ∈ entries, Assembles entry.2) (stands : Stands outline frames)
    (fresh : outline.current = []) :
    ∃ next grown, addAll outline (plainSaid entries ++ saidOf (keysOf frames) entries) = some next ∧
      Shows next frames grown ∧ entriesTree grown = extended [] (sortedEntries entries) := by
  -- Lines come before headers whatever the order of the keys, which does not show.
  let lines := entries.filter fun entry => !needsHeader entry.2
  let headed := entries.filter fun entry => needsHeader entry.2
  have split : (lines ++ headed).Perm entries :=
    List.perm_append_comm.trans (List.filter_append_perm (fun entry => needsHeader entry.2) entries)
  have nodup : ((lines ++ headed).map Prod.fst).Nodup :=
    (split.map Prod.fst).nodup_iff.mpr keys.nodup
  have apart := nodup
  rw [List.map_append, List.nodup_append] at apart
  obtain ⟨nodupLines, -, disjoint⟩ := apart
  have plain : addAll outline (plainSaid entries) = some { outline with
      current := extended [] (lines.map (Prod.map id Node.leaf)) } := by
    have put := addAll_entries nodupLines outline fun entry _ => by rw [fresh]; rfl
    rw [fresh] at put
    exact put
  have free : ∀ entry ∈ entries, needsHeader entry.2 = true →
      lookup? entry.1 (extended [] (lines.map (Prod.map id Node.leaf))) = none := by
    intro entry listed header
    refine (lookup?_extended_of_not_mem ?_).trans rfl
    intro named
    have inLines : entry.1 ∈ lines.map Prod.fst := by
      rw [List.map_map] at named
      exact named
    have inHeaded : entry ∈ headed := List.mem_filter.mpr ⟨listed, header⟩
    exact disjoint entry.1 inLines entry.1 (List.mem_map_of_mem inHeaded) rfl
  have leaves : entriesTree (extended [] (lines.map (Prod.map id Node.leaf))) =
      extended [] (sortedEntries lines) := by
    rw [entriesTree_extended, List.map_map, sortedEntries_eq_map]
    refine congrArg (extended []) (List.map_congr_left ?_)
    intro entry listed
    obtain ⟨inside, header⟩ := List.mem_filter.mp listed
    have inline := inline_of_needsHeader (placed entry inside) (by simpa using header)
    exact Prod.ext rfl (sorted_inline inline).symm
  obtain ⟨next, grown, added, shown, sum⟩ :=
    addAll_saidOf assembles keys.nodup (stands (extended [] (lines.map (Prod.map id Node.leaf)))) free
  refine ⟨next, grown, ?_, shown, ?_⟩
  · rw [addAll_append, plain]
    exact added
  · have distinct : (((lines ++ headed).map (Prod.map id Tree.sorted)).map Prod.fst).Nodup := by
      rw [List.map_map]
      exact nodup
    rw [sum, leaves, ← extended_append, sortedEntries_eq_map, sortedEntries_eq_map,
      sortedEntries_eq_map, ← List.map_append]
    exact extended_perm (split.map _) distinct []

/-- An element of an array of tables is put behind those before it. -/
theorem addAll_element {table : List (String × Tree)} (keys : SoundKeys table)
    (placed : ∀ entry ∈ table, entry.2.Placed) (assembles : ∀ entry ∈ table, Assembles entry.2)
    {entries beside : Entries} {earlier : List Entries} (shows : Shows outline frames entries)
    (before : (earlier = [] ∧ entries = beside ∧ lookup? key beside = none) ∨
      entries = insertEntry key (.tables earlier) beside) :
    ∃ next grown, addAll outline (headerSaid true (keysOf frames) key ::
        (plainSaid table ++ saidOf (keysOf frames ++ [key]) table)) = some next ∧
      Shows next frames (insertEntry key (.tables (grown :: earlier)) beside) ∧
      entriesTree grown = extended [] (sortedEntries table) := by
  rcases openElement_shows shows before with ⟨opened, header, stands, fresh⟩
  rcases addAll_table keys placed assembles stands fresh with ⟨next, grown, added, shown, sum⟩
  have path : keysOf (frames ++ [⟨key, beside, some earlier⟩]) = keysOf frames ++ [key] :=
    List.map_append
  rw [path] at added
  refine ⟨next, grown, ?_, ?_, sum⟩
  · rw [addAll_cons (show outline.add (headerSaid true (keysOf frames) key) = some opened
      from header)]
    exact added
  · unfold Shows at shown
    rw [plug_append] at shown
    exact shown

/-- The elements of an array of tables are put behind those before them. -/
theorem addAll_elementsSaid {tables : List (List (String × Tree))}
    (keys : ∀ table ∈ tables, SoundKeys table)
    (placed : ∀ table ∈ tables, ∀ entry ∈ table, entry.2.Placed)
    (assembles : ∀ table ∈ tables, ∀ entry ∈ table, Assembles entry.2) {beside : Entries}
    {earlier : List Entries}
    (shows : Shows outline frames (insertEntry key (.tables earlier) beside)) :
    ∃ next elements, addAll outline (elementsSaid (keysOf frames) key (tables.map .table)) =
        some next ∧
      Shows next frames (insertEntry key (.tables elements) beside) ∧
      elementsTree elements [] = elementsTree earlier [] ++ sortedItems (tables.map .table) := by
  induction tables generalizing outline earlier with
  | nil =>
    refine ⟨outline, earlier, ?_, shows, ?_⟩
    · rw [List.map_nil, elementsSaid]
      rfl
    · rw [List.map_nil, sortedItems, List.append_nil]
  | cons table tables ih =>
    obtain ⟨middle, grown, added, shown, sum⟩ := addAll_element (keys table List.mem_cons_self)
      (placed table List.mem_cons_self) (assembles table List.mem_cons_self) shows (Or.inr rfl)
    obtain ⟨next, elements, addedLater, shownLater, total⟩ :=
      ih (fun other listed => keys other (List.mem_cons_of_mem table listed))
        (fun other listed => placed other (List.mem_cons_of_mem table listed))
        (fun other listed => assembles other (List.mem_cons_of_mem table listed)) shown
    refine ⟨next, elements, ?_, shownLater, ?_⟩
    · rw [List.map_cons, elementsSaid, ← List.append_assoc, ← List.cons_append, addAll_append, added]
      exact addedLater
    · rw [total, List.map_cons, sortedItems, sorted_table, elementsTree_eq, elementsTree_eq,
        List.reverse_cons, List.map_append, List.append_nil, List.append_nil, List.append_assoc, ← sum]
      rfl

/-- Every tree below headers is assembled from its statements. -/
theorem assembles {tree : Tree} (placed : tree.Placed) : Assembles tree := by
  -- By how the tree is placed: beside a key, below a header, or as a list of headers.
  induction placed with
  | inline inline =>
    intro header
    rw [needsHeader_inline inline] at header
    cases header
  | table keys placed ih =>
    rename_i table
    intro _ outline frames entries key shows free
    rcases openTable_shows shows free with ⟨opened, header, stands, fresh⟩
    rcases addAll_table keys placed ih stands fresh with ⟨next, grown, added, shown, sum⟩
    have path : keysOf (frames ++ [⟨key, entries, none⟩]) = keysOf frames ++ [key] :=
      List.map_append
    rw [path] at added
    refine ⟨next, .table .header grown, ?_, ?_, ?_⟩
    · rw [headedSaid, addAll_cons (show outline.add (headerSaid false (keysOf frames) key) =
        some opened from header)]
      exact added
    -- Closing the table puts it under its key in the frames around it.
    · unfold Shows at shown
      rw [plug_append] at shown
      exact shown
    · rw [Node.toTree, sum, sorted_table]
  | tables filled keys placed ih =>
    rename_i tables
    intro _ outline frames entries key shows free
    rcases List.exists_cons_of_ne_nil filled with ⟨table, tables, rfl⟩
    obtain ⟨middle, grown, added, shown, sum⟩ := addAll_element (keys table List.mem_cons_self)
      (placed table List.mem_cons_self) (ih table List.mem_cons_self) shows
      (Or.inl ⟨rfl, rfl, free⟩)
    obtain ⟨next, elements, addedLater, shownLater, total⟩ := addAll_elementsSaid
      (fun other listed => keys other (List.mem_cons_of_mem table listed))
      (fun other listed => placed other (List.mem_cons_of_mem table listed))
      (fun other listed => ih other (List.mem_cons_of_mem table listed)) shown
    refine ⟨next, .tables elements, ?_, shownLater, ?_⟩
    · rw [headedSaid, List.map_cons, elementsSaid, ← List.append_assoc, ← List.cons_append,
        addAll_append, added]
      exact addedLater
    · rw [Node.toTree, total, Tree.sorted, List.map_cons, sortedItems, sorted_table, ← sum]
      rfl

end Trees

/-! ## Whole documents -/

/-- A text that can be read starts with no byte order mark. -/
theorem Says.skipMark {text : List Char} {said : List Statement} (reading : Says text said) :
    Toml.skipMark text = text := by
  unfold Toml.skipMark
  split
  · rename_i rest
    rcases reading (4 * ('\uFEFF' :: rest).length + 4) (Nat.le_refl _) with ⟨-, ended⟩
    rw [statements, skipBlanks_solid rfl] at ended
    cases ended
  · rfl

/-- Steps that follow an outline go on as far as the outline does. -/
theorem foldlM_addAll {found : List (List Char × Statement)}
    {step : Outline → List Char × Statement → Except (List Char) Outline}
    (follows : ∀ {outline next : Outline} {place : List Char} {said : Statement},
      outline.add said = some next → step outline (place, said) = .ok next)
    {outline next : Outline} (added : addAll outline (found.map Prod.snd) = some next) :
    found.foldlM step outline = .ok next := by
  induction found generalizing outline with
  | nil => exact congrArg Except.ok (Option.some.inj added)
  | cons entry found ih =>
    obtain ⟨place, said⟩ := entry
    unfold addAll at added
    rw [List.map_cons, List.foldlM_cons] at added
    obtain ⟨middle, first, later⟩ := Option.bind_eq_some_iff.mp added
    rw [List.foldlM_cons, follows first]
    exact ih later

/-- The statements of a text assemble the table that they add up to. -/
theorem assemble_eq_ok {found : List (List Char × Statement)} {outline : Outline} {root : Entries}
    (added : addAll Outline.empty (found.map Prod.snd) = some outline)
    (finished : outline.finish = some root) : assemble found = .ok root := by
  unfold assemble
  rw [foldlM_addAll _ added]
  · simp only [finished]
  · intro outline next place said step
    simp only [step]

/-- A text that says the statements of a table is read to the table. -/
theorem read_of_says {entries : List (String × Tree)} (keys : SoundKeys entries)
    (placed : ∀ entry ∈ entries, entry.2.Placed) {text : String}
    (reading : Says text.toList (plainSaid entries ++ saidOf [] entries)) :
    read text = .ok (Tree.table entries).sorted := by
  obtain ⟨next, root, added, shown, sum⟩ := addAll_table keys placed
    (fun entry listed => assembles (placed entry listed)) stands_empty rfl
  rcases reading (4 * text.toList.length + 4) (Nat.le_refl _) with ⟨found, ended⟩
  have assembled : assemble (statements (4 * text.toList.length + 4) text.toList).1 = .ok root :=
    assemble_eq_ok (by rw [found]; exact added) shown
  unfold Toml.read
  simp only [reading.skipMark, assembled, ended]
  rw [sorted_table, sum]

end RegisterBank.Document.Toml
