import RegisterBank.Proofs.Document.Placed
import RegisterBank.Proofs.Document.Toml.Lines

/-!
# The statements of a written document

A written document says an entry for each value on a line and a header for each
table below the root, in the order of the tree.  Reading it gives just these
statements.  Fuel is counted in characters, so an empty line is only skipped
with what stands in front of it: the parts of a document are taken together
with the line breaks between them.
-/

namespace RegisterBank.Document

namespace Toml

/-! ## Values with and without headers -/

theorem needsHeader_inline {tree : Tree} (inline : tree.Inline) : needsHeader tree = false := by
  cases inline with
  | bool => rfl
  | int => rfl
  | text => rfl
  | list items =>
    rename_i listed
    cases listed with
    | nil => rfl
    | cons item rest =>
      have noTable : Tree.isTable item = false := by
        cases items item List.mem_cons_self with
        | bool => rfl
        | int => rfl
        | text => rfl
        | list => rfl
      rw [needsHeader, List.all_cons, noTable, Bool.false_and]

theorem needsHeader_tables {tables : List (List (String × Tree))} (filled : tables ≠ []) :
    needsHeader (.list (tables.map .table)) = true := by
  rcases List.exists_cons_of_ne_nil filled with ⟨entries, rest, rfl⟩
  rw [List.map_cons, needsHeader, List.all_eq_true]
  intro item listed
  rcases List.mem_cons.mp listed with rfl | later
  · rfl
  · obtain ⟨table, -, rfl⟩ := List.mem_map.mp later
    rfl

theorem inline_of_needsHeader {tree : Tree} (placed : tree.Placed)
    (plain : needsHeader tree = false) : tree.Inline := by
  cases placed with
  | inline inline => exact inline
  | table => cases plain
  | tables filled =>
    rw [needsHeader_tables filled] at plain
    cases plain

/-! ## What a tree says -/

/-- The statements of the entries that need no header. -/
def plainSaid (entries : List (String × Tree)) : List Statement :=
  (entries.filter fun entry => !needsHeader entry.2).map fun entry => .entry [] entry.1 entry.2

mutual

/-- The statements of a tree under the headers for a key below a path. -/
def headedSaid (outer : List String) (last : String) : Tree → List Statement
  | .table entries =>
    headerSaid false outer last :: (plainSaid entries ++ saidOf (outer ++ [last]) entries)
  | .list items => elementsSaid outer last items
  | _ => []

/-- The statements of the elements of an array of tables. -/
def elementsSaid (outer : List String) (last : String) : List Tree → List Statement
  | [] => []
  | .table entries :: rest =>
    headerSaid true outer last ::
      (plainSaid entries ++ (saidOf (outer ++ [last]) entries ++ elementsSaid outer last rest))
  | _ :: rest => elementsSaid outer last rest

/-- The statements under the headers of the entries of a table. -/
def saidOf (path : List String) : List (String × Tree) → List Statement
  | [] => []
  | (key, value) :: rest =>
    (if needsHeader value then headedSaid path key value else []) ++ saidOf path rest

end

/-! ## Texts and their statements -/

/-- Reading a text to its end gives certain statements. -/
def Says (text : List Char) (said : List Statement) : Prop :=
  ∀ fuel, 4 * text.length + 4 ≤ fuel →
    (statements fuel text).1.map Prod.snd = said ∧ (statements fuel text).2 = none

section Says

variable {text : List Char} {more : List Statement}

theorem says_nil : Says [] [] := by
  intro fuel enough
  obtain ⟨fuel, rfl⟩ : ∃ less, fuel = less + 1 := ⟨fuel - 1, by omega⟩
  exact ⟨rfl, rfl⟩

theorem Says.newLine (reading : Says text more) : Says ('\n' :: text) more := by
  intro fuel enough
  rw [List.length_cons] at enough
  obtain ⟨fuel, rfl⟩ : ∃ less, fuel = less + 1 := ⟨fuel - 1, by omega⟩
  exact reading fuel (by omega)

/-- A line says its statement. -/
theorem Says.line (reading : Says text more) {line : List Char} {c : Char} {tail : List Char}
    (start : line = c :: tail) (solid : isBlank c = false ∧ c ≠ '#' ∧ c ≠ '\n' ∧ c ≠ '\r')
    {said : Statement} (read : ∀ fuel, 4 * line.length ≤ fuel →
      statement fuel (line ++ text) = .ok (said, text)) :
    Says (line ++ text) (said :: more) := by
  intro fuel enough
  have filled : line.length = tail.length + 1 := by rw [start]; rfl
  rw [List.length_append] at enough
  obtain ⟨fuel, rfl⟩ : ∃ less, fuel = less + 1 := ⟨fuel - 1, by omega⟩
  have here := read fuel (by omega)
  rcases reading fuel (by omega) with ⟨others, ended⟩
  have kept : skipBlanks (line ++ text) = line ++ text := by
    rw [start, List.cons_append]
    exact skipBlanks_solid solid.1 _
  have step : statements (fuel + 1) (line ++ text) =
      ((line ++ text, said) :: (statements fuel text).1, (statements fuel text).2) := by
    rw [statements, kept]
    split
    · rename_i same
      rw [start] at same
      cases same
    · rename_i same
      rw [start] at same
      exact absurd (List.cons.inj same).1 solid.2.1
    · rename_i same
      rw [start] at same
      exact absurd (List.cons.inj same).1 solid.2.2.1
    · rename_i same
      rw [start] at same
      exact absurd (List.cons.inj same).1 solid.2.2.2
    · rename_i same
      rw [start] at same
      exact absurd (List.cons.inj same).1 solid.2.2.2
    · rw [here]
  rw [step]
  exact ⟨by rw [List.map_cons, others], ended⟩

end Says

/-! ## Lines of entries -/

/-- Steps that write a line for each entry without a header write these lines. -/
theorem toList_foldl_lines {step : String → String × Tree → String}
    (writes : ∀ lines key value, step lines (key, value) =
      if needsHeader value then lines
      else lines ++ keyLiteral key ++ " = " ++ valueLiteral value ++ "\n")
    {entries : List (String × Tree)} (bare : ∀ entry ∈ entries, IsBare entry.1) (lines : String) :
    (entries.foldl step lines).toList = lines.toList ++
      (entries.filter fun entry => !needsHeader entry.2).flatMap
        fun entry => entryText entry.1 entry.2 := by
  induction entries generalizing lines with
  | nil => exact (List.append_nil _).symm
  | cons entry entries ih =>
    obtain ⟨key, value⟩ := entry
    have later := ih fun other listed => bare other (List.mem_cons_of_mem _ listed)
    have literal : keyLiteral key = key := keyLiteral_bare (bare (key, value) List.mem_cons_self)
    rw [List.foldl_cons, later, writes]
    cases headed : needsHeader value with
    | true => simp [headed]
    | false => simp [headed, literal, entryText]

theorem toList_plainLines {entries : List (String × Tree)}
    (bare : ∀ entry ∈ entries, IsBare entry.1) : (plainLines entries).toList =
      (entries.filter fun entry => !needsHeader entry.2).flatMap
        fun entry => entryText entry.1 entry.2 := by
  unfold plainLines
  rw [toList_foldl_lines (fun _ _ _ => rfl) bare]
  rfl

theorem says_plainLines {entries : List (String × Tree)} (keys : SoundKeys entries)
    (placed : ∀ entry ∈ entries, entry.2.Placed)
    (shallow : ∀ entry ∈ entries, entry.2.depth ≤ depthLimit) {text : List Char}
    {more : List Statement} (reading : Says text more) :
    Says ((plainLines entries).toList ++ text) (plainSaid entries ++ more) := by
  have kept : ∀ entry ∈ entries.filter (fun entry => !needsHeader entry.2),
      IsBare entry.1 ∧ entry.2.Inline ∧ entry.2.depth ≤ depthLimit := by
    intro entry listed
    obtain ⟨inside, plain⟩ := List.mem_filter.mp listed
    exact ⟨keys.bare entry inside, inline_of_needsHeader (placed entry inside) (by simpa using plain),
      shallow entry inside⟩
  rw [toList_plainLines keys.bare]
  unfold plainSaid
  generalize entries.filter (fun entry => !needsHeader entry.2) = lines at kept
  induction lines with
  | nil => exact reading
  | cons entry rest ih =>
    rcases kept entry List.mem_cons_self with ⟨bare, inline, short⟩
    have later := ih fun other listed => kept other (List.mem_cons_of_mem _ listed)
    obtain ⟨c, tail, start, inside⟩ := exists_cons_of_bare bare
    rw [List.flatMap_cons, List.map_cons, List.append_assoc]
    have begun : entryText entry.1 entry.2 = c :: (tail ++
        ' ' :: '=' :: ' ' :: ((valueLiteral entry.2).toList ++ ['\n'])) := by
      unfold entryText
      rw [start]
      rfl
    refine later.line begun ⟨isBlank_isKeyChar inside, isKeyChar_ne inside rfl,
      isKeyChar_ne inside rfl, isKeyChar_ne inside rfl⟩ ?_
    intro fuel enough
    exact statement_entry bare inline short enough

/-! ## Parts under headers -/

/-- Parts of a document, each behind a line break. -/
def glued (parts : List String) : List Char := parts.flatMap fun part => '\n' :: part.toList

/-- The parts of a document, with line breaks between them, say statements,
whatever follows. -/
structure Spells (parts : List String) (said : List Statement) : Prop where
  filled : ∀ part ∈ parts, part ≠ ""
  reading : ∀ text more, Says text more → Says ((glued parts).tail ++ text) (said ++ more)

section Parts

variable {parts others : List String} {said later : List Statement}

theorem spells_nil : Spells [] [] where
  filled := fun _ listed => absurd listed List.not_mem_nil
  reading := fun _ _ reading => reading

/-- A line break in front changes nothing. -/
theorem Spells.glued (spells : Spells parts said) {text : List Char} {more : List Statement}
    (reading : Says text more) : Says (Toml.glued parts ++ text) (said ++ more) := by
  have tail := spells.reading text more reading
  cases parts with
  | nil => exact tail
  | cons part parts => exact tail.newLine

theorem Spells.cons {part : String} {here : List Statement} (spells : Spells parts said)
    (filled : part ≠ "")
    (first : ∀ text more, Says text more → Says (part.toList ++ text) (here ++ more)) :
    Spells (part :: parts) (here ++ said) where
  filled := by
    intro other listed
    rcases List.mem_cons.mp listed with rfl | listed
    · exact filled
    · exact spells.filled other listed
  reading := by
    intro text more reading
    have rest := first _ _ (spells.glued reading)
    rw [List.append_assoc]
    unfold Toml.glued at rest ⊢
    rw [List.flatMap_cons, List.cons_append, List.tail_cons, List.append_assoc]
    exact rest

theorem Spells.append (spells : Spells parts said) (onward : Spells others later) :
    Spells (parts ++ others) (said ++ later) where
  filled := by
    intro part listed
    rcases List.mem_append.mp listed with early | late
    · exact spells.filled part early
    · exact onward.filled part late
  reading := by
    intro text more reading
    rw [List.append_assoc]
    cases parts with
    | nil => exact spells.reading _ _ (onward.reading text more reading)
    | cons part parts =>
      have rest := spells.reading _ _ (onward.glued reading)
      unfold Toml.glued at rest ⊢
      rw [List.flatMap_append, List.flatMap_cons, List.cons_append, List.cons_append,
        List.tail_cons, List.append_assoc, List.append_assoc]
      rw [List.flatMap_cons, List.cons_append, List.tail_cons, List.append_assoc] at rest
      exact rest

/-- Parts with line breaks between them. -/
theorem toList_intercalate (parts : List String) :
    ("\n".intercalate parts).toList = (glued parts).tail := by
  induction parts with
  | nil => rw [String.intercalate_nil]; rfl
  | cons part parts ih =>
    have behind : (glued (part :: parts)).tail = part.toList ++ glued parts := by
      unfold glued
      rw [List.flatMap_cons, List.cons_append, List.tail_cons]
    rw [behind]
    cases parts with
    | nil => simp [glued]
    | cons next parts =>
      have opened : glued (next :: parts) = '\n' :: (glued (next :: parts)).tail := rfl
      rw [String.intercalate_cons_of_ne_nil (by simp), String.toList_append, String.toList_append,
        ih, List.append_assoc, opened]
      rfl

end Parts

/-! ## Trees under headers -/

section Headers

variable {outer : List String} {last : String} {entries : List (String × Tree)}

/-- What the text under the headers for a key below a path says. -/
def HeadedSays (outer : List String) (last : String) (tree : Tree) : Prop :=
  needsHeader tree = true →
    Spells (headedParts (outer ++ [last]) tree) (headedSaid outer last tree)

theorem spells_partsOf {path : List String}
    (headed : ∀ entry ∈ entries, HeadedSays path entry.1 entry.2) :
    Spells (partsOf path entries) (saidOf path entries) := by
  induction entries with
  | nil =>
    rw [partsOf, saidOf]
    exact spells_nil
  | cons entry entries ih =>
    obtain ⟨key, value⟩ := entry
    have later := ih fun other listed => headed other (List.mem_cons_of_mem _ listed)
    rw [partsOf, saidOf]
    refine Spells.append ?_ later
    cases header : needsHeader value with
    | false => exact spells_nil
    | true => exact headed (key, value) List.mem_cons_self header

/-- The part of a table: its header, the lines of its entries, and the parts
below it. -/
theorem spells_table (isElement : Bool) (bares : ∀ step ∈ outer ++ [last], IsBare step)
    (keys : SoundKeys entries) (placed : ∀ entry ∈ entries, entry.2.Placed)
    (shallow : outer.length + (Tree.table entries).depth ≤ depthLimit) {part : String}
    (shape : part.toList = headerText isElement (outer ++ [last]) ++ (plainLines entries).toList)
    (headed : ∀ entry ∈ entries, HeadedSays (outer ++ [last]) entry.1 entry.2) :
    Spells (part :: partsOf (outer ++ [last]) entries)
      (headerSaid isElement outer last ::
        (plainSaid entries ++ saidOf (outer ++ [last]) entries)) := by
  rw [Tree.depth] at shallow
  have begun : ∃ tail, headerText isElement (outer ++ [last]) = '[' :: tail := by
    unfold headerText
    cases isElement with
    | true => exact ⟨_, rfl⟩
    | false => exact ⟨_, rfl⟩
  obtain ⟨tail, start⟩ := begun
  have filled : part ≠ "" := by
    rintro rfl
    rw [start] at shape
    cases shape
  have first : ∀ text more, Says text more → Says (part.toList ++ text)
      ((headerSaid isElement outer last :: plainSaid entries) ++ more) := by
    intro text more reading
    have lines := says_plainLines keys placed (fun entry listed => by
      have inside := depth_le_entriesDepth listed
      omega) reading
    rw [shape, List.append_assoc]
    refine lines.line start (by decide) ?_
    intro fuel enough
    have long := length_le_headerText isElement bares
    exact statement_header isElement bares (by omega) (by omega)
  exact (spells_partsOf headed).cons filled first

theorem spells_elementParts {tables : List (List (String × Tree))}
    (each : ∀ entries ∈ tables, ∀ part : String,
      part.toList = headerText true (outer ++ [last]) ++ (plainLines entries).toList →
      Spells (part :: partsOf (outer ++ [last]) entries)
        (headerSaid true outer last ::
          (plainSaid entries ++ saidOf (outer ++ [last]) entries))) :
    Spells (elementParts (outer ++ [last]) (tables.map .table))
      (elementsSaid outer last (tables.map .table)) := by
  induction tables with
  | nil =>
    rw [List.map_nil, elementParts, elementsSaid]
    exact spells_nil
  | cons entries tables ih =>
    have later := ih fun other listed => each other (List.mem_cons_of_mem _ listed)
    have here := each entries List.mem_cons_self
      ("[[" ++ pathText (outer ++ [last]) ++ "]]\n" ++ plainLines entries) (by
        unfold headerText
        simp)
    have both := here.append later
    rw [List.map_cons, elementParts, elementsSaid]
    rw [List.cons_append, List.cons_append, List.append_assoc] at both
    exact both

/-- A path stays bare below a table with sound keys. -/
theorem bare_below {path : List String} (bares : ∀ step ∈ path, IsBare step)
    (keys : SoundKeys entries) {entry : String × Tree} (listed : entry ∈ entries) :
    ∀ step ∈ path ++ [entry.1], IsBare step := by
  intro step named
  rcases List.mem_append.mp named with early | own
  · exact bares step early
  · rw [List.mem_singleton.mp own]
    exact keys.bare entry listed

/-- What stands under the headers of a tree says the statements of the tree. -/
theorem headedSays {tree : Tree} (placed : tree.Placed)
    (bares : ∀ step ∈ outer ++ [last], IsBare step)
    (shallow : outer.length + tree.depth ≤ depthLimit) : HeadedSays outer last tree := by
  -- By how the tree is placed; each header makes the path longer and the rest shallower.
  induction placed generalizing outer last with
  | inline inline =>
    intro header
    rw [needsHeader_inline inline] at header
    cases header
  | table keys placed ih =>
    rename_i entries
    intro _
    rw [headedParts, headedSaid]
    refine spells_table false bares keys placed shallow ?_ ?_
    · unfold headerText
      simp
    · intro entry listed
      have inside := depth_le_entriesDepth listed
      rw [Tree.depth] at shallow
      refine ih entry listed (bare_below bares keys listed) ?_
      rw [List.length_append, List.length_singleton]
      omega
  | tables filled keys placed ih =>
    rename_i tables
    intro _
    rw [headedParts, headedSaid]
    refine spells_elementParts ?_
    intro entries member part shape
    have inItems := depth_le_itemsDepth (List.mem_map_of_mem member (f := Tree.table))
    rw [Tree.depth] at shallow
    refine spells_table true bares (keys entries member) (placed entries member) (by omega) shape ?_
    intro entry listed
    have inside := depth_le_entriesDepth listed
    rw [Tree.depth] at inItems
    refine ih entries member entry listed (bare_below bares (keys entries member) listed) ?_
    rw [List.length_append, List.length_singleton]
    omega

end Headers

/-! ## Whole documents -/

/-- A written document says the statements of its root table, and what stands
behind it says more. -/
theorem says_render {entries : List (String × Tree)} (keys : SoundKeys entries)
    (placed : ∀ entry ∈ entries, entry.2.Placed)
    (shallow : (Tree.table entries).depth ≤ depthLimit) {text : List Char}
    {more : List Statement} (reading : Says text more) :
    Says ((render (.table entries)).toList ++ text)
      (plainSaid entries ++ (saidOf [] entries ++ more)) := by
  rw [Tree.depth] at shallow
  have bounded : ∀ entry ∈ entries, entry.2.depth + 1 ≤ depthLimit := by
    intro entry listed
    have inside := depth_le_entriesDepth listed
    omega
  have spells : Spells (partsOf [] entries) (saidOf [] entries) := by
    refine spells_partsOf ?_
    intro entry listed
    have bares : ∀ step ∈ [] ++ [entry.1], IsBare step :=
      bare_below (fun step named => absurd named List.not_mem_nil) keys listed
    have inside := bounded entry listed
    exact headedSays (placed entry listed) bares (by simp; omega)
  have kept : (partsOf [] entries).filter (· != "") = partsOf [] entries := by
    rw [List.filter_eq_self]
    intro part listed
    exact bne_iff_ne.mpr (spells.filled part listed)
  have lines : ∀ {text : List Char} {more : List Statement}, Says text more →
      Says ((plainLines entries).toList ++ text) (plainSaid entries ++ more) :=
    says_plainLines keys placed fun entry listed => by
      have inside := bounded entry listed
      omega
  rw [render, toList_intercalate]
  by_cases empty : plainLines entries = ""
  · rw [List.filter_cons_of_neg (by simp [empty]), kept]
    have said := lines (spells.reading text more reading)
    rw [empty] at said
    exact said
  · rw [List.filter_cons_of_pos (by simp [empty]), kept]
    have said := lines (spells.glued reading)
    rw [← List.append_assoc] at said
    exact said

end Toml

end RegisterBank.Document
