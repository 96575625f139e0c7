import RegisterBank.Reference.Markdown

/-!
# Rows and their cells

A reader of a table splits a line at its bars, but not at a bar right behind a
backslash (`splitBars`).  A line is a row of some cells if these are what stands
between its bars, and nothing stands outside of them (`IsRow`).  A row of texts
is a row of these texts between blanks, if they are `Safe`: no bar of theirs may
split, and they may not break the line.  A blank follows each text, so a
backslash at its end does no harm.
-/

namespace RegisterBank.Reference

/-! ## Reading a row -/

/-- The pieces of a text between its bars.  A bar right behind a backslash does
not split; `escaped` tells that one stands before the text. -/
def splitBars (escaped : Bool) : List Char → List (List Char)
  | [] => [[]]
  | c :: rest =>
    if c = '|' ∧ escaped = false then [] :: splitBars false rest
    else
      match splitBars (c == '\\') rest with
      | piece :: pieces => (c :: piece) :: pieces
      | [] => [[c]]

/-- What stays on one line. -/
def Unbroken (text : String) : Prop := ∀ c ∈ text.toList, c ≠ '\n' ∧ c ≠ '\r'

/-- A single line with some cells between its bars and nothing outside of them. -/
structure IsRow (line : String) (cells : List String) : Prop where
  unbroken : Unbroken line
  pieces : (splitBars false line.toList).map String.ofList = "" :: cells ++ [""]

/-- The cell of a text, a blank on each side. -/
def spaced (text : String) : String := " " ++ text ++ " "

/-! ## Safe texts -/

/-- A text in which no bar splits and behind which a bar does. -/
def barFree (escaped : Bool) : List Char → Bool
  | [] => !escaped
  | c :: rest => (c != '|' || escaped) && barFree (c == '\\') rest

/-- A text that keeps to its cell and to its line, wherever it stands in a row. -/
structure Safe (text : String) : Prop where
  barFree : ∀ escaped, barFree escaped (text.toList ++ [' ']) = true
  unbroken : Unbroken text

/-- Whether a cell can hold a character as it is. -/
def isPlain (c : Char) : Bool := c != '|' && c != '\n' && c != '\r'

/-- A text that needs no escapes in a cell. -/
def Plain (text : String) : Prop := ∀ c ∈ text.toList, isPlain c = true

instance (text : String) : Decidable (Plain text) :=
  decidable_of_iff (text.toList.all isPlain = true) List.all_eq_true

theorem isPlain_iff {c : Char} : isPlain c = true ↔ c ≠ '|' ∧ c ≠ '\n' ∧ c ≠ '\r' := by
  simp [isPlain, and_assoc]

/-- Text without bars ends no cell early, in whatever state the reader is. -/
theorem barFree_of_plain {text : List Char} (plain : ∀ c ∈ text, c ≠ '|') (escaped : Bool) :
    barFree escaped (text ++ [' ']) = true := by
  induction text generalizing escaped with
  | nil => rfl
  | cons c rest ih =>
    have solid : (c != '|') = true := bne_iff_ne.mpr (plain c List.mem_cons_self)
    rw [List.cons_append, barFree, solid, Bool.true_or, Bool.true_and]
    exact ih (fun c listed => plain c (List.mem_cons_of_mem _ listed)) _

/-- Plain text needs no escapes to be safe. -/
theorem Plain.safe {text : String} (plain : Plain text) : Safe text where
  barFree := barFree_of_plain fun c listed => (isPlain_iff.mp (plain c listed)).1
  unbroken := fun c listed => (isPlain_iff.mp (plain c listed)).2

theorem cellChar_of_plain {c : Char} (plain : isPlain c = true) : cellChar c = [c] := by
  obtain ⟨bar, newLine, carriage⟩ := isPlain_iff.mp plain
  unfold cellChar
  split
  · exact absurd rfl bar
  · exact absurd rfl carriage
  · exact absurd rfl newLine
  · rfl

/-- A character that is not plain becomes an escaped bar or a blank. -/
theorem cellChar_cases (c : Char) :
    cellChar c = ['\\', '|'] ∨ cellChar c = [' '] ∨ isPlain c = true ∧ cellChar c = [c] := by
  by_cases plain : isPlain c = true
  · exact .inr (.inr ⟨plain, cellChar_of_plain plain⟩)
  · by_cases bar : c = '|'
    · rw [bar]
      exact .inl rfl
    by_cases newLine : c = '\n'
    · rw [newLine]
      exact .inr (.inl rfl)
    by_cases carriage : c = '\r'
    · rw [carriage]
      exact .inr (.inl rfl)
    · exact absurd (isPlain_iff.mpr ⟨bar, newLine, carriage⟩) plain

/-- After escaping no bar is left that would end the cell. -/
theorem barFree_flatMap_cellChar (text : List Char) (escaped : Bool) :
    barFree escaped (text.flatMap cellChar ++ [' ']) = true := by
  induction text generalizing escaped with
  | nil => rfl
  | cons c rest ih =>
    rw [List.flatMap_cons, List.append_assoc]
    rcases cellChar_cases c with bar | blank | ⟨plain, same⟩
    · rw [bar]
      exact ih false
    · rw [blank]
      exact ih false
    · have solid : (c != '|') = true := bne_iff_ne.mpr (isPlain_iff.mp plain).1
      rw [same, List.singleton_append, barFree, solid, Bool.true_or, Bool.true_and]
      exact ih _

/-- Any text at all is safe once it is made a cell. -/
theorem safe_cell (text : String) : Safe (cell text) := by
  unfold cell
  constructor
  · intro escaped
    rw [String.toList_ofList]
    exact barFree_flatMap_cellChar text.toList escaped
  · intro c listed
    rw [String.toList_ofList] at listed
    obtain ⟨source, -, made⟩ := List.mem_flatMap.mp listed
    rcases cellChar_cases source with bar | blank | ⟨plain, same⟩
    · have both : ∀ c ∈ ['\\', '|'], c ≠ '\n' ∧ c ≠ '\r' := by simp
      rw [bar] at made
      exact both c made
    · rw [blank] at made
      rw [List.mem_singleton.mp made]
      decide
    · rw [same] at made
      rw [List.mem_singleton.mp made]
      exact (isPlain_iff.mp plain).2

/-! ## Rows of safe texts -/

/-- A bar behind a text in which none splits ends the first piece. -/
theorem splitBars_append {piece : List Char} {escaped : Bool} (free : barFree escaped piece = true)
    (rest : List Char) :
    splitBars escaped (piece ++ '|' :: rest) = piece :: splitBars false rest := by
  induction piece generalizing escaped with
  | nil =>
    have unescaped : escaped = false := by
      unfold barFree at free
      exact (Bool.not_eq_true' escaped).mp free
    rw [List.nil_append, splitBars, if_pos ⟨rfl, unescaped⟩]
  | cons c piece ih =>
    rw [barFree, Bool.and_eq_true, Bool.or_eq_true] at free
    have kept : ¬ (c = '|' ∧ escaped = false) := by
      intro ⟨bar, unescaped⟩
      rw [bar, unescaped] at free
      rcases free.1 with different | inside
      · exact absurd different (by decide)
      · cases inside
    rw [List.cons_append, splitBars, if_neg kept, ih free.2]

/-- Cells that each end with their bar are split into just these. -/
theorem splitBars_flatMap {cells : List String}
    (free : ∀ text ∈ cells, barFree false text.toList = true) :
    (splitBars false (cells.flatMap fun text => text.toList ++ ['|'])).map String.ofList =
      cells ++ [""] := by
  induction cells with
  | nil => rfl
  | cons text rest ih =>
    have later := ih fun other listed => free other (List.mem_cons_of_mem _ listed)
    rw [List.flatMap_cons, List.append_assoc, List.singleton_append,
      splitBars_append (free text List.mem_cons_self), List.map_cons, String.ofList_toList, later,
      List.cons_append]

/-- A line of cells with bars around them is a row of these cells. -/
theorem isRow_of_barred {line : String} {cells : List String}
    (made : line.toList = '|' :: cells.flatMap fun text => text.toList ++ ['|'])
    (free : ∀ text ∈ cells, barFree false text.toList = true)
    (unbroken : ∀ text ∈ cells, Unbroken text) : IsRow line cells where
  unbroken := by
    intro c listed
    rw [made] at listed
    rcases List.mem_cons.mp listed with rfl | inside
    · decide
    obtain ⟨text, cell, here⟩ := List.mem_flatMap.mp inside
    rcases List.mem_append.mp here with own | bar
    · exact unbroken text cell c own
    · rw [List.mem_singleton.mp bar]
      decide
  pieces := by
    rw [made, splitBars, if_pos ⟨rfl, rfl⟩, List.map_cons, splitBars_flatMap free]
    rfl

/-- A line that grows by one piece for each of some texts. -/
theorem toList_foldl {step : String → String → String} {piece : String → List Char}
    (adds : ∀ line text, (step line text).toList = line.toList ++ piece text)
    (texts : List String) (line : String) :
    (texts.foldl step line).toList = line.toList ++ texts.flatMap piece := by
  induction texts generalizing line with
  | nil => exact (List.append_nil _).symm
  | cons text rest ih => rw [List.foldl_cons, ih, adds, List.append_assoc, List.flatMap_cons]

theorem toList_spaced (text : String) : (spaced text).toList = ' ' :: (text.toList ++ [' ']) := by
  unfold spaced
  simp

/-- A row has one cell for each of its texts, with a blank on either side. -/
theorem isRow_rowText {texts : List String} (safe : ∀ text ∈ texts, Safe text) :
    IsRow (rowText texts) (texts.map spaced) := by
  refine isRow_of_barred ?_ ?_ ?_
  · have adds (line text : String) : (line ++ " " ++ text ++ " |").toList =
        line.toList ++ ((spaced text).toList ++ ['|']) := by
      rw [toList_spaced]
      simp
    unfold rowText
    rw [toList_foldl adds, List.flatMap_map]
    rfl
  · intro cell listed
    obtain ⟨text, member, rfl⟩ := List.mem_map.mp listed
    rw [toList_spaced]
    exact (safe text member).barFree false
  · intro cell listed c inside
    obtain ⟨text, member, rfl⟩ := List.mem_map.mp listed
    rw [toList_spaced] at inside
    rcases List.mem_cons.mp inside with rfl | inside
    · decide
    rcases List.mem_append.mp inside with own | blank
    · exact (safe text member).unbroken c own
    · rw [List.mem_singleton.mp blank]
      decide

/-- The dashes below a heading. -/
def dashes (heading : String) : String :=
  String.ofList (List.replicate (heading.length + 2) '-')

theorem barFree_replicate (count : Nat) :
    barFree false (List.replicate count '-') = true := by
  induction count with
  | zero => rfl
  | succ count ih => exact ih

/-- The rule has a cell of dashes for each heading. -/
theorem isRow_ruleText (headings : List String) :
    IsRow (ruleText headings) (headings.map dashes) := by
  refine isRow_of_barred ?_ ?_ ?_
  · have adds (line heading : String) :
        (line ++ String.ofList (List.replicate (heading.length + 2) '-') ++ "|").toList =
          line.toList ++ ((dashes heading).toList ++ ['|']) := by
      unfold dashes
      simp
    unfold ruleText
    rw [toList_foldl adds, List.flatMap_map]
    rfl
  · intro cell listed
    obtain ⟨heading, -, rfl⟩ := List.mem_map.mp listed
    unfold dashes
    rw [String.toList_ofList]
    exact barFree_replicate _
  · intro cell listed c inside
    obtain ⟨heading, -, rfl⟩ := List.mem_map.mp listed
    unfold dashes at inside
    rw [String.toList_ofList] at inside
    rw [(List.mem_replicate.mp inside).2]
    decide

end RegisterBank.Reference
