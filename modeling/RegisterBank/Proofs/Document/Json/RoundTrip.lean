import RegisterBank.Proofs.Document.Entries
import RegisterBank.Proofs.Document.Json.Tokens
import RegisterBank.Proofs.Document.Plain
import RegisterBank.Proofs.Document.Sorted

/-!
# JSON read back

A plain tree that is written over several lines is read back to the same tree
with its tables sorted, as long as it is not deeper than a reader follows.  The
reader's fuel is three steps for each character left; an item of a list needs a
step of its own besides those of its value, and an entry of a table two, and
both have the line break and the comma in front of them to pay for that.
-/

namespace RegisterBank.Document.Json

/-! ## Blanks -/

theorem isBlank_digit {c : Char} (digit : c.isDigit = true) : isBlank c = false := by
  unfold isBlank
  simp [ne_of_isDigit digit]

theorem skipBlanks_cons {c : Char} (solid : isBlank c = false) (rest : List Char) :
    skipBlanks (c :: rest) = c :: rest := by
  unfold skipBlanks
  rw [List.dropWhile_cons_of_neg (by simp [solid])]

/-- Line breaks and indents between tokens are skipped. -/
theorem skipBlanks_newLine (indent : Nat) (text : List Char) :
    skipBlanks ((newLine indent).toList ++ text) = skipBlanks text := by
  have blank : ∀ c ∈ (newLine indent).toList, isBlank c = true := by
    intro c listed
    have chars : (newLine indent).toList = '\n' :: List.replicate (2 * indent) ' ' := by
      unfold newLine
      simp
    rw [chars] at listed
    rcases List.mem_cons.mp listed with rfl | space
    · rfl
    · rw [List.eq_of_mem_replicate space]
      rfl
  unfold skipBlanks
  exact List.dropWhile_append_of_pos blank

theorem skipBlanks_line {indent : Nat} {c : Char} (solid : isBlank c = false) {rest : List Char} :
    skipBlanks ((newLine indent).toList ++ c :: rest) = c :: rest := by
  rw [skipBlanks_newLine, skipBlanks_cons solid]

/-- Behind the indent a key is found at its quote. -/
theorem skipBlanks_quote (indent : Nat) (key : String) (rest : List Char) :
    skipBlanks ((newLine indent).toList ++ ((quote key).toList ++ rest)) =
      '"' :: (escaped key.toList ++ '"' :: rest) := by
  rw [skipBlanks_newLine, toList_quote, List.cons_append, List.append_assoc,
    skipBlanks_cons rfl]
  rfl

theorem skipColon_cons (text : List Char) : skipColon (':' :: text) = .ok text := rfl

/-- A value may stand behind a blank. -/
theorem readValue_blank (fuel depth : Nat) (text : List Char) :
    readValue (fuel + 1) depth (' ' :: text) = readValue (fuel + 1) depth text := by
  have skipped : skipBlanks (' ' :: text) = skipBlanks text := rfl
  rw [readValue, readValue, skipped]

/-- A digit leads the reader to numbers. -/
theorem readValue_digit (fuel depth : Nat) {c : Char} (digit : c.isDigit = true)
    (rest : List Char) :
    readValue (fuel + 1) depth (c :: rest) = readNumber false (c :: rest) := by
  have solid : isBlank c = false := isBlank_digit digit
  rw [readValue, skipBlanks_cons solid]
  split <;> rename_i start <;> cases start <;> first | exact absurd digit (by decide) | skip
  rw [if_pos digit]

/-- Digits are read as a number, whatever comes behind them. -/
theorem readValue_decimal (fuel depth value : Nat) (rest : List Char) :
    readValue (fuel + 1) depth (decimal value ++ rest) =
      readNumber false (decimal value ++ rest) := by
  rcases List.exists_cons_of_ne_nil (decimal_ne_nil value) with ⟨c, others, start⟩
  have digit : c.isDigit = true :=
    isDigit_of_mem_decimal value c (by rw [start]; exact List.mem_cons_self)
  rw [start, List.cons_append]
  exact readValue_digit fuel depth digit _

theorem readValue_bool (fuel depth : Nat) (value : Bool) (rest : List Char) :
    readValue (fuel + 1) depth ((toString value).toList ++ rest) = .ok (.bool value, rest) := by
  cases value with
  | false =>
    show readValue (fuel + 1) depth ('f' :: ("alse".toList ++ rest)) = _
    rw [readValue, skipBlanks_cons rfl]
    rfl
  | true =>
    show readValue (fuel + 1) depth ('t' :: ("rue".toList ++ rest)) = _
    rw [readValue, skipBlanks_cons rfl]
    rfl

/-- Texts are read back where the fuel is enough for their characters. -/
theorem readValue_quote {fuel : Nat} (depth : Nat) (text : String) (rest : List Char)
    (enough : (quote text).toList.length ≤ fuel + 1) :
    readValue (fuel + 1) depth ((quote text).toList ++ rest) = .ok (.text text, rest) := by
  have read := readText_quote text rest enough
  rw [toList_quote, List.cons_append, List.append_assoc, readValue, skipBlanks_cons rfl]
  simp only [List.singleton_append, read]
  rfl

/-! ## Steps through lists and tables -/

section Steps

variable {fuel depth : Nat} {text after rest : List Char} {c : Char} {item : Tree}

theorem readValue_list (text : List Char) :
    readValue (fuel + 1) (depth + 1) ('[' :: text) = readItems fuel depth true [] text := by
  rw [readValue, skipBlanks_cons rfl]
  simp

theorem readValue_table (text : List Char) :
    readValue (fuel + 1) (depth + 1) ('\x7b' :: text) = readEntries fuel depth true [] text := by
  rw [readValue, skipBlanks_cons rfl]
  simp

/-- An empty list has its brackets side by side. -/
theorem readItems_none :
    readItems (fuel + 1) depth true [] (']' :: rest) = .ok (.list [], rest) := by
  rw [readItems, skipBlanks_cons rfl]
  rfl

/-- The first element has no comma in front. -/
theorem readItems_first (done : List Tree) (start : skipBlanks text = c :: rest) (inside : c ≠ ']')
    (read : readValue fuel depth (c :: rest) = .ok (item, after)) :
    readItems (fuel + 1) depth true done text =
      readItems fuel depth false (item :: done) after := by
  rw [readItems, start]
  simp [read]

/-- Each later element has a comma in front. -/
theorem readItems_next (done : List Tree) (start : skipBlanks text = c :: rest) (inside : c ≠ ']')
    (read : readValue fuel depth (c :: rest) = .ok (item, after)) :
    readItems (fuel + 1) depth false done (',' :: text) =
      readItems fuel depth false (item :: done) after := by
  rw [readItems, skipBlanks_cons rfl]
  simp [start, inside, read]

/-- A line break and the bracket end the list. -/
theorem readItems_last (done : List Tree) (indent : Nat) :
    readItems (fuel + 1) depth false done ((newLine indent).toList ++ ']' :: rest) =
      .ok (.list done.reverse, rest) := by
  rw [readItems, skipBlanks_newLine, skipBlanks_cons rfl]
  rfl

/-- An empty table has its braces side by side. -/
theorem readEntries_none :
    readEntries (fuel + 1) depth true [] ('\x7d' :: rest) = .ok (.table [], rest) := by
  rw [readEntries, skipBlanks_cons rfl]
  rfl

/-- The first entry starts with its key. -/
theorem readEntries_first (done : List (String × Tree)) (start : skipBlanks text = '"' :: rest) :
    readEntries (fuel + 1) depth true done text = readEntry fuel depth done rest := by
  rw [readEntries, start]
  simp

/-- Each later entry has a comma in front. -/
theorem readEntries_next (done : List (String × Tree)) (start : skipBlanks text = '"' :: rest) :
    readEntries (fuel + 1) depth false done (',' :: text) = readEntry fuel depth done rest := by
  rw [readEntries, skipBlanks_cons rfl]
  simp [start]

theorem readEntries_last (done : List (String × Tree)) (indent : Nat) :
    readEntries (fuel + 1) depth false done ((newLine indent).toList ++ '\x7d' :: rest) =
      .ok (.table done, rest) := by
  rw [readEntries, skipBlanks_newLine, skipBlanks_cons rfl]
  rfl

/-- An entry that is read is put among those before it, under its key. -/
theorem readEntry_quote (done : List (String × Tree)) (key : String)
    (enough : (quote key).toList.length ≤ fuel + 1)
    (read : readValue fuel depth text = .ok (item, after)) :
    readEntry (fuel + 1) depth done (escaped key.toList ++ '"' :: ':' :: text) =
      readEntries fuel depth false (insertEntry key item done) after := by
  rw [readEntry, readText_quote key _ enough]
  simp [skipColon_cons, read]

end Steps

/-! ## Written trees -/

section Written

variable (indent : Nat) (key : String) (value item : Tree)

/-- A list is printed with each element on its own line, one step further in. -/
theorem toList_indented_list (rest : List Tree) :
    (indented indent (.list (item :: rest))).toList =
      '[' :: ((newLine (indent + 1)).toList ++ ((indented (indent + 1) item).toList ++
        ((indentedItems (indent + 1) rest).toList ++ ((newLine indent).toList ++ [']'])))) := by
  rw [indented]
  simp [List.append_assoc]

theorem toList_indentedItems (rest : List Tree) :
    (indentedItems indent (item :: rest)).toList =
      ',' :: ((newLine indent).toList ++ ((indented indent item).toList ++
        (indentedItems indent rest).toList)) := by
  rw [indentedItems]
  simp [List.append_assoc]

/-- A table is printed with each entry on its own line, one step further in. -/
theorem toList_indented_table (rest : List (String × Tree)) :
    (indented indent (.table ((key, value) :: rest))).toList =
      '\x7b' :: ((newLine (indent + 1)).toList ++ ((quote key).toList ++ (':' :: ' ' ::
        ((indented (indent + 1) value).toList ++ ((indentedEntries (indent + 1) rest).toList ++
          ((newLine indent).toList ++ ['\x7d'])))))) := by
  rw [indented]
  simp [List.append_assoc]

theorem toList_indentedEntries (rest : List (String × Tree)) :
    (indentedEntries indent ((key, value) :: rest)).toList =
      ',' :: ((newLine indent).toList ++ ((quote key).toList ++ (':' :: ' ' ::
        ((indented indent value).toList ++ (indentedEntries indent rest).toList)))) := by
  rw [indentedEntries]
  simp [List.append_assoc]

end Written

/-- A plain tree starts with a character that neither stands between values
nor ends a list. -/
theorem indented_head (indent : Nat) {tree : Tree} (plain : tree.Plain) :
    ∃ c rest, (indented indent tree).toList = c :: rest ∧ isBlank c = false ∧ c ≠ ']' := by
  cases tree with
  | null => exact absurd plain id
  | float => exact absurd plain id
  | bool value =>
    cases value with
    | false => exact ⟨'f', "alse".toList, by rw [indented]; rfl, by decide, by decide⟩
    | true => exact ⟨'t', "rue".toList, by rw [indented]; rfl, by decide, by decide⟩
  | text value =>
    exact ⟨'"', _, by rw [indented]; exact toList_quote value, by decide, by decide⟩
  | int value =>
    rcases Int.eq_ofNat_of_zero_le plain.1 with ⟨value, rfl⟩
    rcases List.exists_cons_of_ne_nil (decimal_ne_nil value) with ⟨c, rest, start⟩
    have digit : c.isDigit = true :=
      isDigit_of_mem_decimal value c (by rw [start]; exact List.mem_cons_self)
    refine ⟨c, rest, ?_, isBlank_digit digit, ne_of_isDigit digit rfl⟩
    rw [← start, indented]
    exact toList_toString_ofNat value
  | list items =>
    cases items with
    | nil => exact ⟨'[', [']'], by rw [indented]; rfl, by decide, by decide⟩
    | cons item rest => exact ⟨'[', _, toList_indented_list indent item rest, by decide, by decide⟩
  | table entries =>
    cases entries with
    | nil => exact ⟨'\x7b', ['\x7d'], by rw [indented]; rfl, by decide, by decide⟩
    | cons entry rest =>
      exact ⟨'\x7b', _, toList_indented_table indent entry.1 entry.2 rest, by decide, by decide⟩

/-- A line break ends a number. -/
theorem ends_newLine (indent : Nat) (rest : List Char) :
    Ends ((newLine indent).toList ++ rest) := by
  have chars : (newLine indent).toList ++ rest =
      '\n' :: (List.replicate (2 * indent) ' ' ++ rest) := by
    unfold newLine
    simp
  rw [chars]
  exact ends_cons (Or.inr rfl) _

/-- Elements that follow start with a comma, which ends a number. -/
theorem ends_indentedItems (indent : Nat) (items : List Tree) {rest : List Char}
    (ends : Ends rest) : Ends ((indentedItems indent items).toList ++ rest) := by
  cases items with
  | nil =>
    rw [indentedItems]
    exact ends
  | cons item others =>
    rw [toList_indentedItems, List.cons_append]
    exact ends_cons (Or.inl rfl) _

theorem ends_indentedEntries (indent : Nat) (entries : List (String × Tree)) {rest : List Char}
    (ends : Ends rest) : Ends ((indentedEntries indent entries).toList ++ rest) := by
  cases entries with
  | nil =>
    rw [indentedEntries]
    exact ends
  | cons entry others =>
    rw [toList_indentedEntries, List.cons_append]
    exact ends_cons (Or.inl rfl) _

/-! ## Trees read back -/

/-- What reading makes of a written tree: the sorted tree, and the text behind
it.  A value takes at most three steps for each of its characters. -/
def Restored (tree : Tree) : Prop :=
  ∀ (indent fuel depth : Nat) (rest : List Char), tree.Plain → tree.depth ≤ depth →
    3 * (indented indent tree).toList.length ≤ fuel → Ends rest →
    readValue fuel depth ((indented indent tree).toList ++ rest) = .ok (tree.sorted, rest)

section Containers

variable (indent outer fuel depth : Nat)

/-- The items of a list are read back up to its end. -/
theorem readItems_indented {items : List Tree} (restored : ∀ item ∈ items, Restored item)
    (done : List Tree) (rest : List Char) (plain : ItemsPlain items)
    (shallow : itemsDepth items ≤ depth)
    (enough : 3 * (indentedItems indent items).toList.length + 1 ≤ fuel) :
    readItems fuel depth false done ((indentedItems indent items).toList ++
      ((newLine outer).toList ++ ']' :: rest)) =
      .ok (.list (done.reverse ++ sortedItems items), rest) := by
  induction items generalizing fuel done with
  | nil =>
    obtain ⟨fuel, rfl⟩ : ∃ less, fuel = less + 1 := ⟨fuel - 1, by omega⟩
    rw [indentedItems, sortedItems, List.append_nil]
    exact readItems_last done outer
  | cons item items ih =>
    obtain ⟨fuel, rfl⟩ : ∃ less, fuel = less + 1 := ⟨fuel - 1, by omega⟩
    rcases indented_head indent plain.1 with ⟨head, tail, start, solid, inside⟩
    rw [itemsDepth] at shallow
    rw [toList_indentedItems] at enough ⊢
    simp only [List.length_cons, List.length_append] at enough
    have ends : Ends ((indentedItems indent items).toList ++
        ((newLine outer).toList ++ ']' :: rest)) :=
      ends_indentedItems indent items (ends_newLine outer _)
    have first := restored item List.mem_cons_self indent fuel depth _ plain.1 (by omega) (by omega)
      ends
    have others := ih fuel (fun other listed => restored other (List.mem_cons_of_mem item listed))
      (item.sorted :: done) plain.2 (by omega) (by omega)
    rw [start, List.cons_append] at first
    simp only [start, List.cons_append, List.append_assoc]
    rw [readItems_next done (skipBlanks_line solid) inside first, others, List.reverse_cons,
      List.append_assoc]
    rfl

/-- An entry of a table is read back behind the quote that opens its key. -/
theorem readEntry_indented {value : Tree} (restored : Restored value) (key : String)
    (done : List (String × Tree)) {rest : List Char} (plain : value.Plain)
    (shallow : value.depth ≤ depth) (ends : Ends rest)
    (enough : 3 * ((quote key).toList.length + (indented indent value).toList.length) ≤ fuel) :
    readEntry (fuel + 1) depth done (escaped key.toList ++ '"' :: ':' :: ' ' ::
      ((indented indent value).toList ++ rest)) =
      readEntries fuel depth false (insertEntry key value.sorted done) rest := by
  have quotes : 2 ≤ (quote key).toList.length := by
    rw [toList_quote]
    simp
  obtain ⟨fuel, rfl⟩ : ∃ less, fuel = less + 1 := ⟨fuel - 1, by omega⟩
  have read := restored indent (fuel + 1) depth rest plain shallow (by omega) ends
  rw [← readValue_blank] at read
  exact readEntry_quote done key (by omega) read

/-- The entries of a table are read back up to its end. -/
theorem readEntries_indented {entries : List (String × Tree)}
    (restored : ∀ entry ∈ entries, Restored entry.2) (done : List (String × Tree))
    (rest : List Char) (plain : EntriesPlain entries) (shallow : entriesDepth entries ≤ depth)
    (enough : 3 * (indentedEntries indent entries).toList.length + 1 ≤ fuel) :
    readEntries fuel depth false done ((indentedEntries indent entries).toList ++
      ((newLine outer).toList ++ '\x7d' :: rest)) =
      .ok (.table (extended done (sortedEntries entries)), rest) := by
  induction entries generalizing fuel done with
  | nil =>
    obtain ⟨fuel, rfl⟩ : ∃ less, fuel = less + 1 := ⟨fuel - 1, by omega⟩
    rw [indentedEntries]
    exact readEntries_last done outer
  | cons entry entries ih =>
    obtain ⟨key, value⟩ := entry
    rw [entriesDepth] at shallow
    rw [toList_indentedEntries] at enough ⊢
    simp only [List.length_cons, List.length_append] at enough
    obtain ⟨fuel, rfl⟩ : ∃ less, fuel = less + 2 := ⟨fuel - 2, by omega⟩
    have ends : Ends ((indentedEntries indent entries).toList ++
        ((newLine outer).toList ++ '\x7d' :: rest)) :=
      ends_indentedEntries indent entries (ends_newLine outer _)
    have inside : Restored value := restored (key, value) List.mem_cons_self
    have first := readEntry_indented indent fuel depth inside key done plain.1 (by omega) ends
      (by omega)
    have others := ih fuel (fun other listed => restored other (List.mem_cons_of_mem _ listed))
      (insertEntry key value.sorted done) plain.2 (by omega) (by omega)
    simp only [List.cons_append, List.append_assoc]
    rw [readEntries_next done (skipBlanks_quote indent key _), first, others]
    rfl

/-- A list with restored items is restored. -/
theorem restored_list {items : List Tree} (restored : ∀ item ∈ items, Restored item) :
    Restored (.list items) := by
  intro indent fuel depth rest plain shallow enough ends
  rw [Tree.depth] at shallow
  obtain ⟨depth, rfl⟩ : ∃ less, depth = less + 1 := ⟨depth - 1, by omega⟩
  cases items with
  | nil =>
    rw [indented] at enough ⊢
    obtain ⟨fuel, rfl⟩ : ∃ less, fuel = less + 2 := ⟨fuel - 2, by simp at enough; omega⟩
    show readValue (fuel + 2) (depth + 1) ('[' :: ']' :: rest) = _
    rw [readValue_list, readItems_none]
    rfl
  | cons item items =>
    rcases indented_head (indent + 1) plain.1 with ⟨head, tail, start, solid, inside⟩
    rw [itemsDepth] at shallow
    rw [toList_indented_list] at enough ⊢
    simp only [List.length_cons, List.length_append] at enough
    obtain ⟨fuel, rfl⟩ : ∃ less, fuel = less + 2 := ⟨fuel - 2, by omega⟩
    have behind : Ends ((indentedItems (indent + 1) items).toList ++
        ((newLine indent).toList ++ ']' :: rest)) :=
      ends_indentedItems (indent + 1) items (ends_newLine indent _)
    have first := restored item List.mem_cons_self (indent + 1) fuel depth _ plain.1 (by omega)
      (by omega) behind
    have others := readItems_indented (indent + 1) indent fuel depth
      (fun other listed => restored other (List.mem_cons_of_mem item listed))
      [item.sorted] rest plain.2 (by omega) (by omega)
    rw [start, List.cons_append] at first
    simp only [List.cons_append, List.append_assoc, List.nil_append, start]
    rw [readValue_list, readItems_first [] (skipBlanks_line solid) inside first, others]
    rfl

/-- A table with restored values is restored. -/
theorem restored_table {entries : List (String × Tree)}
    (restored : ∀ entry ∈ entries, Restored entry.2) : Restored (.table entries) := by
  intro indent fuel depth rest plain shallow enough ends
  rw [Tree.depth] at shallow
  obtain ⟨depth, rfl⟩ : ∃ less, depth = less + 1 := ⟨depth - 1, by omega⟩
  cases entries with
  | nil =>
    rw [indented] at enough ⊢
    obtain ⟨fuel, rfl⟩ : ∃ less, fuel = less + 2 := ⟨fuel - 2, by simp at enough; omega⟩
    show readValue (fuel + 2) (depth + 1) ('\x7b' :: '\x7d' :: rest) = _
    rw [readValue_table, readEntries_none]
    rfl
  | cons entry entries =>
    obtain ⟨key, value⟩ := entry
    rw [entriesDepth] at shallow
    rw [toList_indented_table] at enough ⊢
    simp only [List.length_cons, List.length_append] at enough
    obtain ⟨fuel, rfl⟩ : ∃ less, fuel = less + 3 := ⟨fuel - 3, by omega⟩
    have behind : Ends ((indentedEntries (indent + 1) entries).toList ++
        ((newLine indent).toList ++ '\x7d' :: rest)) :=
      ends_indentedEntries (indent + 1) entries (ends_newLine indent _)
    have inside : Restored value := restored (key, value) List.mem_cons_self
    have first := readEntry_indented (indent + 1) fuel depth inside key [] plain.1 (by omega)
      behind (by omega)
    have others := readEntries_indented (indent + 1) indent fuel depth
      (fun other listed => restored other (List.mem_cons_of_mem _ listed))
      (insertEntry key value.sorted []) rest plain.2 (by omega) (by omega)
    simp only [List.cons_append, List.append_assoc, List.nil_append]
    rw [readValue_table, readEntries_first [] (skipBlanks_quote (indent + 1) key _), first, others]
    rfl

end Containers

/-- Integers of a plain tree, which both formats hold, are read back. -/
theorem restored_int (value : Int) : Restored (.int value) := by
  intro indent fuel depth rest plain shallow enough ends
  rcases Int.eq_ofNat_of_zero_le plain.1 with ⟨value, rfl⟩
  have below : value < Nat.pow 2 63 := Int.ofNat_lt.mp plain.2
  have small : value < Text.integerLimit :=
    Nat.lt_trans below (Nat.pow_lt_pow_right (by decide) (by decide))
  have digits : (indented indent (.int (value : Int))).toList = decimal value := by
    rw [indented]
    exact toList_toString_ofNat value
  rw [digits] at enough ⊢
  have filled := List.length_pos_iff.mpr (decimal_ne_nil value)
  obtain ⟨fuel, rfl⟩ : ∃ less, fuel = less + 1 := ⟨fuel - 1, by omega⟩
  rw [readValue_decimal, readNumber_decimal small ends]
  rfl

/-- All trees are restored, the items of a list and the values of a table first. -/
theorem restored (tree : Tree) : Restored tree := by
  induction tree using Tree.induct with
  | step tree inner =>
    cases tree with
    | list items => exact restored_list inner
    | table entries =>
      refine restored_table ?_
      intro entry listed
      exact inner entry.2 (List.mem_map_of_mem listed)
    | int value => exact restored_int value
    | bool value =>
      intro indent fuel depth rest plain shallow enough ends
      rw [indented] at enough ⊢
      have filled : 0 < (toString value).toList.length := by cases value <;> decide
      obtain ⟨fuel, rfl⟩ : ∃ less, fuel = less + 1 := ⟨fuel - 1, by omega⟩
      exact readValue_bool fuel depth value rest
    | text value =>
      intro indent fuel depth rest plain shallow enough ends
      rw [indented] at enough ⊢
      have filled : 0 < (quote value).toList.length := by
        rw [toList_quote]
        exact Nat.succ_pos _
      obtain ⟨fuel, rfl⟩ : ∃ less, fuel = less + 1 := ⟨fuel - 1, by omega⟩
      exact readValue_quote depth value rest (by omega)
    | null =>
      intro indent fuel depth rest plain
      exact absurd plain id
    | float value =>
      intro indent fuel depth rest plain
      exact absurd plain id

/-- A plain tree is read back from its text and nothing but blanks behind it, its
tables sorted. -/
theorem read_render {tree : Tree} (plain : tree.Plain) (shallow : tree.depth ≤ depthLimit)
    {behind : String} (ends : Ends behind.toList) (blank : skipBlanks behind.toList = []) :
    read (render tree ++ behind) = .ok tree.sorted := by
  have chars : (render tree ++ behind).toList = (indented 0 tree).toList ++ behind.toList :=
    String.toList_append
  have read : readValue (3 * (render tree ++ behind).toList.length + 3) depthLimit
      ((indented 0 tree).toList ++ behind.toList) = .ok (tree.sorted, behind.toList) := by
    refine restored tree 0 _ depthLimit _ plain shallow ?_ ends
    rw [chars, List.length_append]
    omega
  unfold Json.read readAll
  rw [chars] at read ⊢
  rw [read]
  simp only [blank]

end RegisterBank.Document.Json
