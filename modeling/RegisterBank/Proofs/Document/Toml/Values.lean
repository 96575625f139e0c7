import RegisterBank.Document.Toml.Reader
import RegisterBank.Proofs.Document.Placed
import RegisterBank.Proofs.Document.Toml.Numbers

/-!
# Values read back from TOML

The values that stand on the line of their key: truth values, texts, integers,
and lists of these.  From one value to a value inside it the reader takes four
steps, and the fuel allows four for each character.
-/

namespace RegisterBank.Document

namespace Toml

/-! ## Blanks and line breaks around values -/

/-- Characters that start a value. -/
def IsStart (c : Char) : Prop :=
  isBlank c = false ∧ c ≠ '#' ∧ c ≠ '\n' ∧ c ≠ '\r' ∧ c ≠ ']'

theorem skipBlanks_solid {c : Char} (solid : isBlank c = false) (rest : List Char) :
    skipBlanks (c :: rest) = c :: rest := by
  unfold skipBlanks
  exact List.dropWhile_cons_of_neg (by simp [solid])

/-- Comments, blanks and line breaks are all that is skipped between values. -/
theorem skipLines_solid {c : Char} (solid : isBlank c = false ∧ c ≠ '#' ∧ c ≠ '\n' ∧ c ≠ '\r')
    (fuel : Nat) (rest : List Char) : skipLines fuel (c :: rest) = .ok (c :: rest) := by
  obtain ⟨dark, hash, line, carriage⟩ := solid
  cases fuel with
  | zero => rfl
  | succ fuel =>
    rw [skipLines, skipBlanks_solid dark]
    split
    · rename_i same
      exact absurd (List.cons.inj same).1 hash
    · rename_i same
      exact absurd (List.cons.inj same).1 line
    · rename_i same
      exact absurd (List.cons.inj same).1 carriage
    · rfl

theorem skipLines_blank (fuel : Nat) (text : List Char) :
    skipLines (fuel + 1) (' ' :: text) = skipLines (fuel + 1) text := by
  have skipped : skipBlanks (' ' :: text) = skipBlanks text := rfl
  rw [skipLines, skipLines, skipped]

/-! ## Starts of values -/

/-- A digit starts a value. -/
theorem isStart_of_isDigit {c : Char} (digit : c.isDigit = true) : IsStart c := by
  refine ⟨?_, ne_of_isDigit digit rfl, ne_of_isDigit digit rfl,
    ne_of_isDigit digit rfl, ne_of_isDigit digit rfl⟩
  unfold isBlank
  simp [ne_of_isDigit digit]

/-- All forms of a text start with a quote. -/
theorem textLiteral_head (text : String) :
    ∃ c rest, (textLiteral text).toList = c :: rest ∧ (c = '"' ∨ c = '\'') := by
  unfold textLiteral
  simp only
  cases textForm text.toList with
  | basic => exact ⟨'"', _, by simp; rfl, Or.inl rfl⟩
  | literal => exact ⟨'\'', _, by simp; rfl, Or.inr rfl⟩
  | basicLines => exact ⟨'"', _, by simp; rfl, Or.inl rfl⟩
  | literalLines => exact ⟨'\'', _, by simp; rfl, Or.inr rfl⟩

/-- The first character of a value is no blank, comment or bracket that
closes. -/
theorem valueLiteral_head {tree : Tree} (inline : tree.Inline) :
    ∃ c rest, (valueLiteral tree).toList = c :: rest ∧ IsStart c := by
  cases inline with
  | bool value =>
    cases value with
    | false => exact ⟨'f', "alse".toList, by rw [valueLiteral]; rfl, by unfold IsStart; decide⟩
    | true => exact ⟨'t', "rue".toList, by rw [valueLiteral]; rfl, by unfold IsStart; decide⟩
  | int =>
    rename_i value _
    rcases List.exists_cons_of_ne_nil (decimal_ne_nil value) with ⟨c, rest, start⟩
    refine ⟨c, rest, ?_, isStart_of_isDigit (isDigit_of_mem_decimal value c ?_)⟩
    · rw [← start, valueLiteral]
      exact toList_toString_ofNat value
    · rw [start]
      exact List.mem_cons_self
  | text value =>
    rcases textLiteral_head value with ⟨c, rest, start, rfl | rfl⟩
    · exact ⟨'"', rest, by rw [valueLiteral, start], by unfold IsStart; decide⟩
    · exact ⟨'\'', rest, by rw [valueLiteral, start], by unfold IsStart; decide⟩
  | list => exact ⟨'[', _, by rw [valueLiteral]; simp; rfl, by unfold IsStart; decide⟩

/-! ## Values without items -/

section Values

variable {rest : List Char}

/-- The first quote leads the reader to texts. -/
theorem value_text (text : String) {fuel : Nat} (depth : Nat) (ends : Ends rest)
    (enough : (textLiteral text).toList.length ≤ fuel) :
    value (fuel + 1) depth ((textLiteral text).toList ++ rest) = .ok (.text text, rest) := by
  have read := quotedText_textLiteral text ends (Nat.lt_of_lt_of_le (length_lt_textLiteral text) enough)
  rcases textLiteral_head text with ⟨c, more, start, quote⟩
  rw [start, List.cons_append] at read ⊢
  rw [value, if_pos quote, read]
  rfl

/-- The first digit leads the reader to numbers. -/
theorem value_digit {c : Char} (digit : c.isDigit = true) (fuel depth : Nat) (text : List Char) :
    value (fuel + 1) depth (c :: text) = number (c :: text) := by
  have double : c ≠ '"' := ne_of_isDigit digit rfl
  have single : c ≠ '\'' := ne_of_isDigit digit rfl
  have bracket : c ≠ '[' := ne_of_isDigit digit rfl
  have brace : c ≠ '\x7b' := ne_of_isDigit digit rfl
  rw [value, if_neg (by simp [double, single]), if_neg bracket, if_neg brace,
    if_pos (Or.inr (Or.inr digit))]

/-- Numbers are read back where the format can hold them. -/
theorem value_decimal {number : Nat} (small : number < Nat.pow 2 63) (fuel depth : Nat)
    (ends : Ends rest) :
    value (fuel + 1) depth (decimal number ++ rest) = .ok (.int number, rest) := by
  have read := number_decimal small ends
  rcases List.exists_cons_of_ne_nil (decimal_ne_nil number) with ⟨c, more, start⟩
  have digit : c.isDigit = true :=
    isDigit_of_mem_decimal number c (by rw [start]; exact List.mem_cons_self)
  rw [start, List.cons_append] at read ⊢
  rw [value_digit digit, read]

theorem value_bool (truth : Bool) (fuel depth : Nat) :
    value (fuel + 1) depth ((toString truth).toList ++ rest) = .ok (.bool truth, rest) := by
  cases truth with
  | false =>
    show value (fuel + 1) depth ('f' :: ("alse".toList ++ rest)) = _
    rw [value]
    rfl
  | true =>
    show value (fuel + 1) depth ('t' :: ("rue".toList ++ rest)) = _
    rw [value]
    rfl

end Values

/-! ## Arrays -/

/-- The items of an array behind the first. -/
def laterItems (items : List Tree) : List Char :=
  items.flatMap fun item => ',' :: ' ' :: (valueLiteral item).toList

/-- Elements behind the first have a comma and a blank in front. -/
theorem toList_itemLiterals (item : Tree) (items : List Tree) :
    (itemLiterals (item :: items)).toList = (valueLiteral item).toList ++ laterItems items := by
  induction items generalizing item with
  | nil =>
    rw [itemLiterals]
    exact (List.append_nil _).symm
  | cons next items ih =>
    rw [itemLiterals, String.toList_append, String.toList_append, ih next, List.append_assoc]
    rfl

/-- What reading makes of a written value: the value, and the text behind it. -/
def Restored (tree : Tree) : Prop :=
  ∀ (fuel depth : Nat) (rest : List Char), tree.depth ≤ depth →
    4 * (valueLiteral tree).toList.length ≤ fuel → Ends rest →
    value fuel depth ((valueLiteral tree).toList ++ rest) = .ok (tree, rest)

/-- What stands behind an item of an array. -/
def Closes (rest : List Char) : Prop := ∃ c more, rest = c :: more ∧ (c = ',' ∨ c = ']')

section Arrays

variable {depth : Nat} {text after rest : List Char} {item latest : Tree} {earlier : List Tree}

/-- Both a comma and the closing bracket end a value. -/
theorem Closes.ends (closes : Closes rest) : Ends rest := by
  rcases closes with ⟨c, more, rfl, comma | bracket⟩
  · exact ⟨c, more, rfl, Or.inl comma⟩
  · exact ⟨c, more, rfl, Or.inr (Or.inl bracket)⟩

theorem Closes.skipLines (closes : Closes rest) (fuel : Nat) :
    Toml.skipLines fuel rest = .ok rest := by
  rcases closes with ⟨c, more, rfl, rfl | rfl⟩
  · exact skipLines_solid (by decide) fuel more
  · exact skipLines_solid (by decide) fuel more

/-- Behind an element there is a comma, or the array is closed. -/
theorem closes_laterItems (items : List Tree) (rest : List Char) :
    Closes (laterItems items ++ ']' :: rest) := by
  cases items with
  | nil => exact ⟨']', rest, rfl, Or.inr rfl⟩
  | cons item items => exact ⟨',', _, rfl, Or.inl rfl⟩

/-- The first element of an array has no comma in front. -/
theorem elements_first {fuel : Nat} (read : element fuel depth text = .ok (item, after)) :
    elements (fuel + 1) depth [] text = elements fuel depth [item] after := by
  rw [elements]
  simp only [read]

/-- Each comma is followed by one more element. -/
theorem elements_next {fuel : Nat} (read : element fuel depth text = .ok (item, after)) :
    elements (fuel + 1) depth (latest :: earlier) (',' :: text) =
      elements fuel depth (item :: latest :: earlier) after := by
  rw [elements]
  · simp only [read]
  · exact fun none => absurd none (List.cons_ne_nil _ _)

/-- The closing bracket ends the list and is left to the array. -/
theorem elements_last (fuel : Nat) :
    elements fuel depth (latest :: earlier) (']' :: rest) =
      .ok ((latest :: earlier).reverse, ']' :: rest) := by
  cases fuel with
  | zero => rw [elements]
  | succ fuel =>
    rw [elements]
    · exact fun none => absurd none (List.cons_ne_nil _ _)
    · intro after same
      exact absurd (List.cons.inj same).1 (by decide)

/-- An element of an array is read back, with or without a blank before it. -/
theorem element_restored (inline : item.Inline) (restored : Restored item) (fuel : Nat)
    (shallow : item.depth ≤ depth) (enough : 4 * (valueLiteral item).toList.length ≤ fuel)
    (closes : Closes rest) :
    element (fuel + 1) depth ((valueLiteral item).toList ++ rest) = .ok (item, rest) ∧
      element (fuel + 1) depth (' ' :: ((valueLiteral item).toList ++ rest)) = .ok (item, rest) := by
  have read := restored fuel depth rest shallow enough closes.ends
  have behind := closes.skipLines fuel
  rcases valueLiteral_head inline with ⟨c, more, start, solid⟩
  rw [start] at enough
  obtain ⟨fuel, rfl⟩ : ∃ less, fuel = less + 1 := ⟨fuel - 1, by simp at enough; omega⟩
  have plain := skipLines_solid ⟨solid.1, solid.2.1, solid.2.2.1, solid.2.2.2.1⟩ (fuel + 1)
    (more ++ rest)
  have blank := skipLines_blank fuel (c :: (more ++ rest))
  rw [plain] at blank
  rw [start, List.cons_append] at read ⊢
  refine ⟨?_, ?_⟩
  · rw [element, plain]
    simp only [read, behind]
    rfl
  · rw [element, blank]
    simp only [read, behind]
    rfl

/-- The later items of an array are read back up to its end. -/
theorem elements_laterItems {items : List Tree} (inline : ∀ item ∈ items, item.Inline)
    (restored : ∀ item ∈ items, Restored item) (latest : Tree) (earlier : List Tree) (fuel : Nat)
    (rest : List Char) (shallow : itemsDepth items ≤ depth)
    (enough : 4 * (laterItems items).length ≤ fuel) :
    elements fuel depth (latest :: earlier) (laterItems items ++ ']' :: rest) =
      .ok ((latest :: earlier).reverse ++ items, ']' :: rest) := by
  induction items generalizing fuel latest earlier with
  | nil =>
    rw [List.append_nil]
    exact elements_last fuel
  | cons item items ih =>
    have split : laterItems (item :: items) =
        ',' :: ' ' :: ((valueLiteral item).toList ++ laterItems items) := by
      unfold laterItems
      rw [List.flatMap_cons, List.cons_append, List.cons_append]
    rw [itemsDepth] at shallow
    rw [split, List.length_cons, List.length_cons, List.length_append] at enough
    obtain ⟨fuel, rfl⟩ : ∃ less, fuel = less + 2 := ⟨fuel - 2, by omega⟩
    have here : item.depth ≤ depth := by omega
    have read := (element_restored (inline item List.mem_cons_self)
      (restored item List.mem_cons_self) fuel here (by omega) (closes_laterItems items rest)).2
    have others := ih (fun other listed => inline other (List.mem_cons_of_mem item listed))
      (fun other listed => restored other (List.mem_cons_of_mem item listed))
      item (latest :: earlier) (fuel + 1) (by omega) (by omega)
    rw [split, List.cons_append, List.cons_append, List.append_assoc, elements_next read, others,
      List.reverse_cons, List.append_assoc]
    rfl

/-- A list with restored items is restored. -/
theorem restored_list {items : List Tree} (inline : ∀ item ∈ items, item.Inline)
    (restored : ∀ item ∈ items, Restored item) : Restored (.list items) := by
  intro fuel depth rest shallow enough ends
  rw [Tree.depth] at shallow
  obtain ⟨depth, rfl⟩ : ∃ less, depth = less + 1 := ⟨depth - 1, by omega⟩
  have opened : ∀ (fuel : Nat) (text : List Char),
      value (fuel + 1) (depth + 1) ('[' :: text) = array fuel depth text := by
    intro fuel text
    rw [value]
    simp
  rw [valueLiteral] at enough ⊢
  cases items with
  | nil =>
    obtain ⟨fuel, rfl⟩ : ∃ less, fuel = less + 2 := ⟨fuel - 2, by
      rw [itemLiterals] at enough
      simp at enough
      omega⟩
    rw [itemLiterals]
    show value (fuel + 2) (depth + 1) ('[' :: ']' :: rest) = _
    rw [opened, array]
  | cons item items =>
    have chars : ("[" ++ itemLiterals (item :: items) ++ "]").toList ++ rest =
        '[' :: ((valueLiteral item).toList ++ (laterItems items ++ ']' :: rest)) := by
      simp only [String.toList_append, toList_itemLiterals]
      simp
    have lengths : ("[" ++ itemLiterals (item :: items) ++ "]").toList.length =
        (valueLiteral item).toList.length + (laterItems items).length + 2 := by
      simp only [String.toList_append, toList_itemLiterals]
      simp
      omega
    rw [lengths] at enough
    rw [itemsDepth] at shallow
    obtain ⟨fuel, rfl⟩ : ∃ less, fuel = less + 4 := ⟨fuel - 4, by omega⟩
    have here : item.depth ≤ depth := by omega
    have first := (element_restored (inline item List.mem_cons_self)
      (restored item List.mem_cons_self) fuel here (by omega) (closes_laterItems items rest)).1
    have others := elements_laterItems
      (fun other listed => inline other (List.mem_cons_of_mem item listed))
      (fun other listed => restored other (List.mem_cons_of_mem item listed))
      item [] (fuel + 1) rest (show itemsDepth items ≤ depth by omega) (by omega)
    rcases valueLiteral_head (inline item List.mem_cons_self) with ⟨c, more, start, solid⟩
    rw [chars, opened]
    rw [start, List.cons_append] at first ⊢
    rw [array]
    · rw [elements_first first, others]
      rfl
    · intro tail same
      exact solid.2.2.2.2 (List.cons.inj same).1

end Arrays

/-- A value on a line is read back. -/
theorem restored {tree : Tree} (inline : tree.Inline) : Restored tree := by
  induction inline with
  | bool truth =>
    intro fuel depth rest _ enough ends
    rw [valueLiteral] at enough ⊢
    have filled : 0 < (toString truth).toList.length := by cases truth <;> decide
    obtain ⟨fuel, rfl⟩ : ∃ less, fuel = less + 1 := ⟨fuel - 1, by omega⟩
    exact value_bool truth fuel depth
  | int small =>
    rename_i number
    intro fuel depth rest _ enough ends
    have digits : (valueLiteral (.int (number : Int))).toList = decimal number := by
      rw [valueLiteral]
      exact toList_toString_ofNat number
    rw [digits] at enough ⊢
    have filled := List.length_pos_iff.mpr (decimal_ne_nil number)
    obtain ⟨fuel, rfl⟩ : ∃ less, fuel = less + 1 := ⟨fuel - 1, by omega⟩
    exact value_decimal small fuel depth ends
  | text content =>
    intro fuel depth rest _ enough ends
    rw [valueLiteral] at enough ⊢
    have filled := length_lt_textLiteral content
    obtain ⟨fuel, rfl⟩ : ∃ less, fuel = less + 1 := ⟨fuel - 1, by omega⟩
    exact value_text content depth ends (by omega)
  | list inline ih => exact restored_list inline ih

end Toml

end RegisterBank.Document
