import Mathlib.Data.List.Basic
import RegisterBank.Text.Identifier
import RegisterBank.Verilog.Printer

/-!
# Tokens of a text

A reader that knows nothing of the printer: it cuts a text into lines, drops
comments, and takes each line apart into words and symbols.  A word is a longest
run of letters, digits, underscores and quotes, so a sized constant is one word;
any other character but a blank is a symbol, `<=` is two.

Two pieces of a line may be read one after the other if the first does not end
or the second does not start inside a word (`lineTokens_append`), and the lines
of a text may always be (`tokens_linesText`).
-/

namespace RegisterBank.Verilog

/-! ## Reading -/

/-- Characters of words: of names, numbers and sized constants. -/
def isWordChar (c : Char) : Bool := Text.isIdentifierRest c || c == '\''

/-- A character as it stands in a word, or a symbol between blanks. -/
def setApart (c : Char) : List Char := if isWordChar c then [c] else [' ', c, ' ']

/-- The words and symbols of a line. -/
def lineTokens (line : List Char) : List String :=
  (((line.flatMap setApart).splitOn ' ').filter fun token => !token.isEmpty).map String.ofList

/-- A line up to its comment. -/
def withoutComment : List Char → List Char
  | [] => []
  | c :: rest => if c = '/' ∧ rest.head? = some '/' then [] else c :: withoutComment rest

/-- The words and symbols of a line, outside its comment. -/
def codeTokens (line : List Char) : List String := lineTokens (withoutComment line)

/-- The words and symbols of a text, outside comments. -/
def tokens (text : String) : List String := (text.toList.splitOn '\n').flatMap codeTokens

/-! ## Pieces of a line -/

/-- What a character gives that is not part of a word. -/
def symbolTokens (c : Char) : List String := if c = ' ' then [] else [String.ofList [c]]

/-- A character outside of words ends the word in front of it. -/
theorem lineTokens_append_cons {c : Char} (other : isWordChar c = false)
    (before after : List Char) :
    lineTokens (before ++ c :: after) =
      lineTokens before ++ (symbolTokens c ++ lineTokens after) := by
  have padded : (before ++ c :: after).flatMap setApart =
      before.flatMap setApart ++ ' ' :: ([c] ++ ' ' :: after.flatMap setApart) := by
    simp [setApart, other]
  unfold lineTokens
  rw [padded, List.splitOn_append_cons_self, List.splitOn_append_cons_self, List.filter_append,
    List.filter_append, List.map_append, List.map_append]
  congr 2
  unfold symbolTokens
  by_cases blank : c = ' '
  · rw [blank]
    rfl
  · rw [List.splitOn_eq_singleton (by simpa using Ne.symm blank), if_neg blank]
    rfl

theorem lineTokens_nil : lineTokens [] = [] := rfl

theorem lineTokens_cons {c : Char} (other : isWordChar c = false) (after : List Char) :
    lineTokens (c :: after) = symbolTokens c ++ lineTokens after :=
  lineTokens_append_cons other [] after

/-- A piece of a line does not start inside a word. -/
def startsApart (piece : List Char) : Bool := piece.head?.all fun c => !isWordChar c

/-- A piece of a line does not end inside a word. -/
def endsApart (piece : List Char) : Bool := piece.getLast?.all fun c => !isWordChar c

/-- Pieces whose words do not touch are read one after the other. -/
theorem lineTokens_append {before after : List Char}
    (apart : endsApart before = true ∨ startsApart after = true) :
    lineTokens (before ++ after) = lineTokens before ++ lineTokens after := by
  rcases apart with ends | starts
  · rcases List.eq_nil_or_concat before with rfl | ⟨start, c, rfl⟩
    · rfl
    · have other : isWordChar c = false := by simpa [endsApart] using ends
      rw [List.concat_eq_append, List.append_assoc, List.singleton_append,
        lineTokens_append_cons other, lineTokens_append_cons other, lineTokens_nil,
        List.append_nil, List.append_assoc]
  · cases after with
    | nil => rw [List.append_nil, lineTokens_nil, List.append_nil]
    | cons c rest =>
      have other : isWordChar c = false := by simpa [startsApart] using starts
      rw [lineTokens_append_cons other, lineTokens_cons other]

/-- A word is a token. -/
theorem lineTokens_word {word : List Char} (characters : ∀ c ∈ word, isWordChar c = true)
    (filled : word ≠ []) : lineTokens word = [String.ofList word] := by
  have kept : word.flatMap setApart = word := by
    have single : ∀ c ∈ word, setApart c = [c] := fun c listed => if_pos (characters c listed)
    rw [List.flatMap_congr single]
    simp
  have solid : ' ' ∉ word := fun listed => absurd (characters ' ' listed) (by decide)
  unfold lineTokens
  rw [kept, List.splitOn_eq_singleton solid]
  simp [filled]

/-- Padding has no tokens. -/
theorem lineTokens_blanks (count : Nat) : lineTokens (List.replicate count ' ') = [] := by
  induction count with
  | zero => rfl
  | succ count ih =>
    rw [List.replicate_succ, lineTokens_cons (by decide), ih]
    rfl

/-! ## Lines of a text -/

/-- A line without slashes is code to its end. -/
theorem withoutComment_of_not_mem {line : List Char} (plain : '/' ∉ line) :
    withoutComment line = line := by
  induction line with
  | nil => rfl
  | cons c rest ih =>
    rw [List.mem_cons, not_or] at plain
    rw [withoutComment, if_neg fun comment => plain.1 comment.1.symm, ih plain.2]

/-- Two slashes end the code of a line. -/
theorem withoutComment_append {start : List Char} (plain : '/' ∉ start) (comment : List Char) :
    withoutComment (start ++ '/' :: '/' :: comment) = start := by
  induction start with
  | nil => rfl
  | cons c rest ih =>
    rw [List.mem_cons, not_or] at plain
    rw [List.cons_append, withoutComment, if_neg fun comment => plain.1 comment.1.symm, ih plain.2]

theorem toList_linesText (lines : List String) :
    (linesText lines).toList = lines.flatMap fun line => line.toList ++ ['\n'] := by
  have continued (start : String) :
      (lines.foldl (fun text line => text ++ line ++ "\n") start).toList =
        start.toList ++ lines.flatMap fun line => line.toList ++ ['\n'] := by
    induction lines generalizing start with
    | nil => simp
    | cons line rest ih =>
      rw [List.foldl_cons, ih, List.flatMap_cons]
      simp [String.toList_append]
  exact continued ""

/-- Lines without line breaks are read one by one. -/
theorem tokens_linesText {lines : List String} (unbroken : ∀ line ∈ lines, '\n' ∉ line.toList) :
    tokens (linesText lines) = lines.flatMap fun line => codeTokens line.toList := by
  unfold tokens
  rw [toList_linesText]
  induction lines with
  | nil => rfl
  | cons line rest ih =>
    rw [List.flatMap_cons, List.append_assoc, List.singleton_append, List.splitOn_append_cons_self,
      List.flatMap_append, ih fun other listed => unbroken other (List.mem_cons_of_mem _ listed),
      List.splitOn_eq_singleton (unbroken line List.mem_cons_self)]
    simp

end RegisterBank.Verilog
