import RegisterBank.Proofs.Document.Toml.Quotes

/-!
# Texts read back from TOML

The form of a text is chosen by what stands in it, and the reader recognizes
the form by the quotes at the start: a text on one line never starts with two
quotes more, and a text over several lines starts with a line break of its own
only behind one that does not count.
-/

namespace RegisterBank.Document.Toml

/-- What stands behind a value: a comma, the bracket that closes an array, or a
line break. -/
def Ends (rest : List Char) : Prop :=
  ∃ c more, rest = c :: more ∧ (c = ',' ∨ c = ']' ∨ c = '\n')

/-- No quote stands behind a value. -/
theorem Ends.head?_ne {rest : List Char} (ends : Ends rest) {quote : Char}
    (other : quote ≠ ',' ∧ quote ≠ ']' ∧ quote ≠ '\n') : rest.head? ≠ some quote := by
  rcases ends with ⟨c, more, rfl, rfl | rfl | rfl⟩
  · exact fun same => other.1 (Option.some.inj same).symm
  · exact fun same => other.2.1 (Option.some.inj same).symm
  · exact fun same => other.2.2 (Option.some.inj same).symm

theorem skipFirstBreak_solid {d : Char} (line : d ≠ '\n') (carriage : d ≠ '\r') (rest : List Char) :
    skipFirstBreak (d :: rest) = d :: rest := by
  unfold skipFirstBreak
  rw [lineBreak?_solid line carriage]
  rfl

/-- A character is written as it is unless it is a control character other than
a tab or a line break. -/
theorem isRaw_of_free {c : Char}
    (free : (isControl c && c != '\t' && c != '\n') = false) : IsRaw c := by
  unfold IsRaw
  by_cases tab : c = '\t'
  · rw [tab]
    exact Or.inl rfl
  by_cases line : c = '\n'
  · exact Or.inr line
  · left
    simp [tab, line, isControl] at free
    simp [isPlain, tab]
    omega

theorem isRaw_of_any {text : List Char}
    (free : (text.any fun c => isControl c && c != '\t' && c != '\n') = false) :
    ∀ c ∈ text, IsRaw c := by
  intro c listed
  have clear := List.any_eq_false.mp free c listed
  exact isRaw_of_free (by simpa using clear)

/-- Single quotes are chosen for texts without them and without line breaks. -/
theorem textForm_literal {text : List Char} (form : textForm text = .literal) :
    text ≠ [] ∧ ∀ c ∈ text, isPlain c = true ∧ c ≠ '\'' := by
  unfold textForm at form
  simp only at form
  split at form
  · cases form
  rename_i notBasic
  split at form
  · rename_i clear
    simp only [Bool.and_eq_true, Bool.not_eq_true'] at clear
    obtain ⟨⟨noQuote, noBreak⟩, free⟩ := clear
    refine ⟨?_, ?_⟩
    · rintro rfl
      exact notBasic rfl
    · intro c listed
      have quote : c ≠ '\'' := by
        rintro rfl
        rw [List.contains_iff_mem.mpr listed] at noQuote
        cases noQuote
      rcases isRaw_of_any free c listed with plain | rfl
      · exact ⟨plain, quote⟩
      · rw [List.contains_iff_mem.mpr listed] at noBreak
        cases noBreak
  split at form
  · cases form
  split at form
  · cases form
  split at form
  · cases form
  · cases form

/-- Three single quotes are chosen for texts with at most two of them in a
row. -/
theorem textForm_literalLines {text : List Char} (form : textForm text = .literalLines) :
    (∀ c ∈ text, IsRaw c) ∧ longestRun '\'' text 0 < 3 := by
  unfold textForm at form
  simp only at form
  split at form
  · cases form
  split at form
  · cases form
  split at form
  · cases form
  split at form
  · rename_i clear
    simp only [Bool.and_eq_true, Bool.not_eq_true', decide_eq_true_eq] at clear
    exact ⟨isRaw_of_any clear.2, clear.1⟩
  split at form
  · cases form
  · cases form

/-- The opening line break counts as none, and without one no text starts with
a line break. -/
theorem skipFirstBreak_openingBreak {text body : List Char} {d : Char} {tail : List Char}
    (start : body = d :: tail) (solid : '\n' ∉ text → d ≠ '\n' ∧ d ≠ '\r') :
    skipFirstBreak ((openingBreak text).toList ++ body) = body := by
  unfold openingBreak
  by_cases broken : text.contains '\n' = true
  · rw [if_pos broken]
    rfl
  · rw [if_neg broken]
    have none : '\n' ∉ text := fun listed => broken (List.contains_iff_mem.mpr listed)
    show skipFirstBreak body = body
    rw [start]
    exact skipFirstBreak_solid (solid none).1 (solid none).2 tail

/-- An escaped text starts with a line break only if the text has one. -/
theorem escapeChars_head (text : List Char) :
    ∀ rest, ∃ d tail, (escapeChars true 0 text).toList ++ '"' :: rest = d :: tail ∧
      ('\n' ∉ text → d ≠ '\n' ∧ d ≠ '\r') := by
  intro rest
  cases text with
  | nil => exact ⟨'"', rest, by rw [escapeChars]; rfl, fun _ => by decide⟩
  | cons c text =>
    by_cases quote : c = '"'
    · rw [quote, toList_escapeChars_quote, if_pos (by simp)]
      exact ⟨'"', _, rfl, fun _ => by decide⟩
    · rw [toList_escapeChars_cons true 0 quote]
      have writes := writes_escapeChar true c
      generalize (escapeChar true c).toList = written at writes
      cases writes with
      | plain plain slash =>
        refine ⟨c, _, rfl, fun none => ⟨?_, ?_⟩⟩
        · rintro rfl
          exact none List.mem_cons_self
        · rintro rfl
          exact absurd plain (by decide)
      | lineBreak _ same =>
        refine ⟨'\n', _, rfl, fun none => absurd ?_ none⟩
        rw [same]
        exact List.mem_cons_self
      | escaped escapes =>
        obtain ⟨d, tail, rfl, -⟩ := escapes
        exact ⟨'\\', _, rfl, fun _ => by decide⟩

/-- One double quote opens a text on one line unless two more follow. -/
theorem quotedText_basic {body : List Char} (single : ∀ tail, body ≠ '"' :: '"' :: tail)
    (fuel : Nat) : quotedText fuel ('"' :: body) = basicText fuel body := by
  unfold quotedText
  split
  · rename_i same
    exact absurd (List.cons.inj same).2 (single _)
  · rename_i same
    rw [(List.cons.inj same).2]
  · rename_i same
    exact absurd (List.cons.inj same).1 (by decide)
  · rename_i same
    exact absurd (List.cons.inj same).1 (by decide)
  · rename_i other _ _
    exact absurd rfl (other body)

/-- One single quote opens a text on one line unless two more follow. -/
theorem quotedText_literal {body : List Char} (single : ∀ tail, body ≠ '\'' :: '\'' :: tail)
    (fuel : Nat) : quotedText fuel ('\'' :: body) = literalText body := by
  unfold quotedText
  split
  · rename_i same
    exact absurd (List.cons.inj same).1 (by decide)
  · rename_i same
    exact absurd (List.cons.inj same).1 (by decide)
  · rename_i same
    exact absurd (List.cons.inj same).2 (single _)
  · rename_i same
    rw [(List.cons.inj same).2]
  · rename_i other
    exact absurd rfl (other body)

/-- An escaped text never starts with two quotes, since a quote inside is
escaped. -/
theorem basic_single (text : List Char) {rest : List Char} (apart : rest.head? ≠ some '"')
    (tail : List Char) : (escapeChars false 0 text).toList ++ '"' :: rest ≠ '"' :: '"' :: tail := by
  intro same
  cases text with
  | nil =>
    rw [escapeChars] at same
    have behind : rest = '"' :: tail := (List.cons.inj same).2
    rw [behind] at apart
    exact apart rfl
  | cons c text =>
    by_cases quote : c = '"'
    · rw [quote, toList_escapeChars_quote, if_neg (by simp)] at same
      exact absurd (List.cons.inj same).1 (by decide)
    · rcases (writes_escapeChar false c).head quote with ⟨d, more, start, other⟩
      rw [toList_escapeChars_cons false 0 quote, start] at same
      exact other (List.cons.inj same).1

/-! ## One form at a time -/

section Forms

variable {text : String} {fuel : Nat} {rest : List Char}

/-- Escaped on one line, between double quotes. -/
theorem quotedText_basicForm (noQuote : rest.head? ≠ some '"')
    (enough : text.toList.length < fuel) :
    quotedText fuel (("\"" ++ escapeChars false 0 text.toList ++ "\"").toList ++ rest) =
      .ok (text, rest) := by
  have read := basicChars_escapeChars text.toList fuel [] rest enough
  have chars : ("\"" ++ escapeChars false 0 text.toList ++ "\"").toList ++ rest =
      '"' :: ((escapeChars false 0 text.toList).toList ++ '"' :: rest) := by
    simp
  rw [List.reverse_nil, List.nil_append, String.ofList_toList] at read
  rw [chars, quotedText_basic (basic_single text.toList noQuote)]
  exact read

/-- As it is on one line, between single quotes. -/
theorem quotedText_literalForm (form : textForm text.toList = .literal) :
    quotedText fuel (("'" ++ text ++ "'").toList ++ rest) = .ok (text, rest) := by
  rcases textForm_literal form with ⟨filled, content⟩
  have read := literalText_quote content rest
  have chars : ("'" ++ text ++ "'").toList ++ rest = '\'' :: (text.toList ++ '\'' :: rest) := by
    simp
  have single : ∀ tail, text.toList ++ '\'' :: rest ≠ '\'' :: '\'' :: tail := by
    intro tail same
    rcases List.exists_cons_of_ne_nil filled with ⟨c, more, start⟩
    rw [start] at same
    exact (content c (by rw [start]; exact List.mem_cons_self)).2 (List.cons.inj same).1
  rw [String.ofList_toList] at read
  rw [chars, quotedText_literal single, read]

/-- Escaped over several lines, between three double quotes. -/
theorem quotedText_basicLinesForm (noQuote : rest.head? ≠ some '"')
    (enough : text.toList.length < fuel) :
    quotedText fuel (("\"\"\"" ++ openingBreak text.toList ++ escapeChars true 0 text.toList ++
      "\"\"\"").toList ++ rest) = .ok (text, rest) := by
  have read := basicBody_escapeChars text.toList (Nat.zero_le 2) fuel [] rest noQuote enough
  rcases escapeChars_head text.toList ('"' :: '"' :: rest) with ⟨d, tail, start, solid⟩
  have chars : ("\"\"\"" ++ openingBreak text.toList ++ escapeChars true 0 text.toList ++
      "\"\"\"").toList ++ rest = '"' :: '"' :: '"' :: ((openingBreak text.toList).toList ++
        ((escapeChars true 0 text.toList).toList ++ '"' :: '"' :: '"' :: rest)) := by
    simp
  rw [List.replicate_zero, List.nil_append, List.nil_append, List.reverse_nil, List.nil_append,
    String.ofList_toList] at read
  rw [chars]
  show basicLines fuel _ = _
  unfold basicLines
  rw [skipFirstBreak_openingBreak start solid]
  exact read

/-- A text as it is starts with a line break only if it has one. -/
theorem raw_head {text : List Char} (raw : ∀ c ∈ text, IsRaw c) (rest : List Char) :
    ∃ d tail, text ++ '\'' :: rest = d :: tail ∧ ('\n' ∉ text → d ≠ '\n' ∧ d ≠ '\r') := by
  cases text with
  | nil => exact ⟨'\'', rest, rfl, fun _ => by decide⟩
  | cons c more =>
    refine ⟨c, _, rfl, fun none => ⟨?_, ?_⟩⟩
    · intro same
      rw [same] at none
      exact none List.mem_cons_self
    · intro same
      rcases raw c List.mem_cons_self with plain | line
      · rw [same] at plain
        exact absurd plain (by decide)
      · rw [same] at line
        exact absurd line (by decide)

/-- As it is over several lines, between three single quotes. -/
theorem quotedText_literalLinesForm (form : textForm text.toList = .literalLines)
    (noQuote : rest.head? ≠ some '\'') (enough : text.toList.length < fuel) :
    quotedText fuel (("'''" ++ openingBreak text.toList ++ text ++ "'''").toList ++ rest) =
      .ok (text, rest) := by
  rcases textForm_literalLines form with ⟨raw, runs⟩
  have read := literalBody_raw text.toList (Nat.zero_le 2) fuel [] rest raw runs noQuote enough
  rcases raw_head raw ('\'' :: '\'' :: rest) with ⟨d, tail, start, solid⟩
  have chars : ("'''" ++ openingBreak text.toList ++ text ++ "'''").toList ++ rest =
      '\'' :: '\'' :: '\'' :: ((openingBreak text.toList).toList ++
        (text.toList ++ '\'' :: '\'' :: '\'' :: rest)) := by
    simp
  rw [List.replicate_zero, List.nil_append, List.nil_append, List.reverse_nil, List.nil_append,
    String.ofList_toList] at read
  rw [chars]
  show literalLines fuel _ = _
  unfold literalLines
  rw [skipFirstBreak_openingBreak start solid]
  exact read

end Forms

/-- A written text is read back, whatever its form. -/
theorem quotedText_textLiteral (text : String) {fuel : Nat} {rest : List Char} (ends : Ends rest)
    (enough : text.toList.length < fuel) :
    quotedText fuel ((textLiteral text).toList ++ rest) = .ok (text, rest) := by
  have noDouble := ends.head?_ne (show '"' ≠ ',' ∧ '"' ≠ ']' ∧ '"' ≠ '\n' by decide)
  have noSingle := ends.head?_ne (show '\'' ≠ ',' ∧ '\'' ≠ ']' ∧ '\'' ≠ '\n' by decide)
  unfold textLiteral
  simp only
  cases form : textForm text.toList with
  | basic => exact quotedText_basicForm noDouble enough
  | literal => exact quotedText_literalForm form
  | basicLines => exact quotedText_basicLinesForm noDouble enough
  | literalLines => exact quotedText_literalLinesForm form noSingle enough

/-! ## Lengths -/

/-- Escaping makes no text shorter. -/
theorem length_le_escapeChars (overLines : Bool) (run : Nat) (text : List Char) :
    text.length ≤ (escapeChars overLines run text).toList.length := by
  induction text generalizing run with
  | nil => exact Nat.zero_le _
  | cons c text ih =>
    rw [List.length_cons]
    by_cases quote : c = '"'
    · rw [quote, toList_escapeChars_quote]
      have longer := ih (run + 1)
      have afresh := ih 0
      split
      · rw [List.length_cons]
        omega
      · rw [List.length_cons, List.length_cons]
        omega
    · rcases (writes_escapeChar overLines c).head quote with ⟨d, tail, start, -⟩
      have afresh := ih 0
      rw [toList_escapeChars_cons overLines run quote, start, List.length_append, List.length_cons]
      omega

/-- The quotes of a text come on top of its characters. -/
theorem length_lt_textLiteral (text : String) :
    text.toList.length < (textLiteral text).toList.length := by
  have onLine := length_le_escapeChars false 0 text.toList
  have overLines := length_le_escapeChars true 0 text.toList
  unfold textLiteral
  simp only
  cases textForm text.toList with
  | basic =>
    simp only [String.toList_append, List.length_append]
    have quote : "\"".toList.length = 1 := by decide
    omega
  | literal =>
    simp only [String.toList_append, List.length_append]
    have quote : "'".toList.length = 1 := by decide
    omega
  | basicLines =>
    simp only [String.toList_append, List.length_append]
    have quotes : "\"\"\"".toList.length = 3 := by decide
    omega
  | literalLines =>
    simp only [String.toList_append, List.length_append]
    have quotes : "'''".toList.length = 3 := by decide
    omega

end RegisterBank.Document.Toml
